import ComponentsNetwork.Legacy.HttpServer
import ComponentsNetwork.Lib.Runs
/-!
# What a step of a legacy HTTP server does

`processRequest_processed` says what a session does with the request it reads
(`Exchanged`), and `step_effect` sums up the steps of the server, in states
that are `Sound`, as all are that a run reaches.
-/

namespace ComponentsNetwork.HTTPOld

open Buffers HTTP Runs

variable {H : Type} {sha256 : String → Bytes}

/-! ## One session -/

/-- A request that is read, the peer's address if there still is a peer, and
what the processor leaves in the packet, if it does not throw. -/
structure Reading where
  version : Nat
  request : Request
  peer : Option String
  left : Option PacketMeta

/-- A response to the request, of what has been left for it. -/
structure Responds (version status : Nat) (type : String) (length : Option String) (body : Bytes) (response : Response) :
    Prop where
  version : response.version = version
  result : response.result = status
  server : response.fields.value .server = some "ManagementServer"
  contentType : response.fields.value .content_type = some type
  contentLength : response.fields.value .content_length = length
  body : response.body = .dynamic body

/-- What a session with the processors does, of what it reads. -/
inductive Exchanged (sha256 : String → Bytes) (ps : Processors H) : List Reading → SessionLog H → Prop
  | nothing : Exchanged sha256 ps [] {}
  /-- The peer had gone. -/
  | noPeer (version : Nat) (request : Request) (left : Option PacketMeta) :
      Exchanged sha256 ps [⟨version, request, none, left⟩] { requests := [request] }
  | unknown {version : Nat} {request : Request} {address : String} {left : Option PacketMeta} {response : Response}
      (method : ps.ofMethod request.method = none)
      (responds : Responds version 400 "text/plain" none (ClientSession.unknownText request.method) response) :
      Exchanged sha256 ps [⟨version, request, some address, left⟩] { requests := [request], written := [response] }
  | threw {version : Nat} {request : Request} {address : String} {process : H}
      (method : ps.ofMethod request.method = some (some process)) :
      Exchanged sha256 ps [⟨version, request, some address, none⟩] {
        requests := [request]
        calls := [(process, { sessionId := sha256 address, target := request.target, body := request.body })] }
  | answered {version : Nat} {request : Request} {address : String} {left : PacketMeta} {process : H}
      {response : Response} (method : ps.ofMethod request.method = some (some process))
      (responds : Responds version left.responseResult.status left.responseType.contentType
        (some left.body.length.repr) left.body response) :
      Exchanged sha256 ps [⟨version, request, some address, some left⟩] {
        requests := [request]
        calls := [(process, { sessionId := sha256 address, target := request.target, body := request.body })]
        written := [response] }

/-- A session that has done nothing has read nothing. -/
theorem Exchanged.of_nothing {ps : Processors H} {rs : List Reading} (h : Exchanged sha256 ps rs {}) : rs = [] := by
  generalize hlog : ({} : SessionLog H) = log at h
  cases h with
  | nothing => rfl
  | noPeer | unknown | threw | answered => cases hlog

namespace ClientSession

/-- A session that reads has done nothing, and has its processors. -/
structure Fresh (s : ClientSession H) : Prop where
  log : s.log = {}
  response : s.response = {}
  complete : s.processors.complete = true

theorem ofMethod_isSome {ps : Processors H} (h : ps.complete = true) (method : Verb) :
    ps.ofMethod method ≠ some none := by
  unfold Processors.complete at h
  simp only [Bool.and_eq_true, Option.isSome_iff_exists] at h
  obtain ⟨⟨⟨⟨get, hget⟩, ⟨post, hpost⟩⟩, ⟨put, hput⟩⟩, ⟨delete, hdelete⟩⟩ := h
  cases method <;> simp [Processors.ofMethod, hget, hpost, hput, hdelete]

/-- The exception a request ends in, if any: there is no peer, or the
processor throws. -/
def Throws (request : Request) (peer : Option String) (left : Option PacketMeta) : Prop :=
  peer = none ∨ ((∀ name, request.method ≠ .other name) ∧ left = none)

/-- What a session does with the request it reads. -/
structure Processed (sha256 : String → Bytes) (s : ClientSession H) (r : Reading) (x : ClientSession H × Exit) :
    Prop where
  exchanged : Exchanged sha256 s.processors [r] x.1.log
  processors : x.1.processors = s.processors
  phase : x.1.phase ≠ .reading
  throws : x.2 = .throws ↔ Throws r.request r.peer r.left

theorem processRequest_processed {s : ClientSession H} (h : Fresh s) (version : Nat) (request : Request)
    (peer : Option String) (left : Option PacketMeta) :
    Processed sha256 s ⟨version, request, peer, left⟩ (s.processRequest sha256 version request peer left) := by
  obtain ⟨hlog, hresponse, hcomplete⟩ := h
  unfold processRequest
  dsimp only
  rw [hlog, hresponse]
  cases peer with
  | none => exact ⟨.noPeer version request left, rfl, by simp [destroyed], by simp [Throws]⟩
  | some address =>
    dsimp only
    cases hmethod : s.processors.ofMethod request.method with
    | none =>
      obtain ⟨name, hname⟩ : ∃ name, request.method = .other name := by
        cases hm : request.method <;> simp [hm, Processors.ofMethod] at hmethod ⊢
      refine ⟨.unknown hmethod ⟨rfl, rfl, ?_, ?_, ?_, rfl⟩, rfl, by simp [write], by simp [Throws, hname]⟩
      · simp [unknownMethod, prepare, Fields.value_set]
      · simp [unknownMethod, prepare, Fields.value_set]
      · simp only [unknownMethod, prepare, Fields.value_set]
        rfl
    | some found =>
      have hknown : ∀ name, request.method ≠ .other name := by
        intro name hname
        rw [hname] at hmethod
        cases hmethod
      cases found with
      | none => exact absurd hmethod (ofMethod_isSome hcomplete _)
      | some process =>
        cases left with
        | none => exact ⟨.threw hmethod, rfl, by simp [destroyed], by simp [Throws, hknown]⟩
        | some left =>
          refine ⟨.answered hmethod ⟨rfl, rfl, ?_, ?_, ?_, ?_⟩, rfl, by simp [write], by simp [Throws]⟩
          · simp [respond, prepare, Fields.value_set]
          · simp [respond, prepare, Fields.value_set]
          · simp [respond, prepare, Fields.value_set, ResponseBody.octets]
          · simp [respond, prepare, ResponseBody.octets]

end ClientSession

/-! ## Steps of the server -/

namespace Server

/-- What every step keeps. Between handlers `socket` holds no connection, and
a server that runs has an accept outstanding. -/
structure Sound (s : Server H) : Prop where
  socketOpen : s.socketOpen = false
  accepted : s.accepted ≤ s.accepts
  accepts : s.running = true → 0 < s.accepts
  fresh : ∀ session ∈ s.sessions, session.phase = .reading → session.Fresh

/-- The step leaves the sessions, `run()` and the accepts alone. -/
structure Still (s s' : Server H) : Prop where
  sessions : s'.sessions = s.sessions
  running : s'.running = s.running
  accepts : s'.accepts = s.accepts
  accepted : s'.accepted = s.accepted

/-- What a step comes to. -/
inductive Effect (sha256 : String → Bytes) (s : Server H) : Action H → Server H → Prop
  | still {a s'} (still : Still s s') (quiet : a ≠ .accept true ∧ ∀ i v r p l, a ≠ .reads i v r p l) : Effect sha256 s a s'
  | started {port s'} (sessions : s'.sessions = s.sessions) (accepts : s'.accepts = s.accepts + 1)
      (accepted : s'.accepted = s.accepted) (running : s'.running = !s.stopped) :
      Effect sha256 s (.start port .listens) s'
  | connects {s'} (acceptor : s.acceptorOpen = true) (free : s.accepted < s.accepts)
      (sessions : s'.sessions = s.sessions) (running : s'.running = s.running) (accepts : s'.accepts = s.accepts)
      (accepted : s'.accepted = s.accepted + 1) : Effect sha256 s .connects s'
  | accepted {s'} (connected : 0 < s.accepted) (complete : s.processors.complete = true)
      (sessions : s'.sessions = s.sessions ++ [{ socketOpen := true, processors := s.processors }])
      (running : s'.running = s.running) (accepts : s'.accepts = s.accepts) (accepted : s'.accepted = s.accepted - 1) :
      Effect sha256 s (.accept true) s'
  | refused {session : ClientSession H} {s'} (connected : 0 < s.accepted) (missing : s.processors.complete = false)
      (closed : session.phase = .closed) (processors : session.processors = s.processors) (log : session.log = {})
      (sessions : s'.sessions = s.sessions ++ [session]) (ended : s'.running = false)
      (accepts : s'.accepts = s.accepts - 1) (accepted : s'.accepted = s.accepted - 1) :
      Effect sha256 s (.accept true) s'
  | processed {i version request peer left session s'} (at_ : s.sessions[i]? = some session)
      (reading : session.phase = .reading)
      (sessions : s'.sessions = s.sessions.set i (session.processRequest sha256 version request peer left).1)
      (threw : (session.processRequest sha256 version request peer left).2 = .throws → s'.running = false)
      (returned : (session.processRequest sha256 version request peer left).2 = .returns → s'.running = s.running)
      (accepts : s'.accepts = s.accepts) (accepted : s'.accepted = s.accepted) :
      Effect sha256 s (.reads i version request peer left) s'
  | closed {a i session s'} (at_ : s.sessions[i]? = some session)
      (sessions : s'.sessions = s.sessions.set i session.destroyed) (running : s'.running = s.running)
      (accepts : s'.accepts = s.accepts) (accepted : s'.accepted = s.accepted)
      (quiet : a = .readFails i ∨ a = .written i) : Effect sha256 s a s'

theorem session_eq_some {s : Server H} {i : Nat} {phase : Phase} {session : ClientSession H}
    (h : s.session i phase = some session) :
    s.running = true ∧ s.sessions[i]? = some session ∧ session.phase = phase := by
  unfold Server.session at h
  simp only [Option.ite_none_right_eq_some, Option.filter_eq_some_iff, Bool.and_eq_true, decide_eq_true_eq] at h
  exact ⟨h.1, h.2.1, h.2.2.2⟩

theorem stop_eq {s : Server H} (h : s.socketOpen = false) : s.stop = ({ s with acceptorOpen := false }, .throws) := by
  unfold stop
  cases hopen : s.acceptorOpen with
  | true => simp [h]
  | false =>
    have hsame : ({ s with acceptorOpen := false } : Server H) = s := by rw [← hopen]
    rw [hsame]
    rfl

/-- The end of a handler changes nothing but `running` and `stopped`. With an
accept outstanding, only an exception ends `run()`. -/
structure Left (s : Server H) (exit : Exit) (s' : Server H) : Prop where
  sessions : s'.sessions = s.sessions
  accepts : s'.accepts = s.accepts
  accepted : s'.accepted = s.accepted
  socketOpen : s'.socketOpen = s.socketOpen
  acceptorOpen : s'.acceptorOpen = s.acceptorOpen
  threw : exit = .throws → s'.running = false
  returned : exit = .returns → 0 < s.accepts → s'.running = s.running

theorem leave_left (s : Server H) (exit : Exit) : Left s exit (s.leave exit) := by
  unfold leave
  cases exit with
  | throws =>
    rw [if_pos rfl]
    dsimp only
    split <;> exact ⟨rfl, rfl, rfl, rfl, rfl, fun _ => rfl, fun h => (by cases h)⟩
  | returns =>
    simp only [reduceCtorEq, if_false]
    split
    · next hnone =>
      refine ⟨rfl, rfl, rfl, rfl, rfl, fun h => (by cases h), fun _ hpos => ?_⟩
      unfold outstanding at hnone
      omega
    · exact ⟨rfl, rfl, rfl, rfl, rfl, fun h => (by cases h), fun _ _ => rfl⟩

/-- A connection is moved into a session that has all its processors. -/
theorem acceptHandler_complete {s : Server H} (h : s.processors.complete = true) :
    s.acceptHandler true =
      (acceptConnections { s with
        socketOpen := false
        sessions := s.sessions ++ [{ socketOpen := s.socketOpen, processors := s.processors }] }, .returns) := by
  simp [acceptHandler, ClientSession.readRequest, h]

/-- A connection is moved into a session that lacks a processor, and lost. -/
theorem acceptHandler_missing {s : Server H} (h : s.processors.complete = false) :
    s.acceptHandler true =
      ({ s with
        socketOpen := false
        sessions := s.sessions ++
          [({ socketOpen := s.socketOpen, processors := s.processors } : ClientSession H).destroyed] }, .throws) := by
  simp [acceptHandler, ClientSession.readRequest, h]

/-- The handler of an accept leaves `socket` without a connection. -/
theorem accept_effect {s s' : Server H} {connected : Bool} (hs : Sound s)
    (h : s.step sha256 (.accept connected) = some s') :
    s'.socketOpen = false ∧ Effect sha256 s (.accept connected) s' := by
  cases connected with
  | true =>
    simp only [step, Option.ite_none_right_eq_some, Option.some.injEq, Bool.and_eq_true, decide_eq_true_eq] at h
    obtain ⟨⟨-, hpos⟩, rfl⟩ := h
    have haccepts : s.accepts - 1 + 1 = s.accepts := Nat.sub_add_cancel (Nat.lt_of_lt_of_le hpos hs.accepted)
    cases hcomplete : s.processors.complete with
    | true =>
      rw [acceptHandler_complete (s := s.connection) hcomplete]
      have hleft := leave_left (acceptConnections { s.connection with
        socketOpen := false
        sessions := s.sessions ++ [{ socketOpen := true, processors := s.processors }] }) .returns
      exact ⟨hleft.socketOpen, .accepted hpos hcomplete hleft.sessions (hleft.returned rfl (Nat.succ_pos _))
        (hleft.accepts.trans haccepts) hleft.accepted⟩
    | false =>
      rw [acceptHandler_missing (s := s.connection) hcomplete]
      have hleft := leave_left { s.connection with
        socketOpen := false
        sessions := s.sessions ++
          [({ socketOpen := true, processors := s.processors } : ClientSession H).destroyed] } .throws
      exact ⟨hleft.socketOpen, .refused hpos hcomplete rfl rfl rfl hleft.sessions (hleft.threw rfl)
        hleft.accepts hleft.accepted⟩
  | false =>
    simp only [step, Option.ite_none_right_eq_some, Option.some.injEq, Bool.and_eq_true, decide_eq_true_eq] at h
    obtain ⟨⟨-, hfree⟩, rfl⟩ := h
    have hleft := leave_left (acceptConnections { s with accepts := s.accepts - 1 }) .returns
    have haccepts : s.accepts - 1 + 1 = s.accepts := Nat.sub_add_cancel (Nat.zero_lt_of_lt hfree)
    exact ⟨hleft.socketOpen.trans hs.socketOpen, .still ⟨hleft.sessions, hleft.returned rfl (Nat.succ_pos _),
      hleft.accepts.trans haccepts, hleft.accepted⟩ (by simp)⟩

theorem step_effect {s s' : Server H} {a : Action H} (hs : Sound s) (h : s.step sha256 a = some s') :
    s'.socketOpen = false ∧ Effect sha256 s a s' := by
  have hsocket := hs.socketOpen
  cases a with
  | setProcessorGet proc | setProcessorPost proc | setProcessorPut proc | setProcessorDelete proc =>
    cases h
    exact ⟨hsocket, .still ⟨rfl, rfl, rfl, rfl⟩ (by simp)⟩
  | stop =>
    cases h
    rw [stop_eq hsocket]
    exact ⟨hsocket, .still ⟨rfl, rfl, rfl, rfl⟩ (by simp)⟩
  | start port o =>
    simp only [step, Option.ite_none_left_eq_some, Option.some.injEq] at h
    obtain ⟨-, rfl⟩ := h
    cases o with
    | refused opened => exact ⟨hsocket, .still ⟨rfl, rfl, rfl, rfl⟩ (by simp)⟩
    | listens => exact ⟨hsocket, .started rfl rfl rfl rfl⟩
  | connects =>
    simp only [step, Option.ite_none_right_eq_some, Option.some.injEq, Bool.and_eq_true, decide_eq_true_eq] at h
    obtain ⟨⟨hacceptor, hfree⟩, rfl⟩ := h
    exact ⟨hsocket, .connects hacceptor hfree rfl rfl rfl rfl⟩
  | accept connected => exact accept_effect hs h
  | reads i version request peer left =>
    obtain ⟨session, hsession, rfl⟩ := Option.map_eq_some_iff.1 h
    obtain ⟨hrun, hi, hreading⟩ := session_eq_some hsession
    have hleft := leave_left
      { s with sessions := s.sessions.set i (session.processRequest sha256 version request peer left).1 }
      (session.processRequest sha256 version request peer left).2
    exact ⟨hleft.socketOpen.trans hsocket, .processed hi hreading hleft.sessions hleft.threw
      (fun hexit => hleft.returned hexit (hs.accepts hrun)) hleft.accepts hleft.accepted⟩
  | readFails i | written i =>
    obtain ⟨session, hsession, rfl⟩ := Option.map_eq_some_iff.1 h
    obtain ⟨hrun, hi, -⟩ := session_eq_some hsession
    have hleft := leave_left { s with sessions := s.sessions.set i session.destroyed } .returns
    exact ⟨hleft.socketOpen.trans hsocket, .closed hi hleft.sessions (hleft.returned rfl (hs.accepts hrun))
      hleft.accepts hleft.accepted (by simp)⟩

/-! ## Runs -/

theorem sound_step (s : Server H) (a : Action H) (s' : Server H) (hs : Sound s) (h : s.step sha256 a = some s') :
    Sound s' := by
  obtain ⟨hsocket, he⟩ := step_effect hs h
  obtain ⟨-, haccepted, haccepts, hfresh⟩ := hs
  have hset : ∀ (i : Nat) (session' : ClientSession H), session'.phase ≠ .reading →
      ∀ session ∈ s.sessions.set i session', session.phase = .reading → session.Fresh := by
    intro i session' hphase session hmem hreading
    rcases List.mem_or_eq_of_mem_set hmem with hold | rfl
    · exact hfresh session hold hreading
    · exact absurd hreading hphase
  cases he with
  | still hstill _ =>
    refine ⟨hsocket, ?_, ?_, ?_⟩
    · rw [hstill.accepted, hstill.accepts]
      exact haccepted
    · rw [hstill.running, hstill.accepts]
      exact haccepts
    · rw [hstill.sessions]
      exact hfresh
  | started hsessions haccepts' haccepted' _ =>
    refine ⟨hsocket, by omega, fun _ => by omega, ?_⟩
    rw [hsessions]
    exact hfresh
  | connects _ hfree hsessions hrunning haccepts' haccepted' =>
    refine ⟨hsocket, by omega, fun _ => by omega, ?_⟩
    rw [hsessions]
    exact hfresh
  | accepted hconnected hcomplete hsessions _ haccepts' haccepted' =>
    refine ⟨hsocket, by omega, fun _ => by omega, ?_⟩
    rw [hsessions]
    intro session hmem hreading
    rcases List.mem_append.1 hmem with hold | hnew
    · exact hfresh session hold hreading
    · cases List.mem_singleton.1 hnew
      exact ⟨rfl, rfl, hcomplete⟩
  | refused hconnected _ hclosed _ _ hsessions hended haccepts' haccepted' =>
    refine ⟨hsocket, by omega, fun hrunning => absurd (hrunning.symm.trans hended) (by decide), ?_⟩
    rw [hsessions]
    intro session hmem hreading
    rcases List.mem_append.1 hmem with hold | hnew
    · exact hfresh session hold hreading
    · cases List.mem_singleton.1 hnew
      cases hclosed.symm.trans hreading
  | @processed i version request peer left session s' hi hreading hsessions hthrew hreturned haccepts' haccepted' =>
    have hprocessed : ClientSession.Processed sha256 session _ _ := ClientSession.processRequest_processed
      (hfresh session (List.mem_of_getElem? hi) hreading) version request peer left
    refine ⟨hsocket, by omega, fun hrunning => ?_, ?_⟩
    · rw [haccepts']
      cases hexit : (session.processRequest sha256 version request peer left).2 with
      | throws => exact absurd (hrunning.symm.trans (hthrew hexit)) (by decide)
      | returns => exact haccepts ((hreturned hexit).symm.trans hrunning)
    · rw [hsessions]
      exact hset i _ hprocessed.phase
  | closed _ hsessions hrunning haccepts' haccepted' _ =>
    refine ⟨hsocket, by omega, ?_, ?_⟩
    · rw [hrunning, haccepts']
      exact haccepts
    · rw [hsessions]
      exact hset _ _ (by simp [ClientSession.destroyed])

theorem sound_run {s : Server H} {as : List (Action H)} (h : run (step sha256) ({} : Server H) as = some s) :
    Sound s :=
  run_inv sound_step ⟨rfl, Nat.le_refl _, fun h => (by cases h), by simp⟩ h

end Server

end ComponentsNetwork.HTTPOld
