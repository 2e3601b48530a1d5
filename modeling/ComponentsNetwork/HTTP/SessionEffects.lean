import ComponentsNetwork.HTTP.ConnectionSession
/-!
# What a step of a session does

`step_effect` sums up `ConnectionSession.lean`: what each action does to the
parts of the state the theorems speak of (`View`). A step reads one request,
ends one write, or sends one response, and a read that the session answers
itself does both. The theorems are case analyses over this, so none of them
looks at the code again.
-/

namespace ComponentsNetwork.HTTP.ConnectionSession

open Buffers Asio Runs

variable {H : Type} (reason : Nat → String)

/-- The parts of a session's state that requests and responses go through. -/
structure View where
  processors : List MethodType
  request : Request
  received : List Request
  handed : List (MethodType × Packet)
  pending : List Nat
  started : List (Origin × Response)
  inFlight : Nat
  overwritten : Bool

def view (s : ConnectionSession H) : View :=
  ⟨s.processors, s.request, s.log.received, s.log.handed, s.pending, s.log.started, s.inFlight, s.log.overwritten⟩

namespace View

/-- A request is read; `handed` is the call made for it, if any. -/
def receive (v : View) (incoming : Request) (handed : List (MethodType × Packet)) : View :=
  { v with
    request := v.request.readInto incoming
    received := v.received ++ [incoming]
    handed := v.handed ++ handed }

/-- `m_response` is assigned and, unless `result` throws, its write started. -/
def send (v : View) (o : Origin) (resp : Option Response) : View :=
  { v with
    started := v.started ++ resp.toList.map fun r => (o, r)
    inFlight := v.inFlight + resp.toList.length
    overwritten := v.overwritten || v.inFlight != 0 }

end View

/-! ## Sending -/

/-- `sendResponse` of the packet starts a write, rather than throw. -/
def starts (pkt : Packet) (opened : Option Bytes) : Bool :=
  pkt.statusCode ≤ 999 || (pkt.isFile && opened.isNone)

/-- What sending a response for `o` does: one response is started or, if it
throws, none. -/
def Sends (s : ConnectionSession H) (o : Origin) (writes : Bool) (x : ConnectionSession H × Exit) : Prop :=
  ∃ resp : Option Response, resp.isSome = writes ∧ x.1.view = s.view.send o resp ∧
    (x.2 = .returns ↔ writes = true) ∧ x.1.phase = s.phase

/-- `t` is `s` with `m_response` just assigned. -/
theorem writeResponse_sends {s t : ConnectionSession H} (pkt : Packet) (o : Origin)
    (hv : t.view = { s.view with overwritten := s.log.overwritten || s.inFlight != 0 })
    (hp : t.phase = s.phase) : Sends s o (pkt.statusCode ≤ 999) (writeResponse t pkt o) := by
  unfold writeResponse
  simp only [view, View.mk.injEq] at hv
  obtain ⟨h1, h2, h3, h4, h5, h6, h7, h8⟩ := hv
  by_cases h : pkt.statusCode ≤ 999
  · simp only [h, if_true]
    refine ⟨some { t.settings pkt with result := pkt.statusCode }, by simp, ?_, by simp, hp⟩
    simp only [view, View.send, h1, h2, h3, h4, h5, h6, h7, h8, Option.toList_some, List.map_cons, List.map_nil,
      List.length_singleton]
  · simp only [h, if_false]
    refine ⟨none, by simp, ?_, by simp, hp⟩
    simp [view, View.send, h1, h2, h3, h4, h5, h6, h7, h8]

theorem sendBody_sends (s : ConnectionSession H) (pkt : Packet) (o : Origin) :
    Sends s o (pkt.statusCode ≤ 999) (sendBody s pkt o) :=
  writeResponse_sends pkt o rfl rfl

theorem sendErrorResponse_sends (s : ConnectionSession H) (status : Nat) (o : Origin) :
    Sends s o (status ≤ 999) (sendErrorResponse reason s status o) :=
  sendBody_sends { s with responseErrorPacket := createErrorPacket reason status }
    (createErrorPacket reason status) o

theorem sendResponse_sends (s : ConnectionSession H) (pkt : Packet) (opened : Option Bytes) (o : Origin) :
    Sends s o (starts pkt opened) (sendResponse reason s pkt opened o) := by
  unfold sendResponse starts
  by_cases hf : pkt.isFile = true
  · simp only [hf, if_true, Bool.true_and]
    cases opened with
    | none =>
      -- The error response assigns `m_response` a second time.
      obtain ⟨resp, hr, hv, hx, hp⟩ :=
        sendErrorResponse_sends reason (s.assignResponse { body := .file none }) 400 o
      refine ⟨resp, by simpa using hr, ?_, by simpa using hx, hp⟩
      rw [hv]
      simp [View.send, view, assignResponse]
    | some content =>
      simp only [Option.isNone_some, Bool.or_false]
      exact writeResponse_sends pkt o rfl rfl
  · simp only [hf, Bool.false_eq_true, if_false, Bool.false_and, Bool.or_false]
    exact sendBody_sends s pkt o

/-! ## The ends of handlers -/

/-- `t` is `s`, but for what the ends of handlers change: the timer, the phase
and the socket. -/
structure Kept (s t : ConnectionSession H) : Prop where
  view : t.view = s.view
  log : t.log = s.log
  serverProcessors : t.serverProcessors = s.serverProcessors
  responseErrorPacket : t.responseErrorPacket = s.responseErrorPacket

theorem Kept.trans {s t u : ConnectionSession H} (h : Kept s t) (h' : Kept t u) : Kept s u :=
  ⟨h'.view.trans h.view, h'.log.trans h.log, h'.serverProcessors.trans h.serverProcessors,
    h'.responseErrorPacket.trans h.responseErrorPacket⟩

theorem kept_leave (x : ConnectionSession H × Exit) : Kept x.1 (leave x) := by
  rcases x with ⟨s, _ | _⟩ <;> exact ⟨rfl, rfl, rfl, rfl⟩

theorem kept_handleRequests (s : ConnectionSession H) (hs : Handshake) : Kept s (handleRequests s hs).1 := by
  unfold handleRequests
  split <;> exact ⟨rfl, rfl, rfl, rfl⟩

theorem kept_closeConnection (s : ConnectionSession H) (closes : Bool) : Kept s (closeConnection s closes) := by
  unfold closeConnection
  dsimp only
  split <;> exact ⟨rfl, rfl, rfl, rfl⟩

/-- A handler that ends in `handleRequests`. -/
theorem kept_proceed (s : ConnectionSession H) (hs : Handshake) : Kept s (leave (handleRequests s hs)) :=
  (kept_handleRequests s hs).trans (kept_leave _)

/-! ## The read loop -/

/-- The status the session itself answers a request with, if it calls no user
processor. -/
def dispatchError (s : ConnectionSession H) (incoming : Request) (garbage : Int) : Option Nat :=
  if targetMethodType incoming.method garbage ∈ s.processors then
    match s.serverProcessors incoming.target with
    | none => some 501
    | some methods => if (methods (targetMethodType incoming.method garbage)).isSome then none else some 404
  else some 405

/-- The call of `m_processors` a request leads to. -/
def handedFor (s : ConnectionSession H) (incoming : Request) (garbage : Int) : List (MethodType × Packet) :=
  if targetMethodType incoming.method garbage ∈ s.processors then
    [(targetMethodType incoming.method garbage, requestPacket (s.request.readInto incoming))]
  else []

/-- `s` with a request read and not yet dispatched. -/
def received (s : ConnectionSession H) (incoming : Request) : ConnectionSession H :=
  { s with
    request := s.request.readInto incoming
    log := { s.log with received := s.log.received ++ [incoming] } }

/-- `s` with a request read and, if its method is in `m_processors`, handed
over. -/
def handedOver (s : ConnectionSession H) (incoming : Request) (garbage : Int) : ConnectionSession H :=
  { received s incoming with
    log := { (received s incoming).log with handed := s.log.handed ++ handedFor s incoming garbage } }

/-- A user processor called with the request. -/
def calling (s : ConnectionSession H) (incoming : Request) (garbage : Int) (cbk : H) (k : Nat) : ConnectionSession H :=
  { handedOver s incoming garbage with
    phase := .dispatching
    pending := s.pending ++ [k]
    log := { (handedOver s incoming garbage).log with
      called := s.log.called ++ [(cbk, requestPacket (s.request.readInto incoming))] } }

/-- What a dispatch comes to: an error, or the call of a user processor. -/
inductive DispatchTaken (s : ConnectionSession H) (incoming : Request) (garbage : Int) (k : Nat) :
    ConnectionSession H × Exit → Prop
  | refused {status : Nat} (error : dispatchError s incoming garbage = some status) :
      DispatchTaken s incoming garbage k (sendErrorResponse reason (handedOver s incoming garbage) status (.error k))
  | called {methods : MethodType → Option H} {cbk : H} (error : dispatchError s incoming garbage = none)
      (target : s.serverProcessors incoming.target = some methods)
      (method : methods (targetMethodType incoming.method garbage) = some cbk) :
      DispatchTaken s incoming garbage k (calling s incoming garbage cbk k, .returns)

theorem dispatch_taken (s : ConnectionSession H) (incoming : Request) (garbage : Int) (k : Nat) :
    DispatchTaken reason s incoming garbage k (dispatch reason (received s incoming) garbage k) := by
  have hm : targetMethodType (received s incoming).request.method garbage = targetMethodType incoming.method garbage :=
    rfl
  unfold dispatch
  dsimp only
  rw [hm]
  by_cases hmem : targetMethodType incoming.method garbage ∈ s.processors
  · have hhanded : handedFor s incoming garbage =
        [(targetMethodType incoming.method garbage, requestPacket (s.request.readInto incoming))] := if_pos hmem
    have hover : { received s incoming with
        log := { (received s incoming).log with
          handed := (received s incoming).log.handed ++
            [(targetMethodType incoming.method garbage, requestPacket (received s incoming).request)] } } =
        handedOver s incoming garbage := by
      rw [handedOver, hhanded]
      rfl
    rw [if_pos (show _ ∈ (received s incoming).processors from hmem), hover]
    unfold handleMethod
    dsimp only
    have htarget : (handedOver s incoming garbage).serverProcessors (requestPacket (received s incoming).request).target =
        s.serverProcessors incoming.target := rfl
    rw [htarget]
    cases hp : s.serverProcessors incoming.target with
    | none => exact .refused (by simp [dispatchError, hmem, hp])
    | some methods =>
      dsimp only
      cases hc : methods (targetMethodType incoming.method garbage) with
      | none => exact .refused (by simp [dispatchError, hmem, hp, hc])
      | some cbk => exact .called (by simp [dispatchError, hmem, hp, hc]) hp hc
  · have hover : handedOver s incoming garbage = received s incoming := by
      simp [handedOver, handedFor, hmem, received]
    rw [if_neg (show _ ∉ (received s incoming).processors from hmem), ← hover]
    exact .refused (by simp [dispatchError, hmem])

theorem dispatchError_mem {s : ConnectionSession H} {incoming : Request} {garbage : Int} {status : Nat}
    (h : dispatchError s incoming garbage = some status) : status ∈ [404, 405, 501] := by
  unfold dispatchError at h
  split at h
  · split at h
    · cases h
      decide
    · split at h
      · cases h
      · cases h
        decide
  · cases h
    decide

/-- A request that calls no user processor is answered by `sendErrorResponse`. -/
theorem dispatch_error {s : ConnectionSession H} {incoming : Request} {garbage : Int} {status : Nat}
    (h : dispatchError s incoming garbage = some status) (k : Nat) :
    dispatch reason (received s incoming) garbage k =
      sendErrorResponse reason (handedOver s incoming garbage) status (.error k) := by
  have ht := dispatch_taken reason s incoming garbage k
  generalize dispatch reason (received s incoming) garbage k = x at ht ⊢
  cases ht with
  | refused error =>
    rw [h] at error
    cases error
    rfl
  | called error =>
    rw [h] at error
    cases error

/-- Every status of a dispatch is one that `result` takes. -/
theorem dispatchError_le {s : ConnectionSession H} {incoming : Request} {garbage : Int} {status : Nat}
    (h : dispatchError s incoming garbage = some status) : status ≤ 999 := by
  have hmem := dispatchError_mem h
  simp only [List.mem_cons, List.not_mem_nil, or_false] at hmem
  omega

theorem handedOver_view (s : ConnectionSession H) (incoming : Request) (garbage : Int) :
    (handedOver s incoming garbage).view = s.view.receive incoming (handedFor s incoming garbage) := rfl

/-- A request is dispatched to a user processor, whose reply is pending, or
answered with an error at once. -/
def Dispatched (s : ConnectionSession H) (incoming : Request) (garbage : Int) (x : ConnectionSession H × Exit) : Prop :=
  x.2 = .returns ∧
  match dispatchError s incoming garbage with
  | none => x.1.phase = .dispatching ∧
      x.1.view = { s.view.receive incoming (handedFor s incoming garbage) with
        pending := s.pending ++ [s.log.received.length] }
  | some _ => x.1.phase = s.phase ∧
      ∃ resp, x.1.view = (s.view.receive incoming (handedFor s incoming garbage)).send
        (.error s.log.received.length) (some resp)

theorem dispatch_effect (s : ConnectionSession H) (incoming : Request) (garbage : Int) :
    Dispatched s incoming garbage (dispatch reason (received s incoming) garbage s.log.received.length) := by
  have ht := dispatch_taken reason s incoming garbage s.log.received.length
  generalize dispatch reason (received s incoming) garbage s.log.received.length = x at ht ⊢
  unfold Dispatched
  cases ht with
  | refused he =>
    obtain ⟨resp, hr, hv, hx, hp⟩ :=
      sendErrorResponse_sends reason (handedOver s incoming garbage) _ (.error s.log.received.length)
    have hle := decide_eq_true (dispatchError_le he)
    obtain ⟨r, rfl⟩ := Option.isSome_iff_exists.1 (hr.trans hle)
    rw [he]
    exact ⟨hx.2 hle, hp, r, by rw [hv, handedOver_view]⟩
  | called he =>
    rw [he]
    exact ⟨rfl, rfl, rfl⟩

/-- `readHandler` is the dispatch, and what ends the handler. -/
theorem kept_readHandler (s : ConnectionSession H) (incoming : Request) (garbage : Int) (hs : Handshake) :
    Kept (dispatch reason (received s incoming) garbage s.log.received.length).1
      (readHandler reason s incoming garbage hs) := by
  unfold readHandler received
  dsimp only
  split
  · next h =>
    rw [h]
    exact kept_leave _
  · next h =>
    rw [h]
    split
    · exact ⟨rfl, rfl, rfl, rfl⟩
    · exact kept_proceed _ hs

/-- `s` with the code of a missed deadline in its error packet. -/
def patched (s : ConnectionSession H) : ConnectionSession H :=
  { s with responseErrorPacket := { s.responseErrorPacket with statusCode := 504 } }

/-- The deadline's handler is a `sendResponse` of the patched error packet,
and what ends the handler. -/
theorem kept_deadlineHandler (s : ConnectionSession H) (closes : Bool) :
    Kept (sendResponse reason s.patched s.patched.responseErrorPacket none s.patched.oldestUnanswered).1
      (deadlineHandler reason s closes) := by
  unfold deadlineHandler patched
  dsimp only
  split
  · next h =>
    rw [h]
    exact kept_closeConnection _ closes
  · next h =>
    rw [h]
    exact kept_leave _

theorem deadlineHandler_effect (s : ConnectionSession H) (closes : Bool) :
    ∃ resp, (deadlineHandler reason s closes).view = s.view.send s.oldestUnanswered (some resp) := by
  obtain ⟨resp, hr, hv, -, -⟩ :=
    sendResponse_sends reason s.patched s.patched.responseErrorPacket none s.patched.oldestUnanswered
  have hst : starts s.patched.responseErrorPacket none = true := rfl
  obtain ⟨r, rfl⟩ := Option.isSome_iff_exists.1 (hr.trans hst)
  exact ⟨r, (kept_deadlineHandler reason s closes).view.trans hv⟩

/-! ## Steps -/

/-- What a step comes to, with what its guard found. -/
inductive Taken (s : ConnectionSession H) : Action H → ConnectionSession H → Prop
  | setHandler {target method cbk} :
      Taken s (.setHandler target method cbk)
        { s with serverProcessors := s.serverProcessors.setHandler target method cbk }
  | readCompletes {incoming garbage hs} (running : s.running = true) (reading : s.phase = .reading) :
      Taken s (.readCompletes incoming garbage hs) (readHandler reason s incoming garbage hs)
  | readFails {quiet closes} (running : s.running = true) (reading : s.phase = .reading) :
      Taken s (.readFails quiet closes)
        (if quiet then { s with phase := .ended } else closeConnection { s with phase := .ended } closes)
  | reply {k pkt opened} (pending : k ∈ s.pending) :
      Taken s (.reply k pkt opened) (sendResponse reason { s with pending := s.pending.erase k } pkt opened (.reply k)).1
  | processorReturns {hs} (running : s.running = true) (dispatching : s.phase = .dispatching) :
      Taken s (.processorReturns hs) (leave (handleRequests s hs))
  | processorThrows (running : s.running = true) (dispatching : s.phase = .dispatching) :
      Taken s .processorThrows (leave (s, .throws))
  | tick {d} : Taken s (.tick d) { s with now := s.now + d }
  | deadlineElapses {t} (elapsed : s.deadlineTimer.elapse s.now = some t) :
      Taken s .deadlineElapses { s with deadlineTimer := t }
  | deadlineExpires {closes t} (running : s.running = true) (free : s.phase ≠ .dispatching)
      (expired : s.deadlineTimer.runHandler = some t) :
      Taken s (.deadlineExpires closes) (deadlineHandler reason { s with deadlineTimer := t } closes)
  | writeCompletes (outstanding : 0 < s.inFlight) : Taken s .writeCompletes { s with inFlight := s.inFlight - 1 }

theorem step_taken {s s' : ConnectionSession H} {a : Action H} (h : step reason s a = some s') : Taken reason s a s' := by
  cases a with
  | setHandler => cases h; exact .setHandler
  | readCompletes incoming garbage hs =>
    simp only [step, idle, Option.ite_none_right_eq_some, Option.some.injEq, Bool.and_eq_true, decide_eq_true_eq] at h
    obtain ⟨⟨⟨hrun, -⟩, hp⟩, rfl⟩ := h
    exact .readCompletes hrun hp
  | readFails quiet closes =>
    simp only [step, idle, Option.ite_none_right_eq_some, Option.some.injEq, Bool.and_eq_true, decide_eq_true_eq] at h
    obtain ⟨⟨⟨hrun, -⟩, hp⟩, rfl⟩ := h
    exact .readFails hrun hp
  | reply k pkt opened =>
    simp only [step, Option.ite_none_right_eq_some, Option.some.injEq] at h
    obtain ⟨hk, rfl⟩ := h
    exact .reply hk
  | processorReturns hs =>
    simp only [step, Option.ite_none_right_eq_some, Option.some.injEq, Bool.and_eq_true, decide_eq_true_eq] at h
    obtain ⟨⟨hrun, hp⟩, rfl⟩ := h
    exact .processorReturns hrun hp
  | processorThrows =>
    simp only [step, Option.ite_none_right_eq_some, Option.some.injEq, Bool.and_eq_true, decide_eq_true_eq] at h
    obtain ⟨⟨hrun, hp⟩, rfl⟩ := h
    exact .processorThrows hrun hp
  | tick d => cases h; exact .tick
  | deadlineElapses =>
    obtain ⟨t, ht, rfl⟩ := Option.map_eq_some_iff.1 h
    exact .deadlineElapses ht
  | deadlineExpires closes =>
    simp only [step, idle, Option.ite_none_right_eq_some, Option.map_eq_some_iff, Bool.and_eq_true,
      decide_eq_true_eq] at h
    obtain ⟨⟨hrun, hp⟩, t, ht, rfl⟩ := h
    exact .deadlineExpires hrun hp ht
  | writeCompletes =>
    simp only [step, Option.ite_none_right_eq_some, Option.some.injEq, Bool.and_eq_true, decide_eq_true_eq] at h
    obtain ⟨⟨-, hw⟩, rfl⟩ := h
    exact .writeCompletes hw

/-- The actions that neither read a request nor send or end a response. -/
def Action.quiet : Action H → Bool
  | .readCompletes .. | .reply .. | .deadlineExpires _ | .writeCompletes => false
  | _ => true

/-- What an action does, in six cases. -/
inductive Effect (s : ConnectionSession H) : Action H → View → Prop
  | quiet {a} : Action.quiet a → Effect s a s.view
  | called {incoming garbage hs} : dispatchError s incoming garbage = none →
      Effect s (.readCompletes incoming garbage hs)
        { s.view.receive incoming (handedFor s incoming garbage) with
          pending := s.pending ++ [s.log.received.length] }
  | refused {incoming garbage hs e resp} : dispatchError s incoming garbage = some e →
      Effect s (.readCompletes incoming garbage hs)
        ((s.view.receive incoming (handedFor s incoming garbage)).send (.error s.log.received.length) (some resp))
  | replied {k pkt opened resp} : k ∈ s.pending → resp.isSome = starts pkt opened →
      Effect s (.reply k pkt opened) ({ s.view with pending := s.pending.erase k }.send (.reply k) resp)
  | expired {closes resp} : Effect s (.deadlineExpires closes) (s.view.send s.oldestUnanswered (some resp))
  | written : 0 < s.inFlight → Effect s .writeCompletes { s.view with inFlight := s.inFlight - 1 }

theorem step_effect {s s' : ConnectionSession H} {a : Action H} (h : step reason s a = some s') :
    Effect s a s'.view := by
  cases step_taken reason h with
  | setHandler | processorThrows | tick | deadlineElapses => exact .quiet rfl
  | @readCompletes incoming garbage hs =>
    obtain ⟨-, hd⟩ := dispatch_effect reason s incoming garbage
    rw [(kept_readHandler reason s incoming garbage hs).view]
    split at hd
    · next he => rw [hd.2]; exact .called he
    · next e he => obtain ⟨-, resp, hv⟩ := hd; rw [hv]; exact .refused he
  | readFails =>
    split
    · exact .quiet rfl
    · rw [(kept_closeConnection _ _).view]
      exact .quiet rfl
  | @reply k pkt opened hk =>
    obtain ⟨resp, hr, hv, -⟩ :=
      sendResponse_sends reason { s with pending := s.pending.erase k } pkt opened (.reply k)
    rw [hv]
    exact .replied hk hr
  | processorReturns =>
    rw [(kept_proceed _ _).view]
    exact .quiet rfl
  | @deadlineExpires closes t =>
    obtain ⟨resp, hv⟩ := deadlineHandler_effect reason { s with deadlineTimer := t } closes
    rw [hv]
    exact .expired
  | writeCompletes hw => exact .written hw

end ComponentsNetwork.HTTP.ConnectionSession
