import ComponentsNetwork.Legacy.HttpServerEffects
/-!
# What a legacy HTTP server does in its runs

- `one_exchange`: a session takes one request at most and writes one response
  at most, the one that the processor of the request's method has left.
- `serving_iff`: the server goes on as long as no accept finds a processor
  missing, no request comes from a peer that has gone and no processor throws.
- `stop_never_stops`: `stop` always throws before it gets to `ioc`. It closes
  the acceptor, and leaves the server running.
-/

namespace ComponentsNetwork.HTTPOld

open Buffers HTTP Runs

variable {H : Type} {sha256 : String → Bytes}

namespace Server

/-! ## What a session does -/

/-- What session `i` reads. -/
def Action.reading (i : Nat) : Action H → Option Reading
  | .reads j version request peer left => if j = i then some ⟨version, request, peer, left⟩ else none
  | _ => none

/-- What session `i` has read in the run. -/
def readings (i : Nat) (as : List (Action H)) : List Reading := as.filterMap (Action.reading i)

/-- Session `i` is made by the handler of an accept, of the processors that the
server has then. -/
def MadeOf (sha256 : String → Bytes) (as : List (Action H)) (i : Nat) (processors : Processors H) : Prop :=
  ∃ pre post u, as = pre ++ .accept true :: post ∧ run (step sha256) ({} : Server H) pre = some u ∧
    i = u.sessions.length ∧ processors = u.processors

theorem MadeOf.concat {as : List (Action H)} {i : Nat} {processors : Processors H} (h : MadeOf sha256 as i processors)
    (a : Action H) : MadeOf sha256 (as ++ [a]) i processors := by
  obtain ⟨pre, post, u, rfl, hrun, hi, hprocessors⟩ := h
  exact ⟨pre, post ++ [a], u, by simp, hrun, hi, hprocessors⟩

/-- How the sessions stand to what they have read. -/
structure Accounted (sha256 : String → Bytes) (s : Server H) (as : List (Action H)) : Prop where
  reached : run (step sha256) ({} : Server H) as = some s
  made : ∀ (i : Nat) (session : ClientSession H), s.sessions[i]? = some session → MadeOf sha256 as i session.processors
  exchanged : ∀ (i : Nat) (session : ClientSession H), s.sessions[i]? = some session →
    Exchanged sha256 session.processors (readings i as) session.log
  later : ∀ i, s.sessions[i]? = none → readings i as = []

theorem readings_concat (i : Nat) (as : List (Action H)) (a : Action H) :
    readings i (as ++ [a]) = readings i as ++ (a.reading i).toList := by
  cases h : a.reading i <;> simp [readings, List.filterMap_append, h]

theorem readings_concat_quiet {i : Nat} {a : Action H} (hq : a.reading i = none) (as : List (Action H)) :
    readings i (as ++ [a]) = readings i as := by
  rw [readings_concat, hq]
  exact List.append_nil _

section

variable {s s' : Server H} {as : List (Action H)} {a : Action H} (ha : Accounted sha256 s as)
  (hrun : run (step sha256) ({} : Server H) (as ++ [a]) = some s')
include ha hrun

theorem Accounted.same (hq : ∀ i, a.reading i = none) (hsessions : s'.sessions = s.sessions) :
    Accounted sha256 s' (as ++ [a]) := by
  refine ⟨hrun, fun i session hi => ?_, fun i session hi => ?_, fun i hi => ?_⟩
  · exact (ha.made i session (hsessions ▸ hi)).concat a
  · rw [readings_concat_quiet (hq i)]
    exact ha.exchanged i session (hsessions ▸ hi)
  · rw [readings_concat_quiet (hq i)]
    exact ha.later i (hsessions ▸ hi)

/-- A session is added that has done nothing. -/
theorem Accounted.added (he : a = .accept true) {new : ClientSession H} (hprocessors : new.processors = s.processors)
    (hlog : new.log = {}) (hsessions : s'.sessions = s.sessions ++ [new]) : Accounted sha256 s' (as ++ [a]) := by
  subst he
  have hq : ∀ i, (Action.accept true : Action H).reading i = none := fun _ => rfl
  refine ⟨hrun, fun i session hi => ?_, fun i session hi => ?_, fun i hi => ?_⟩
  · rw [hsessions] at hi
    obtain hold | ⟨rfl, rfl⟩ := getElem?_concat hi
    · exact (ha.made i session hold).concat _
    · exact ⟨as, [], s, rfl, ha.reached, rfl, hprocessors⟩
  · rw [readings_concat_quiet (hq i)]
    rw [hsessions] at hi
    obtain hold | ⟨rfl, rfl⟩ := getElem?_concat hi
    · exact ha.exchanged i session hold
    · rw [ha.later _ (List.getElem?_eq_none (Nat.le_refl _)), hlog]
      exact .nothing
  · rw [readings_concat_quiet (hq i)]
    rw [hsessions, List.getElem?_eq_none_iff, List.length_append] at hi
    exact ha.later i (List.getElem?_eq_none (by omega))

/-- One session changes, and no other one reads. -/
theorem Accounted.changed {j : Nat} {session : ClientSession H} (new : ClientSession H) (hj : s.sessions[j]? = some session)
    (hq : ∀ i, i ≠ j → a.reading i = none) (hprocessors : new.processors = session.processors)
    (hlog : Exchanged sha256 session.processors (readings j (as ++ [a])) new.log)
    (hsessions : s'.sessions = s.sessions.set j new) : Accounted sha256 s' (as ++ [a]) := by
  have hlt := (List.getElem?_eq_some_iff.1 hj).1
  have hcases : ∀ (i : Nat) (t : ClientSession H), s'.sessions[i]? = some t →
      i = j ∧ t = new ∨ i ≠ j ∧ s.sessions[i]? = some t := by
    intro i t hi
    rw [hsessions] at hi
    by_cases hij : i = j
    · subst hij
      rw [List.getElem?_set_self hlt] at hi
      exact .inl ⟨rfl, (Option.some.inj hi).symm⟩
    · rw [List.getElem?_set_ne (Ne.symm hij)] at hi
      exact .inr ⟨hij, hi⟩
  refine ⟨hrun, fun i t hi => ?_, fun i t hi => ?_, fun i hi => ?_⟩
  · obtain ⟨rfl, rfl⟩ | ⟨-, hold⟩ := hcases i t hi
    · rw [hprocessors]
      exact (ha.made i session hj).concat a
    · exact (ha.made i t hold).concat a
  · obtain ⟨rfl, rfl⟩ | ⟨hij, hold⟩ := hcases i t hi
    · rw [hprocessors]
      exact hlog
    · rw [readings_concat_quiet (hq i hij)]
      exact ha.exchanged i t hold
  · rw [hsessions, List.getElem?_eq_none_iff, List.length_set] at hi
    rw [readings_concat_quiet (hq i (by omega))]
    exact ha.later i (List.getElem?_eq_none hi)

end

theorem accounted_step (s : Server H) (as : List (Action H)) (a : Action H) (s' : Server H)
    (ha : Accounted sha256 s as) (h : s.step sha256 a = some s') : Accounted sha256 s' (as ++ [a]) := by
  have hs := sound_run ha.reached
  have hrun : run (step sha256) ({} : Server H) (as ++ [a]) = some s' := run_concat.2 ⟨s, ha.reached, h⟩
  obtain ⟨-, he⟩ := step_effect hs h
  cases he with
  | still hstill hq =>
    refine ha.same hrun (fun i => ?_) hstill.sessions
    cases a with
    | reads j v r p l => exact absurd rfl (hq.2 j v r p l)
    | _ => rfl
  | started hsessions _ _ _ | connects _ _ hsessions _ _ _ => exact ha.same hrun (fun _ => rfl) hsessions
  | accepted _ _ hsessions _ _ _ => exact ha.added hrun rfl rfl rfl hsessions
  | refused _ _ _ hprocessors hlog hsessions _ _ _ => exact ha.added hrun rfl hprocessors hlog hsessions
  | @processed j version request peer left session s' hj hreading hsessions _ _ _ _ =>
    have hfresh := hs.fresh session (List.mem_of_getElem? hj) hreading
    have hprocessed : ClientSession.Processed sha256 session _ _ :=
      ClientSession.processRequest_processed hfresh version request peer left
    refine ha.changed hrun _ hj (fun i hij => ?_) hprocessed.processors ?_ hsessions
    · simp [Action.reading, Ne.symm hij]
    · -- It has read nothing before.
      have hfirst : readings j as = [] := (hfresh.log ▸ ha.exchanged j session hj).of_nothing
      rw [readings_concat, hfirst]
      simpa [Action.reading] using hprocessed.exchanged
  | @closed a j session s' hj hsessions _ _ _ hq =>
    have hnothing : ∀ i, a.reading i = none := by
      intro i
      rcases hq with rfl | rfl <;> rfl
    refine ha.changed hrun session.destroyed hj (fun i _ => hnothing i) rfl ?_ hsessions
    rw [readings_concat_quiet (hnothing j)]
    exact ha.exchanged j session hj

/-- In every run of a server, from its construction: each session has the
processors that the server had when its accept ran, and has done what it was
asked. It has read one request at most, has called for it the processor of its
method, with the target and the body of the request and the hash of the peer's
address, and has written the one response that the processor left; or 400 to a
method without a processor. -/
theorem one_exchange {s : Server H} {as : List (Action H)} (h : run (step sha256) ({} : Server H) as = some s) {i : Nat}
    {session : ClientSession H} (hi : s.sessions[i]? = some session) :
    MadeOf sha256 as i session.processors ∧ Exchanged sha256 session.processors (readings i as) session.log := by
  have h0 : Accounted sha256 ({} : Server H) [] :=
    ⟨rfl, fun i session hi => (by cases hi), fun i session hi => (by cases hi), fun i _ => rfl⟩
  have ha := run_history h0 accounted_step h
  exact ⟨ha.made i session hi, ha.exchanged i session hi⟩

/-! ## How long a server serves -/

/-- Handlers run, and an accept is outstanding. -/
structure Serving (s : Server H) : Prop where
  running : s.running = true
  accepts : 0 < s.accepts

/-- No exception leaves the step's handler. -/
def Harmless (s : Server H) : Action H → Prop
  | .accept connected => connected = true → s.processors.complete = true
  | .reads _ _ request peer left => ¬ ClientSession.Throws request peer left
  | _ => True

theorem serving_step {s s' : Server H} {a : Action H} (hs : Sound s) (hserving : Serving s)
    (h : s.step sha256 a = some s') : Serving s' ↔ Harmless s a := by
  obtain ⟨hrunning, haccepts⟩ := hserving
  obtain ⟨-, he⟩ := step_effect hs h
  cases he with
  | still hstill hquiet =>
    refine iff_of_true ⟨hstill.running.trans hrunning, hstill.accepts ▸ haccepts⟩ ?_
    cases a with
    | accept connected =>
      rintro rfl
      exact absurd rfl hquiet.1
    | reads i v r p l => exact absurd rfl (hquiet.2 i v r p l)
    | _ => trivial
  | started => simp [step, hrunning] at h
  | connects _ _ _ hrun haccepts' _ => exact iff_of_true ⟨hrun.trans hrunning, haccepts' ▸ haccepts⟩ trivial
  | accepted _ hcomplete _ hrun haccepts' _ =>
    exact iff_of_true ⟨hrun.trans hrunning, haccepts' ▸ haccepts⟩ fun _ => hcomplete
  | refused _ hmissing _ _ _ _ hended _ _ =>
    refine iff_of_false (fun hserving => ?_) fun hharmless => ?_
    · exact absurd (hserving.running.symm.trans hended) (by decide)
    · exact absurd ((hharmless rfl).symm.trans hmissing) (by decide)
  | @processed i version request peer left session s' hi hreading _ hthrew hreturned haccepts' _ =>
    have hprocessed : ClientSession.Processed sha256 session _ _ := ClientSession.processRequest_processed
      (hs.fresh session (List.mem_of_getElem? hi) hreading) version request peer left
    show Serving s' ↔ ¬ ClientSession.Throws request peer left
    rw [← hprocessed.throws]
    cases hexit : (session.processRequest sha256 version request peer left).2 with
    | throws =>
      refine iff_of_false (fun hserving => ?_) (by simp)
      exact absurd (hserving.running.symm.trans (hthrew hexit)) (by decide)
    | returns => exact iff_of_true ⟨(hreturned hexit).trans hrunning, haccepts' ▸ haccepts⟩ (by simp)
  | closed _ _ hrun haccepts' _ hquiet =>
    refine iff_of_true ⟨hrun.trans hrunning, haccepts' ▸ haccepts⟩ ?_
    rcases hquiet with rfl | rfl <;> trivial

/-- A server that serves goes on serving, whatever it is told, `stop` included,
if and only if every connection it accepts finds all four processors set,
every request that is read comes from a peer that is still there, and no
processor throws. -/
theorem serving_iff {s : Server H} {pre as : List (Action H)} (h : run (step sha256) ({} : Server H) pre = some s)
    (hserving : Serving s) : Always (step sha256) Serving s as ↔ Meets (step sha256) Harmless s as :=
  always_iff (J := Sound) (fun s a s' hs _ hstep => sound_step s a s' hs hstep)
    (fun _ _ _ hs hserving hstep => serving_step hs hserving hstep) (sound_run h) hserving as

/-! ## What `stop` does -/

/-- The server is not started again. -/
def NoStart (a : Action H) : Prop := ∀ port o, a ≠ .start port o

/-- The acceptor of a stopped server stays closed. -/
theorem closed_acceptor {s s' : Server H} {a : Action H} (hs : Sound s) (hclosed : s.acceptorOpen = false)
    (ha : NoStart a) (h : s.step sha256 a = some s') : s'.acceptorOpen = false := by
  cases a with
  | setProcessorGet proc | setProcessorPost proc | setProcessorPut proc | setProcessorDelete proc =>
    cases h
    exact hclosed
  | stop =>
    cases h
    rw [stop_eq hs.socketOpen]
  | start port o => exact absurd rfl (ha port o)
  | connects => simp [step, hclosed] at h
  | accept connected =>
    cases connected with
    | true =>
      obtain ⟨-, he⟩ := Option.ite_none_right_eq_some.1 h
      cases he
      refine (leave_left _ _).acceptorOpen.trans ?_
      cases hcomplete : s.processors.complete with
      | true =>
        rw [acceptHandler_complete (s := s.connection) hcomplete]
        exact hclosed
      | false =>
        rw [acceptHandler_missing (s := s.connection) hcomplete]
        exact hclosed
    | false =>
      obtain ⟨-, he⟩ := Option.ite_none_right_eq_some.1 h
      cases he
      exact (leave_left _ _).acceptorOpen.trans hclosed
  | reads i version request peer left | readFails i | written i =>
    obtain ⟨session, -, rfl⟩ := Option.map_eq_some_iff.1 h
    exact (leave_left _ _).acceptorOpen.trans hclosed

/-- No connection joins those accepted. -/
theorem closed_step {s s' : Server H} {a : Action H} (hs : Sound s) (hclosed : s.acceptorOpen = false)
    (ha : NoStart a) (h : s.step sha256 a = some s') :
    s'.sessions.length + s'.accepted = s.sessions.length + s.accepted := by
  obtain ⟨-, he⟩ := step_effect hs h
  cases he with
  | still hstill _ => rw [hstill.sessions, hstill.accepted]
  | started => exact absurd rfl (ha _ _)
  | connects hopen => exact absurd (hopen.symm.trans hclosed) (by decide)
  | accepted hconnected _ hsessions _ _ haccepted | refused hconnected _ _ _ _ hsessions _ _ haccepted =>
    rw [hsessions, haccepted, List.length_append, List.length_singleton]
    omega
  | processed _ _ hsessions _ _ _ haccepted | closed _ hsessions _ _ haccepted _ =>
    rw [hsessions, haccepted, List.length_set]

/-- Whenever `stop` is called, it throws, and all it has done is to close the
acceptor: `ioc` is not stopped and `run()` goes on. Until the server is started
again no connection gets a session, but for those that an accept had got
already. -/
theorem stop_never_stops {s : Server H} {pre : List (Action H)} (h : run (step sha256) ({} : Server H) pre = some s) :
    s.stop = ({ s with acceptorOpen := false }, .throws) ∧
      ∀ as t, (∀ a ∈ as, NoStart a) → run (step sha256) s.stop.1 as = some t →
        t.sessions.length + t.accepted = s.sessions.length + s.accepted := by
  have hsound := sound_run h
  have hstop := stop_eq hsound.socketOpen
  refine ⟨hstop, fun as t hnostart hrun => ?_⟩
  rw [hstop] at hrun
  have hmeets : Meets (step sha256) (fun _ a => NoStart a) { s with acceptorOpen := false } as :=
    eachStep_of_forall hnostart _
  have h0 : Sound { s with acceptorOpen := false } := ⟨hsound.socketOpen, hsound.accepted, hsound.accepts, hsound.fresh⟩
  obtain ⟨-, -, hkept⟩ := run_inv_of_meets
    (J := fun t : Server H => Sound t ∧ t.acceptorOpen = false ∧
      t.sessions.length + t.accepted = s.sessions.length + s.accepted)
    (fun u a u' hu ha hstep => ⟨sound_step u a u' hu.1 hstep, closed_acceptor hu.1 hu.2.1 ha hstep,
      (closed_step hu.1 hu.2.1 ha hstep).trans hu.2.2⟩) ⟨h0, rfl, rfl⟩ hmeets hrun
  exact hkept

/-- Two connections: a request to the one is answered, the other is left. -/
def twoConnections : List (Action Unit) :=
  [.setProcessorGet (some ()), .setProcessorPost (some ()), .setProcessorPut (some ()), .setProcessorDelete (some ()),
    .start 80 .listens, .connects, .accept true, .connects, .accept true,
    .reads 1 11 { method := .get, target := "/", body := octets "a" } (some "::1")
      (some { responseResult := .Ok, body := octets "b" }), .written 1, .connects]

def noHash (_ : String) : Bytes := []

theorem twoConnections_runs :
    ∃ s session, run (step noHash) ({} : Server Unit) twoConnections = some s ∧ s.sessions[1]? = some session ∧
      session.log.written.map (·.body.octets) = [octets "b"] ∧ s.accepted = 1 ∧ Serving s := by
  refine ⟨_, _, rfl, rfl, rfl, rfl, ?_⟩
  constructor <;> decide

theorem one_exchange_second :
    ∃ s session, run (step noHash) ({} : Server Unit) twoConnections = some s ∧ s.sessions[1]? = some session ∧
      session.log.written.map (·.body.octets) = [octets "b"] ∧ MadeOf noHash twoConnections 1 session.processors ∧
      Exchanged noHash session.processors (readings 1 twoConnections) session.log := by
  obtain ⟨s, session, hs, hi, hone, -⟩ := twoConnections_runs
  exact ⟨s, session, hs, hi, hone, one_exchange hs hi⟩

theorem serving_iff_stop :
    ∃ s, run (step noHash) ({} : Server Unit) twoConnections = some s ∧
      (Always (step noHash) Serving s [.stop, .accept true, .accept false] ↔
        Meets (step noHash) Harmless s [.stop, .accept true, .accept false]) := by
  obtain ⟨s, session, hs, -, -, -, hserving⟩ := twoConnections_runs
  exact ⟨s, hs, serving_iff hs hserving⟩

/-- The connection that the accept had got is still accepted. -/
theorem stop_never_stops_twice :
    ∃ s, run (step noHash) ({} : Server Unit) twoConnections = some s ∧ s.stop.2 = .throws ∧ s.accepted = 1 ∧
      ∀ t, run (step noHash) s.stop.1 [.accept true, .accept false, .stop] = some t →
        t.sessions.length + t.accepted = s.sessions.length + s.accepted := by
  obtain ⟨s, session, hs, -, -, haccepted, -⟩ := twoConnections_runs
  obtain ⟨hstop, hlater⟩ := stop_never_stops hs
  refine ⟨s, hs, by rw [hstop], haccepted, fun t ht => hlater _ t ?_ ht⟩
  simp [NoStart]

end Server

end ComponentsNetwork.HTTPOld
