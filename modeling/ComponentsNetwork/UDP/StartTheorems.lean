import ComponentsNetwork.UDP.ServerTheorems
/-!
# Failed starts of the UDP server

`start` undoes nothing when it fails. What it leaves of a stopped server is
the server as it was, or one that refuses every start after it (`Spoilt`).

- `failed_start_iff`: a failed start changes nothing if and only if it fails
  to open the socket.
-/

namespace ComponentsNetwork.UDP.Server

open Buffers Runs Asio

structure Stopped (s : Server) : Prop where
  isRunning : s.isRunning = false
  socket : s.socket = .closed
  receives : s.receives = 0
  executing : s.executing = false
  ioThread : s.ioThread = .absent

/-- A server that refuses to start: it says that it is working, or its socket
was left open. -/
def Spoilt (s : Server) : Prop := s.isRunning = true ∨ s.socket ≠ .closed

theorem not_spoilt {s : Server} (hs : Stopped s) : ¬ Spoilt s := by
  rintro (hrunning | hsocket)
  · cases hs.isRunning.symm.trans hrunning
  · exact hsocket hs.socket

/-! ## One start -/

theorem start_spoilt {s : Server} (h : Spoilt s) (port : UInt16) (o : StartOutcome) :
    s.start port o = some (false, s) := by
  unfold start
  by_cases hrunning : s.isRunning = true
  · rw [if_pos hrunning]
  · rw [if_neg hrunning, if_pos (.inl (h.resolve_left hrunning))]

/-- The start of a stopped server: it fails to open the socket, and changes
nothing; it succeeds; or it fails later and leaves the server spoilt. -/
theorem start_stopped {s : Server} (hs : Stopped s) (port : UInt16) (o : StartOutcome) :
    o.opens = false ∧ s.start port o = some (false, s) ∨
      (o.opens = true ∧ o.binds = true ∧ o.arms = true ∧ o.creates = true) ∧
        (∃ t, s.start port o = some (true, t) ∧ t.isRunning = true) ∨
      (o.opens = true ∧ ¬ (o.binds = true ∧ o.arms = true ∧ o.creates = true)) ∧
        ∃ t, s.start port o = some (false, t) ∧ Spoilt t := by
  unfold start
  simp only [hs.isRunning, hs.socket, startReceive, startThread]
  rcases hopens : o.opens
  · exact .inl ⟨rfl, by simp⟩
  · right
    rcases hbinds : o.binds
    · exact .inr ⟨by simp, { s with socket := .opened }, by simp [hs.isRunning], .inr (by simp)⟩
    · rcases harms : o.arms
      · exact .inr ⟨by simp, _, by simp; rfl, .inl rfl⟩
      · rcases hcreates : o.creates
        · exact .inr ⟨by simp, _, by simp; rfl, .inl rfl⟩
        · exact .inl ⟨by simp, _, by simp [hs.ioThread]; rfl, rfl⟩

/-! ## Failed starts in a run -/

/-- A start of a stopped server that returns false leaves it as it was:
stopped, its socket closed and no receive outstanding. -/
def FailureUndone (s : Server) : Action → Server → Prop
  | .start port o, s' => s.isRunning = false → s.start port o = some (false, s') →
      s' = s ∧ s'.isWorking = false ∧ s'.socket = .closed ∧ s'.receives = 0
  | _, _ => True

/-- A start of a stopped server that opens the socket does not fail after it. -/
def FailsOnlyToOpen (s : Server) : Action → Prop
  | .start _ o => s.isRunning = false → o.opens = true → o.binds = true ∧ o.arms = true ∧ o.creates = true
  | _ => True

/-- A server that does not say it is working is stopped. -/
def Clean (s : Server) : Prop := s.isRunning = false → Stopped s

theorem step_failureUndone {s s' : Server} {a : Action} (hs : Clean s) (h : step s a = some s') :
    FailureUndone s a s' ↔ FailsOnlyToOpen s a := by
  cases a with
  | start port o =>
    refine imp_congr_right fun hidle => ?_
    have hstopped := hs hidle
    obtain ⟨⟨result, t⟩, hstart, rfl⟩ := Option.map_eq_some_iff.1 h
    rcases start_stopped hstopped port o with ⟨hopens, he⟩ | ⟨⟨-, hrest⟩, t', he, -⟩ | ⟨⟨hopens, hrest⟩, t', he, hspoilt⟩
    · cases hstart.symm.trans he
      exact iff_of_true (fun _ => ⟨rfl, hidle, hstopped.socket, hstopped.receives⟩) (by simp [hopens])
    · cases hstart.symm.trans he
      exact iff_of_true (fun hfalse => by cases hfalse.symm.trans he) fun _ => hrest
    · cases hstart.symm.trans he
      refine iff_of_false (fun hundone => ?_) fun hall => hrest (hall hopens)
      obtain ⟨hsame, -⟩ := hundone he
      exact not_spoilt hstopped (hsame ▸ hspoilt)
  | _ => exact Iff.rfl

theorem step_clean {s s' : Server} {a : Action} (hs : Clean s) (ha : FailsOnlyToOpen s a)
    (h : step s a = some s') : Clean s' := by
  have hidle : Idle s := fun hrunning => ⟨(hs hrunning).receives, (hs hrunning).executing, (hs hrunning).ioThread⟩
  have hidle' := step_idle hidle h
  have hclosed : s'.isRunning = false → s'.socket = .closed := by
    cases a with
    | setRequestProcessor isSet => cases h; exact fun hrunning => (hs hrunning).socket
    | start port o =>
      obtain ⟨⟨result, t⟩, hstart, rfl⟩ := Option.map_eq_some_iff.1 h
      intro hrunning
      by_cases hworking : s.isRunning = true
      · cases hstart.symm.trans (start_spoilt (.inl hworking) port o)
        exact (hs hrunning).socket
      · have hstopped := hs (by simpa using hworking)
        rcases start_stopped hstopped port o with ⟨-, he⟩ | ⟨-, t', he, ht⟩ | ⟨⟨hopens, hrest⟩, -⟩
        · cases hstart.symm.trans he
          exact hstopped.socket
        · cases hstart.symm.trans he
          cases ht.symm.trans hrunning
        · exact absurd (ha hstopped.isRunning hopens) hrest
    | stop => cases h; exact fun _ => rfl
    | receive error received =>
      simp only [step, Option.ite_none_right_eq_some, Option.some.injEq] at h
      obtain ⟨⟨hreceives, -⟩, rfl⟩ := h
      have hrunning := running_of_receives hidle hreceives
      intro hstop
      cases (receiveHandler_running (s := { s with receives := s.receives - 1 }) hrunning error received).1.symm.trans
        hstop
    | processorReturns =>
      simp only [step, Option.ite_none_right_eq_some, Option.some.injEq] at h
      obtain ⟨hexecuting, rfl⟩ := h
      have hrunning := running_of_executing hidle hexecuting
      rw [finishHandler_running (s := { s with executing := false }) hrunning]
      intro hstop
      cases hrunning.symm.trans hstop
    | processorThrows =>
      simp only [step, Option.ite_none_right_eq_some, Option.some.injEq] at h
      obtain ⟨hexecuting, rfl⟩ := h
      intro hstop
      cases (running_of_executing hidle hexecuting).symm.trans hstop
  intro hrunning
  obtain ⟨hreceives, hexecuting, hthread⟩ := hidle' hrunning
  exact ⟨hrunning, hclosed hrunning, hreceives, hexecuting, hthread⟩

/-! ## Failed starts in a row -/

/-- The server after starts that each return false. -/
def failedStarts (s : Server) : List (UInt16 × StartOutcome) → Option Server
  | [] => some s
  | f :: fs =>
    match s.start f.1 f.2 with
    | some (false, s') => failedStarts s' fs
    | _ => none

theorem failedStarts_spoilt {s t : Server} (hs : Spoilt s) {fs : List (UInt16 × StartOutcome)}
    (h : failedStarts s fs = some t) : t = s := by
  induction fs with
  | nil => cases h; rfl
  | cons f fs ih =>
    rw [failedStarts, start_spoilt hs] at h
    exact ih h

/-- Starts that all fail to open the socket leave a stopped server as it was;
others leave it spoilt. -/
theorem failedStarts_stopped {s t : Server} (hs : Stopped s) {fs : List (UInt16 × StartOutcome)}
    (h : failedStarts s fs = some t) :
    (∀ f ∈ fs, f.2.opens = false) ∧ t = s ∨ (¬ ∀ f ∈ fs, f.2.opens = false) ∧ Spoilt t := by
  induction fs with
  | nil => cases h; exact .inl ⟨by simp, rfl⟩
  | cons f fs ih =>
    rw [failedStarts] at h
    rcases start_stopped hs f.1 f.2 with ⟨hopens, he⟩ | ⟨-, t', he, -⟩ | ⟨⟨hopens, -⟩, t', he, hspoilt⟩
    · rw [he] at h
      simpa [hopens] using ih h
    · rw [he] at h
      cases h
    · rw [he] at h
      cases failedStarts_spoilt hspoilt h
      exact .inr ⟨fun hall => by simp [hopens] at hall, hspoilt⟩

/-- In every run, each failed start of a stopped server changes nothing if and
only if none of them gets beyond opening the socket. And from a stopped server
reached so, after any number of failed starts the next one, on a port that can
be bound, goes as it would have without them if and only if each of them
failed to open the socket. -/
theorem failed_start_iff (datagramBuffer : Bytes) (acts : List Action) :
    (EachStep step FailureUndone { datagramBuffer } acts ↔ Meets step FailsOnlyToOpen { datagramBuffer } acts) ∧
      ∀ s, Meets step FailsOnlyToOpen { datagramBuffer } acts → run step { datagramBuffer } acts = some s →
        s.isRunning = false → ∀ fs t, failedStarts s fs = some t → ∀ port,
          (t.start port {} = s.start port {} ↔ ∀ f ∈ fs, f.2.opens = false) := by
  have hstart : Clean { datagramBuffer } := fun _ => ⟨rfl, rfl, rfl, rfl, rfl⟩
  constructor
  · apply eachStep_iff (J := Clean)
    · exact fun s a s' hs h => step_failureUndone hs h
    · exact fun s a s' hs ha h => step_clean hs ha h
    · exact hstart
  · intro s hmeets hrun hidle fs t hfailed port
    have hs : Stopped s := run_inv_of_meets (J := Clean) (fun s a s' hs ha h => step_clean hs ha h) hstart hmeets hrun hidle
    obtain ⟨t', ht', -⟩ : ∃ t', s.start port {} = some (true, t') ∧ t'.isRunning = true := by
      rcases start_stopped hs port {} with ⟨hopens, -⟩ | ⟨-, hsucceeds⟩ | ⟨⟨-, hrest⟩, -⟩
      · cases hopens
      · exact hsucceeds
      · exact absurd ⟨rfl, rfl, rfl⟩ hrest
    rcases failedStarts_stopped hs hfailed with ⟨hall, rfl⟩ | ⟨hsome, hspoilt⟩
    · exact iff_of_true rfl hall
    · refine iff_of_false (fun hsame => ?_) hsome
      rw [start_spoilt hspoilt, ht'] at hsame
      cases hsame

/-- The port is taken: the start leaves the socket open, and the next one, on
another port, fails. -/
theorem failed_bind_blocks :
    ¬ EachStep step FailureUndone { datagramBuffer := [] } [.start 9000 { binds := false }] ∧
      ∃ t, failedStarts { datagramBuffer := [] } [(9000, { binds := false })] = some t ∧ t.socket = .opened ∧
        t.start 9001 {} = some (false, t) := by
  refine ⟨fun h => ?_, _, rfl, rfl, rfl⟩
  obtain ⟨hundone, -⟩ := h _ rfl
  obtain ⟨-, -, hclosed, -⟩ := hundone rfl rfl
  cases hclosed

end ComponentsNetwork.UDP.Server
