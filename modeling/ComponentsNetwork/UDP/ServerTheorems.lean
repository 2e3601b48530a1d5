import ComponentsNetwork.UDP.Server
/-!
# Theorems about the UDP server

`working_iff`: a server that says it is working can receive, if it is not
started after a stop and its processor throws nothing. `stop` leaves the
context stopped, and an exception ends the thread without a word to
`isRunning`.
-/

namespace ComponentsNetwork.UDP.Server

open Buffers Runs Asio

/-- A receive is outstanding or its handler executing, on a bound socket and
with a thread inside `run`. -/
structure Receiving (s : Server) : Prop where
  socket : ∃ port, s.socket = .bound port
  receive : s.receives = 1 ∧ s.executing = false ∨ s.receives = 0 ∧ s.executing = true
  thread : s.ioThread = .running
  context : s.stopped = false

def WorkingReceives (s : Server) : Prop := s.isWorking = true → Receiving s

/-- `start` binds the socket. -/
def Binds (s : Server) (o : StartOutcome) : Prop :=
  s.isRunning = false ∧ s.socket = .closed ∧ o.opens = true ∧ o.binds = true

/-- A start that binds the socket finds a context that was not stopped, and
does not fail any more; the processor does not throw. -/
def StaysUsable (s : Server) : Action → Prop
  | .start _ o => Binds s o → s.stopped = false ∧ o.arms = true ∧ o.creates = true
  | .processorThrows => False
  | _ => True

/-- A server that is not running has no receive, no handler and no thread. -/
def Idle (s : Server) : Prop :=
  s.isRunning = false → s.receives = 0 ∧ s.executing = false ∧ s.ioThread = .absent

/-! ## The steps -/

theorem start_binds {s s' : Server} {port : UInt16} {o : StartOutcome} (hs : Idle s) (hb : Binds s o)
    (h : step s (.start port o) = some s') :
    s'.isRunning = true ∧ (Receiving s' ↔ s.stopped = false ∧ o.arms = true ∧ o.creates = true) := by
  obtain ⟨hidle, hsocket, hopens, hbinds⟩ := hb
  obtain ⟨hreceives, hexecuting, hthread⟩ := hs hidle
  simp only [step, start, hidle, hsocket, hopens, hbinds] at h
  rcases harms : o.arms
  · simp only [harms] at h
    cases h
    refine ⟨rfl, iff_of_false (fun hr => ?_) (by simp)⟩
    rcases hr.receive with hrec | hrec
    · simp [hreceives] at hrec
    · simp [hexecuting] at hrec
  · rcases hcreates : o.creates
    · simp only [harms, hcreates] at h
      cases h
      refine ⟨rfl, iff_of_false (fun hr => ?_) (by simp)⟩
      cases hthread.symm.trans hr.thread
    · simp only [harms, hcreates, startReceive, hthread] at h
      cases h
      refine ⟨rfl, fun hr => ⟨hr.context, rfl, rfl⟩, fun hstop => ?_⟩
      refine ⟨⟨port, rfl⟩, .inl ⟨by simp [startThread, hreceives], hexecuting⟩, ?_, hstop.1⟩
      simp [startThread, hstop.1]

/-- A start that does not bind the socket changes at most the socket, and that
only if the server is not running. -/
theorem start_fails {s s' : Server} {port : UInt16} {o : StartOutcome} (hb : ¬ Binds s o)
    (h : step s (.start port o) = some s') :
    s' = s ∨ s.isRunning = false ∧ s' = { s with socket := .opened } := by
  simp only [step, start, Option.map_eq_some_iff] at h
  obtain ⟨⟨result, t⟩, h, rfl⟩ := h
  by_cases hrunning : s.isRunning = true
  · rw [if_pos hrunning] at h
    cases h
    exact .inl rfl
  · rw [if_neg hrunning] at h
    have hidle : s.isRunning = false := by simpa using hrunning
    by_cases hopen : s.socket ≠ .closed ∨ (!o.opens) = true
    · rw [if_pos hopen] at h
      cases h
      exact .inl rfl
    · rw [if_neg hopen] at h
      simp only [ne_eq, not_or, not_not, Bool.not_eq_true, Bool.not_eq_false'] at hopen
      rcases hbinds : o.binds
      · simp only [hbinds, Bool.not_false, if_true] at h
        cases h
        exact .inr ⟨hidle, rfl⟩
      · exact absurd ⟨hidle, hopen.1, hopen.2, hbinds⟩ hb

/-- While the server runs, the end of a handler starts the next receive. -/
theorem finishHandler_running {s : Server} (h : s.isRunning = true) : s.finishHandler = s.startReceive := by
  simp [finishHandler, h]

/-- A receive ends in the processor, or with another receive. -/
theorem receiveHandler_running {s : Server} (h : s.isRunning = true) (error : Bool) (received : Bytes) :
    (s.receiveHandler error received).isRunning = true ∧
      (s.receiveHandler error received).socket = s.socket ∧ (s.receiveHandler error received).ioThread = s.ioThread ∧
      (s.receiveHandler error received).stopped = s.stopped ∧
      ((s.receiveHandler error received).receives = s.receives ∧ (s.receiveHandler error received).executing = true ∨
        (s.receiveHandler error received).receives = s.receives + 1 ∧
          (s.receiveHandler error received).executing = s.executing) := by
  unfold receiveHandler
  dsimp only
  split
  · exact ⟨h, rfl, rfl, rfl, .inl ⟨rfl, rfl⟩⟩
  · simp only [finishHandler, h, if_true]
    exact ⟨rfl, rfl, rfl, rfl, .inr ⟨rfl, rfl⟩⟩

theorem running_of_executing {s : Server} (hs : Idle s) (h : s.executing = true) : s.isRunning = true := by
  by_contra hrunning
  cases h.symm.trans (hs (by simpa using hrunning)).2.1

theorem running_of_receives {s : Server} (hs : Idle s) (h : 0 < s.receives) : s.isRunning = true := by
  by_contra hrunning
  have hzero := (hs (by simpa using hrunning)).1
  omega

theorem step_idle {s s' : Server} {a : Action} (hs : Idle s) (h : step s a = some s') : Idle s' := by
  cases a with
  | setRequestProcessor isSet => cases h; exact hs
  | start port o =>
    by_cases hb : Binds s o
    · intro hidle
      cases (start_binds hs hb h).1.symm.trans hidle
    · rcases start_fails hb h with rfl | ⟨-, rfl⟩
      · exact hs
      · exact hs
  | stop => cases h; exact fun _ => ⟨rfl, rfl, rfl⟩
  | receive error received =>
    simp only [step, Option.ite_none_right_eq_some, Option.some.injEq] at h
    obtain ⟨⟨hreceives, -⟩, rfl⟩ := h
    have hrunning := running_of_receives hs hreceives
    intro hidle
    cases (receiveHandler_running (s := { s with receives := s.receives - 1 }) hrunning error received).1.symm.trans
      hidle
  | processorReturns =>
    simp only [step, Option.ite_none_right_eq_some, Option.some.injEq] at h
    obtain ⟨hexecuting, rfl⟩ := h
    have hrunning := running_of_executing hs hexecuting
    rw [finishHandler_running (s := { s with executing := false }) hrunning]
    intro hidle
    cases hrunning.symm.trans hidle
  | processorThrows =>
    simp only [step, Option.ite_none_right_eq_some, Option.some.injEq] at h
    obtain ⟨hexecuting, rfl⟩ := h
    intro hidle
    cases (running_of_executing hs hexecuting).symm.trans hidle

/-- `start` never assigns to a thread that has not been joined. -/
theorem start_returns {datagramBuffer : Bytes} {s : Server} {acts : List Action}
    (h : run step { datagramBuffer } acts = some s) (port : UInt16) (o : StartOutcome) : s.start port o ≠ none := by
  have hs : Idle s := run_inv (I := Idle) (fun _ _ _ hs hstep => step_idle hs hstep) (fun _ => ⟨rfl, rfl, rfl⟩) h
  by_cases hrunning : s.isRunning = true
  · simp [start, hrunning]
  · obtain ⟨-, -, hthread⟩ := hs (by simpa using hrunning)
    simp only [start, startReceive, hthread]
    grind

theorem step_working {s s' : Server} {a : Action} (hs : Idle s) (hw : WorkingReceives s) (h : step s a = some s') :
    WorkingReceives s' ↔ StaysUsable s a := by
  cases a with
  | setRequestProcessor isSet =>
    cases h
    refine iff_of_true (fun hrunning => ?_) trivial
    obtain ⟨hsocket, hreceive, hthread, hcontext⟩ := hw hrunning
    exact ⟨hsocket, hreceive, hthread, hcontext⟩
  | start port o =>
    by_cases hb : Binds s o
    · obtain ⟨hrunning, hreceiving⟩ := start_binds hs hb h
      simp only [WorkingReceives, isWorking, hrunning, StaysUsable, hb, true_implies]
      exact hreceiving
    · refine iff_of_true ?_ fun hb' => absurd hb' hb
      rcases start_fails hb h with rfl | ⟨hidle, rfl⟩
      · exact hw
      · intro hrunning
        cases hidle.symm.trans hrunning
  | stop => cases h; exact iff_of_true (fun hrunning => by cases hrunning) trivial
  | receive error received =>
    simp only [step, Option.ite_none_right_eq_some, Option.some.injEq] at h
    obtain ⟨⟨hreceives, hexecuting, hthread, hcontext, -⟩, rfl⟩ := h
    have hrunning := running_of_receives hs hreceives
    obtain ⟨hsocket, hreceive, -, -⟩ := hw hrunning
    refine iff_of_true (fun _ => ?_) trivial
    obtain ⟨-, hsocket', hthread', hcontext', hnext⟩ :=
      receiveHandler_running (s := { s with receives := s.receives - 1 }) hrunning error received
    -- The receive that has completed was the only one.
    have hone : s.receives = 1 := by
      rcases hreceive with h | h
      · exact h.1
      · omega
    refine ⟨by rw [hsocket']; exact hsocket, ?_, by rw [hthread']; exact hthread, by rw [hcontext']; exact hcontext⟩
    rcases hnext with ⟨hr, he⟩ | ⟨hr, he⟩
    · exact .inr ⟨by rw [hr, hone], he⟩
    · exact .inl ⟨by rw [hr, hone], by rw [he]; exact hexecuting⟩
  | processorReturns =>
    simp only [step, Option.ite_none_right_eq_some, Option.some.injEq] at h
    obtain ⟨hexecuting, rfl⟩ := h
    have hrunning := running_of_executing hs hexecuting
    obtain ⟨hsocket, hreceive, hthread, hcontext⟩ := hw hrunning
    rw [finishHandler_running (s := { s with executing := false }) hrunning]
    refine iff_of_true (fun _ => ⟨hsocket, .inl ⟨?_, rfl⟩, hthread, hcontext⟩) trivial
    rcases hreceive with h | h
    · cases h.2.symm.trans hexecuting
    · simp [startReceive, h.1]
  | processorThrows =>
    simp only [step, Option.ite_none_right_eq_some, Option.some.injEq] at h
    obtain ⟨hexecuting, rfl⟩ := h
    have hrunning := running_of_executing hs hexecuting
    refine iff_of_false (fun hw' => ?_) id
    cases (hw' hrunning).thread

/-- In every run, the server can receive in every state in which it says it is
working if and only if every start that binds the socket finds a context that
was not stopped, and goes on to succeed, and the processor never throws. -/
theorem working_iff (datagramBuffer : Bytes) (acts : List Action) :
    Always step WorkingReceives { datagramBuffer } acts ↔ Meets step StaysUsable { datagramBuffer } acts := by
  apply always_iff (J := Idle)
  · intro s a s' hs _ h
    exact step_idle hs h
  · intro s a s' hs hw h
    exact step_working hs hw h
  · exact fun _ => ⟨rfl, rfl, rfl⟩
  · intro hrunning
    cases hrunning

/-- After a stop the server starts again, and its thread returns at once. -/
theorem restart_receives_nothing :
    ∃ s, run step { datagramBuffer := List.replicate 65507 0 } [.start 9000 {}, .stop, .start 9000 {}] = some s ∧
      s.isWorking = true ∧ s.ioThread = .returned ∧ s.stopped = true ∧ ¬ WorkingReceives s :=
  ⟨_, rfl, rfl, rfl, rfl, fun h => by cases (h rfl).context⟩

end ComponentsNetwork.UDP.Server
