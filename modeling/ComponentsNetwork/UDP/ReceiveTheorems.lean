import ComponentsNetwork.UDP.ServerTheorems
/-!
# The receive loop of the UDP server

- `handed_over`: a running server hands its request processor exactly the
  datagrams it receives, and always receives the next one.
-/

namespace ComponentsNetwork.UDP.Server

open Buffers Runs Asio

/-- The contents of the datagrams that arrive without an error and are not
empty, among the completions of `async_receive_from`. -/
def datagrams (completions : List (Bool × Bytes)) : List Bytes :=
  completions.filterMap fun (error, received) => if error ∨ received = [] then none else some received

/-- What the io thread does at a completion: its handler runs, and the request
processor, if it is called, returns. -/
def handled : Bool × Bytes → List Action
  | (error, received) => .receive error received :: if error ∨ received = [] then [] else [.processorReturns]

/-- The server runs with a request processor, and waits for a datagram. -/
structure Waiting (s : Server) : Prop where
  working : s.isWorking = true
  receiving : Receiving s
  processor : s.requestProcessor = true
  executing : s.executing = false

theorem Waiting.receives {s : Server} (h : Waiting s) : s.receives = 1 := by
  rcases h.receiving.receive with ⟨hone, -⟩ | ⟨-, hexec⟩
  · exact hone
  · rw [h.executing] at hexec
    cases hexec

theorem start_frame {s s' : Server} {port : UInt16} {o : StartOutcome} (h : step s (.start port o) = some s') :
    s'.requestProcessor = s.requestProcessor ∧ s'.executing = s.executing := by
  simp only [step, start, Option.map_eq_some_iff] at h
  obtain ⟨⟨result, t⟩, h, rfl⟩ := h
  split_ifs at h <;> cases h <;> exact ⟨rfl, rfl⟩

/-- A `start` of a server with a processor, on a context that was not stopped,
leaves it waiting if all its calls succeed. -/
theorem waiting_start {s s' : Server} {port : UInt16} {o : StartOutcome} (hs : Idle s) (hb : Binds s o)
    (hw : StaysUsable s (.start port o)) (hprocessor : s.requestProcessor = true)
    (h : step s (.start port o) = some s') : Waiting s' := by
  obtain ⟨hrunning, hreceiving⟩ := start_binds hs hb h
  obtain ⟨hsame, hexecuting⟩ := start_frame h
  exact ⟨hrunning, hreceiving.2 (hw hb), hsame.trans hprocessor, hexecuting.trans (hs hb.1).2.1⟩

/-- The receive is done, and its handler has not run. -/
def completed (s : Server) (received : Bytes) : Server :=
  { s with receives := 0, datagramBuffer := overlay s.datagramBuffer received }

/-- The handler has called the processor with the datagram. -/
def inProcessor (s : Server) (received : Bytes) : Server :=
  { s.completed received with executing := true, processed := s.processed ++ [received] }

/-- With the receive done and its handler over, the next receive is started. -/
theorem waiting_startReceive {s t : Server} (h : Waiting s) (hrunning : t.isRunning = s.isRunning)
    (hsocket : t.socket = s.socket) (hthread : t.ioThread = s.ioThread) (hcontext : t.stopped = s.stopped)
    (hprocessor : t.requestProcessor = s.requestProcessor) (hexecuting : t.executing = false)
    (hreceives : t.receives = 0) : Waiting t.startReceive := by
  refine ⟨hrunning.trans h.working, ⟨?_, .inl ⟨?_, hexecuting⟩, ?_, ?_⟩, hprocessor.trans h.processor, hexecuting⟩
  · obtain ⟨port, hport⟩ := h.receiving.socket
    exact ⟨port, hsocket.trans hport⟩
  · simp [startReceive, hreceives]
  · exact hthread.trans h.receiving.thread
  · exact hcontext.trans h.receiving.context

theorem step_receive {s : Server} (h : Waiting s) (error : Bool) {received : Bytes} (hsize : received.length ≤ 65507) :
    step s (.receive error received) = some ({ s with receives := 0 }.receiveHandler error received) := by
  have hone := h.receives
  rw [step, if_pos ⟨by omega, h.executing, h.receiving.thread, h.receiving.context, hsize⟩, hone]

theorem step_processorReturns {s : Server} (h : s.executing = true) (hrunning : s.isRunning = true) :
    step s .processorReturns = some { s with executing := false }.startReceive := by
  rw [step, if_pos h]
  exact congrArg some (finishHandler_running hrunning)

/-- A completion with nothing to hand over starts the next receive. -/
theorem handled_nothing {s : Server} (h : Waiting s) {error : Bool} {received : Bytes}
    (hsize : received.length ≤ 65507) (hnothing : error = true ∨ received = []) :
    ∃ s', run step s (handled (error, received)) = some s' ∧ Waiting s' ∧ s'.processed = s.processed := by
  have hskip : (!error && decide (0 < received.length) && s.requestProcessor) = false := by
    rcases hnothing with rfl | rfl <;> simp
  have hhandler : { s with receives := 0 }.receiveHandler error received = (s.completed received).startReceive := by
    simp only [receiveHandler, hskip, Bool.false_eq_true, if_false]
    exact finishHandler_running h.working
  have hwaiting : Waiting (s.completed received).startReceive :=
    waiting_startReceive h rfl rfl rfl rfl rfl h.executing rfl
  refine ⟨_, ?_, hwaiting, rfl⟩
  rw [handled, if_pos hnothing, run_cons, step_receive h error hsize, hhandler]
  rfl

/-- A datagram is handed over as it arrived, whatever the buffer held before,
and the next receive is started once the processor has returned. -/
theorem handled_datagram {s : Server} (h : Waiting s) {error : Bool} {received : Bytes}
    (hsize : received.length ≤ 65507) (hdatagram : ¬ (error = true ∨ received = [])) :
    ∃ s', run step s (handled (error, received)) = some s' ∧ Waiting s' ∧
      s'.processed = s.processed ++ [received] := by
  obtain ⟨herror, hsome⟩ := not_or.1 hdatagram
  have hcall : (!error && decide (0 < received.length) && s.requestProcessor) = true := by
    simp [herror, List.length_pos_iff, hsome, h.processor]
  have hhandler : { s with receives := 0 }.receiveHandler error received = s.inProcessor received := by
    simp only [receiveHandler, hcall, if_true]
    -- What is copied is what was just written.
    rw [show received ++ s.datagramBuffer.drop received.length = overlay s.datagramBuffer received from rfl, take_overlay]
    rfl
  have hreturns : step (s.inProcessor received) .processorReturns =
      some { s.inProcessor received with executing := false }.startReceive := step_processorReturns rfl h.working
  have hwaiting : Waiting { s.inProcessor received with executing := false }.startReceive :=
    waiting_startReceive h rfl rfl rfl rfl rfl rfl rfl
  refine ⟨_, ?_, hwaiting, rfl⟩
  rw [handled, if_neg hdatagram, run_cons, step_receive h error hsize, hhandler, Option.bind_some, run_cons,
    hreturns]
  rfl

theorem handled_one {s : Server} (h : Waiting s) (c : Bool × Bytes) (hsize : c.2.length ≤ 65507) :
    ∃ s', run step s (handled c) = some s' ∧ Waiting s' ∧ s'.processed = s.processed ++ datagrams [c] := by
  obtain ⟨error, received⟩ := c
  by_cases hnothing : error = true ∨ received = []
  · have hdatagrams : datagrams [(error, received)] = [] := by simp [datagrams, hnothing]
    rw [hdatagrams, List.append_nil]
    exact handled_nothing h hsize hnothing
  · have hdatagrams : datagrams [(error, received)] = [received] := by simp [datagrams, hnothing]
    rw [hdatagrams]
    exact handled_datagram h hsize hnothing

/-- However many receives of a running server complete, with errors or with
datagrams of any length, its processor is called with exactly the contents of
the datagrams without an error that are not empty, in order, and after each of
them one receive is outstanding again. -/
theorem handed_over (s : Server) (h : Waiting s) (completions : List (Bool × Bytes))
    (hsize : ∀ c ∈ completions, c.2.length ≤ 65507) :
    ∃ s', run step s (completions.flatMap handled) = some s' ∧
      s'.processed = s.processed ++ datagrams completions ∧ s'.receives = 1 ∧ Waiting s' := by
  induction completions generalizing s with
  | nil => exact ⟨s, rfl, by simp [datagrams], h.receives, h⟩
  | cons c completions ih =>
    obtain ⟨t, hrun, hwaiting, hprocessed⟩ := handled_one h c (hsize c List.mem_cons_self)
    obtain ⟨s', hrest, hrest', hone, hwaiting'⟩ := ih t hwaiting fun c' hc' => hsize c' (List.mem_cons_of_mem _ hc')
    refine ⟨s', ?_, ?_, hone, hwaiting'⟩
    · rw [List.flatMap_cons, run_append, hrun]
      exact hrest
    · rw [hrest', hprocessed, List.append_assoc]
      congr 1
      exact (List.filterMap_append (l := [c])).symm

/-- A short datagram after a long one, with an error and an empty one between
them, on a server that was just started. -/
theorem short_after_long :
    ∃ s, run step { datagramBuffer := List.replicate 65507 0 } [.setRequestProcessor true, .start 9000 {}] = some s ∧
      ∃ s', run step s ([(false, [1, 2, 3]), (true, []), (false, []), (false, [9])].flatMap handled) = some s' ∧
        s'.processed = s.processed ++ datagrams [(false, [1, 2, 3]), (true, []), (false, []), (false, [9])] ∧
        s'.receives = 1 ∧ Waiting s' := by
  refine ⟨_, rfl, handed_over _ ⟨rfl, ⟨⟨9000, rfl⟩, .inl ⟨rfl, rfl⟩, rfl, rfl⟩, rfl, rfl⟩ _ ?_⟩
  simp

end ComponentsNetwork.UDP.Server
