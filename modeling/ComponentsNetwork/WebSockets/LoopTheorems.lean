import ComponentsNetwork.WebSockets.ClientTheorems
/-!
# The io loop of the client

The handlers of the client run only while the io thread is inside `run`, which
returns when no connection and no timer is left to wait for.

- `attempts_run_iff`: every connection attempt has a running loop until its
  open or fail event if and only if `connect` is never called after the loop
  has returned.
-/

namespace ComponentsNetwork.WebSockets.Client

open Buffers Runs

/-- The handlers the io thread runs. -/
def Action.isHandler : Action → Bool
  | .opened _ _ | .closed _ | .failed _ | .pong _ | .timer _ _ => true
  | _ => false

/-- The steps, handlers only inside `run`. -/
def loopStep (c : Client) (a : Action) : Option Client :=
  if a.isHandler = true ∧ c.ioThread ≠ .running then none else step c a

/-- A connection passed to `client.connect` had neither its open nor its fail
event. -/
def Attempting (c : Client) : Prop := ∃ con ∈ c.connections, con.opened = false ∧ con.ended = false

def LoopRuns (c : Client) : Prop := Attempting c → c.ioThread = .running

/-- `connect` gets as far as `client.connect` only before the loop returns. -/
def BeforeLoopEnds (c : Client) : Action → Prop
  | .connect _ _ ec => ec = false → c.ioThread ≠ .returned
  | _ => True

theorem step_of_loopStep {c c' : Client} {a : Action} (h : loopStep c a = some c') : step c a = some c' := by
  unfold loopStep at h
  split at h
  · cases h
  · exact h

theorem running_of_handler {c c' : Client} {a : Action} (ha : a.isHandler = true) (h : loopStep c a = some c') :
    c.ioThread = .running := by
  by_contra hnot
  rw [loopStep, if_pos ⟨ha, hnot⟩] at h
  cases h

/-! ## What a step does to the io thread -/

@[simp] theorem ioThread_close (c : Client) (code : Nat) : (c.close code).ioThread = c.ioThread := by
  unfold close
  split <;> rfl

@[simp] theorem ioThread_settle (c : Client) (id : Nat) (cause : Cause) (value : Int) :
    (c.settle id cause value).ioThread = c.ioThread := by
  unfold settle
  split <;> rfl

@[simp] theorem ioThread_disconnect (c : Client) (reason : DisconnectReason) (ok : Bool) :
    (c.disconnect reason ok).ioThread = c.ioThread := by
  unfold disconnect
  split
  · rfl
  · cases ok
    · rfl
    · exact ioThread_close c reason.code

@[simp] theorem ioThread_ping (c : Client) (bytes : Nat) : (c.ping bytes).2.ioThread = c.ioThread := by
  unfold ping
  split
  · rfl
  · split <;> rfl

@[simp] theorem ioThread_pingSent (c : Client) (s : Sending) (ec : Bool) : (c.pingSent s ec).ioThread = c.ioThread := by
  unfold pingSent
  cases ec
  · rfl
  · exact ioThread_settle _ _ _ _

@[simp] theorem ioThread_timerHandler (c : Client) (id : Nat) (ec : Bool) :
    (c.timerHandler id ec).ioThread = c.ioThread := by
  unfold timerHandler
  cases ec
  · exact ioThread_settle _ _ _ _
  · rfl

@[simp] theorem ioThread_pongHandler (c : Client) (payload : Bytes) : (c.pongHandler payload).ioThread = c.ioThread := by
  unfold pongHandler
  split
  · exact ioThread_settle _ _ _ _
  · rfl

/-- Only `connect` and the end of `run` change it. -/
theorem step_ioThread {c c' : Client} {a : Action} (h : step c a = some c')
    (hconnect : ∀ host port, a ≠ .connect host port false) (hreturn : a ≠ .runReturns) : c'.ioThread = c.ioThread := by
  cases step_taken h with
  | @connect host port ec =>
    cases ec
    · exact absurd rfl (hconnect host port)
    · rfl
  | opened | ended => rfl
  | disconnect => exact ioThread_disconnect c _ _
  | ping => exact ioThread_ping c _
  | pingSent => exact ioThread_pingSent c _ _
  | pong => exact ioThread_pongHandler c _
  | timer => exact ioThread_timerHandler c _ _
  | runReturns => exact absurd rfl hreturn

/-! ## The loop and its work -/

/-- Without an io thread there is no connection yet; once its loop has
returned, all have ended. -/
structure LoopInv (c : Client) : Prop where
  absent : c.ioThread = .absent → c.connections = []
  returned : c.ioThread = .returned → ∀ con ∈ c.connections, con.ended = true

theorem loopInv_init : LoopInv {} := ⟨fun _ => rfl, fun _ => by simp⟩

theorem loopInv_of_running {c : Client} (h : c.ioThread = .running) : LoopInv c := by
  constructor
  · intro habsent
    rw [h] at habsent
    cases habsent
  · intro hreturned
    rw [h] at hreturned
    cases hreturned

/-- The work the loop waits for is there as long as a connection has not ended. -/
theorem loopRuns_of_loopInv {c : Client} (h : LoopInv c) : LoopRuns c := by
  rintro ⟨con, hmem, -, hended⟩
  cases hio : c.ioThread with
  | absent =>
    rw [h.absent hio] at hmem
    cases hmem
  | running => rfl
  | returned =>
    rw [h.returned hio con hmem] at hended
    cases hended

/-- No call but `connect` makes a connection, or one that has ended new. -/
theorem ended_of_quiet {l l' : Link} {a : Action} (h : LinkStep l a l') (ha : a.isHandler = false)
    (hconnect : ∀ host port, a ≠ .connect host port false) :
    l'.connections.map Connection.ended = l.connections.map Connection.ended := by
  cases h with
  | same harmless => rfl
  | @new host port uri => exact absurd rfl (hconnect host port)
  | opened found fresh => cases ha
  | @ended a hdl con event found => rcases event with rfl | rfl <;> cases ha
  | @disconnected reason ok connected =>
    cases ok
    · rfl
    · show (l.close reason.code).connections.map Connection.ended = _
      unfold Link.close
      split
      · apply List.ext_getElem?
        intro i
        simp only [List.getElem?_map, List.getElem?_modify]
        split <;> cases l.connections[i]? <;> rfl
      · rfl

theorem loopInv_frame {c c' : Client} (h : LoopInv c) (hio : c'.ioThread = c.ioThread)
    (hended : c'.connections.map Connection.ended = c.connections.map Connection.ended) : LoopInv c' := by
  constructor
  · intro habsent
    rw [h.absent (hio.symm.trans habsent)] at hended
    exact List.map_eq_nil_iff.1 hended
  · intro hreturned con hmem
    have hmem' : con.ended ∈ c.connections.map Connection.ended := by
      rw [← hended]
      exact List.mem_map_of_mem hmem
    obtain ⟨old, hold, he⟩ := List.mem_map.1 hmem'
    rw [← he]
    exact h.returned (hio.symm.trans hreturned) old hold

theorem connect_attempting (c : Client) (host : String) (port : UInt16) : Attempting (c.connect host port false) := by
  refine ⟨{ uri := "ws://" ++ host ++ ":" ++ port.toNat.repr }, ?_, rfl, rfl⟩
  unfold connect
  simp only [Bool.false_eq_true, if_false]
  split <;> simp

/-- A connection attempt has a loop that runs unless the loop has returned. -/
theorem connect_running_iff (c : Client) (host : String) (port : UInt16) :
    (c.connect host port false).ioThread = .running ↔ c.ioThread ≠ .returned := by
  unfold connect
  simp only [Bool.false_eq_true, if_false]
  cases hio : c.ioThread <;> simp

theorem loopInv_step (c : Client) (a : Action) (c' : Client) (h : LoopInv c) (hc : BeforeLoopEnds c a)
    (hs : loopStep c a = some c') : LoopInv c' := by
  by_cases hconnect : ∃ host port, a = .connect host port false
  · obtain ⟨host, port, rfl⟩ := hconnect
    cases hs
    exact loopInv_of_running ((connect_running_iff c host port).2 (hc rfl))
  · have hnot : ∀ host port, a ≠ .connect host port false := fun host port he => hconnect ⟨host, port, he⟩
    have hstep := step_of_loopStep hs
    by_cases hreturn : a = .runReturns
    · subst hreturn
      cases step_taken hstep with
      | ended event => rcases event with he | he <;> cases he
      | runReturns _ hended => exact ⟨fun habsent => (by cases habsent), fun _ => hended⟩
    · have hio := step_ioThread hstep hnot hreturn
      cases ha : a.isHandler with
      | true => exact loopInv_of_running (hio.trans (running_of_handler ha hs))
      | false => exact loopInv_frame h hio (ended_of_quiet (step_link hstep) ha hnot)

theorem loopRuns_step {c c' : Client} {a : Action} (h : LoopInv c) (hs : loopStep c a = some c') :
    LoopRuns c' ↔ BeforeLoopEnds c a := by
  by_cases hconnect : ∃ host port, a = .connect host port false
  · obtain ⟨host, port, rfl⟩ := hconnect
    cases hs
    constructor
    · intro hruns _
      exact (connect_running_iff c host port).1 (hruns (connect_attempting c host port))
    · intro hc _
      exact (connect_running_iff c host port).2 (hc rfl)
  · have hc : BeforeLoopEnds c a := by
      cases a with
      | connect host port ec =>
        intro hec
        subst hec
        exact absurd ⟨host, port, rfl⟩ hconnect
      | _ => trivial
    exact iff_of_true (loopRuns_of_loopInv (loopInv_step c a c' h hc hs)) hc

/-- In every run, the io thread is inside `run` whenever a connection attempt
waits for its open or fail event, exactly if no `connect` finds the loop
returned. -/
theorem attempts_run_iff (acts : List Action) :
    Always loopStep LoopRuns {} acts ↔ Meets loopStep BeforeLoopEnds {} acts := by
  apply always_iff (J := LoopInv)
  · exact loopInv_step
  · intro c a c' h _ hs
    exact loopRuns_step h hs
  · exact loopInv_init
  · exact loopRuns_of_loopInv loopInv_init

/-- The client connects again after its only connection was closed and the
loop has returned. -/
theorem reconnect_never_runs :
    ∃ c, run loopStep {}
        [.connect "10.0.0.1" 80 false, .opened 0 2, .closed 0, .runReturns, .connect "10.0.0.1" 80 false] = some c ∧
      c.ioThread = .returned ∧ ¬ LoopRuns c := by
  refine ⟨_, rfl, rfl, ?_⟩
  intro hruns
  cases hruns ⟨_, List.mem_cons_of_mem _ List.mem_cons_self, rfl, rfl⟩

end ComponentsNetwork.WebSockets.Client
