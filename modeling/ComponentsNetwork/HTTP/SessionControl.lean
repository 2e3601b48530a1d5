import ComponentsNetwork.HTTP.SessionEffects
/-!
# What a step of a session does to its read loop

`step_turn` is the other half of `step_effect`: what each action does to the
read loop, the deadline timer and `m_ioc.run()` (`Control`). A read that calls
no user processor and the return of one end the same way, in
`handleRequests`.
-/

namespace ComponentsNetwork.HTTP.ConnectionSession

open Buffers Asio Runs

variable {H : Type} (reason : Nat → String)

/-- The parts of a session's state that decide which handler runs next. -/
structure Control where
  secure : Bool
  socketOpen : Bool
  phase : Phase
  running : Bool
  deadlineTimer : SteadyTimer
  now : Nat

def control (s : ConnectionSession H) : Control := ⟨s.secure, s.socketOpen, s.phase, s.running, s.deadlineTimer, s.now⟩

namespace Control

/-- The `shutdown` that follows the handshake throws. -/
def throwingShutdown (c : Control) (hs : Handshake) : Bool := c.secure && !(c.socketOpen && hs ≠ .fails false)

/-- `handleRequests` gets as far as its read. -/
def readsOn (c : Control) (hs : Handshake) : Bool := !c.secure || c.socketOpen && hs = .succeeds

/-- A handler ends in `handleRequests`. -/
def proceed (c : Control) (hs : Handshake) : Control :=
  if c.readsOn hs then { c with phase := .reading, deadlineTimer := c.deadlineTimer.cancel.asyncWait }
  else { c with phase := .ended, running := c.running && !c.throwingShutdown hs }

theorem proceed_reads {c : Control} {hs : Handshake} (h : c.readsOn hs = true) :
    c.proceed hs = { c with phase := .reading, deadlineTimer := c.deadlineTimer.cancel.asyncWait } := if_pos h

theorem proceed_ends {c : Control} {hs : Handshake} (h : ¬ c.readsOn hs = true) :
    c.proceed hs = { c with phase := .ended, running := c.running && !c.throwingShutdown hs } := if_neg h

theorem proceed_running (c : Control) (hs : Handshake) :
    (c.proceed hs).running = (c.running && !c.throwingShutdown hs) := by
  by_cases h : c.readsOn hs = true
  · rw [proceed_reads h]
    have hno : c.throwingShutdown hs = false := by
      cases hc : c.secure <;> cases ho : c.socketOpen <;> simp_all [readsOn, throwingShutdown]
    simp [hno]
  · rw [proceed_ends h]

end Control

theorem leave_handleRequests_control (s : ConnectionSession H) (hs : Handshake) :
    (leave (handleRequests s hs)).control = s.control.proceed hs := by
  rcases s with ⟨_, _, _ | _, _ | _⟩ <;> rcases hs with _ | ⟨_ | _⟩ <;>
    simp [handleRequests, handshake, leave, control, Control.proceed, Control.readsOn, Control.throwingShutdown,
      checkDeadline]

/-! ## What leaves the control parts alone -/

theorem writeResponse_control (s : ConnectionSession H) (pkt : Packet) (o : Origin) :
    (writeResponse s pkt o).1.control = s.control := by
  unfold writeResponse; split <;> rfl

theorem sendErrorResponse_control (s : ConnectionSession H) (status : Nat) (o : Origin) :
    (sendErrorResponse reason s status o).1.control = s.control :=
  writeResponse_control _ _ _

theorem sendResponse_control (s : ConnectionSession H) (pkt : Packet) (opened : Option Bytes) (o : Origin) :
    (sendResponse reason s pkt opened o).1.control = s.control := by
  unfold sendResponse
  split
  · cases opened with
    | none => exact sendErrorResponse_control reason _ _ _
    | some content => exact writeResponse_control _ _ _
  · exact writeResponse_control _ _ _

/-- A dispatch changes nothing but the phase, and that only to call a user
processor. -/
theorem dispatch_control (s : ConnectionSession H) (incoming : Request) (garbage : Int) (k : Nat) :
    (dispatch reason (received s incoming) garbage k).1.control =
      { s.control with phase := (dispatch reason (received s incoming) garbage k).1.phase } := by
  have ht := dispatch_taken reason s incoming garbage k
  generalize dispatch reason (received s incoming) garbage k = x at ht ⊢
  cases ht with
  | @refused status =>
    have hcontrol : _ = s.control :=
      sendErrorResponse_control reason (handedOver s incoming garbage) status (.error k)
    rw [← hcontrol]
    rfl
  | called => rfl

theorem readHandler_control (s : ConnectionSession H) (incoming : Request) (garbage : Int) (hs : Handshake)
    (hp : s.phase = .reading) :
    (readHandler reason s incoming garbage hs).control =
      if dispatchError s incoming garbage = none then { s.control with phase := .dispatching }
      else s.control.proceed hs := by
  obtain ⟨hret, hd⟩ := dispatch_effect reason s incoming garbage
  have hc := dispatch_control reason s incoming garbage s.log.received.length
  unfold readHandler
  dsimp only [received] at hret hd hc ⊢
  generalize dispatch reason _ garbage s.log.received.length = x at hret hd hc ⊢
  obtain ⟨t, e⟩ := x
  cases hret
  dsimp only at hd hc ⊢
  cases he : dispatchError s incoming garbage with
  | none =>
    rw [he] at hd
    rw [if_pos rfl, if_pos hd.1, hc, hd.1]
  | some status =>
    rw [he] at hd
    have hph : t.phase = .reading := hd.1.trans hp
    have ht : t.control = s.control := by
      rw [hc, hph, ← hp]
      rfl
    have hdisp : ¬ t.phase = .dispatching := by simp [hph]
    rw [if_neg hdisp, leave_handleRequests_control, ht, if_neg (by simp)]

theorem closeConnection_control (s : ConnectionSession H) (closes : Bool) :
    (closeConnection s closes).control =
      { s.control with deadlineTimer := s.deadlineTimer.cancel, socketOpen := s.socketOpen && !closes } := by
  unfold closeConnection control
  dsimp only
  cases s.socketOpen <;> cases closes <;> rfl

theorem deadlineHandler_control (s : ConnectionSession H) (closes : Bool) :
    (deadlineHandler reason s closes).control =
      { s.control with deadlineTimer := s.deadlineTimer.cancel, socketOpen := s.socketOpen && !closes } := by
  obtain ⟨-, -, -, hx, -⟩ :=
    sendResponse_sends reason s.patched s.patched.responseErrorPacket none s.patched.oldestUnanswered
  have hc := sendResponse_control reason s.patched s.patched.responseErrorPacket none s.patched.oldestUnanswered
  unfold deadlineHandler
  dsimp only [oldestUnanswered, patched] at hx hc ⊢
  split
  · next t h =>
    rw [h] at hc
    have ht : t.control = s.control := hc
    have htimer : t.deadlineTimer = s.deadlineTimer := congrArg Control.deadlineTimer ht
    have hopen : t.socketOpen = s.socketOpen := congrArg Control.socketOpen ht
    rw [closeConnection_control, htimer, hopen]
    exact congrArg (fun k : Control =>
      { k with deadlineTimer := s.deadlineTimer.cancel, socketOpen := s.socketOpen && !closes }) ht
  · next h => rw [h] at hx; cases hx.2 rfl

/-! ## Steps -/

/-- The actions that leave the loop and the timer as they are. -/
def Action.still : Action H → Bool
  | .setHandler .. | .reply .. | .writeCompletes => true
  | _ => false

/-- What an action does to the control parts. -/
inductive Turn (s : ConnectionSession H) : Action H → Control → Prop
  | still {a} : Action.still a → Turn s a s.control
  | called {incoming garbage hs} : s.running = true → s.phase = .reading → dispatchError s incoming garbage = none →
      Turn s (.readCompletes incoming garbage hs) { s.control with phase := .dispatching }
  | refused {incoming garbage hs} : s.running = true → s.phase = .reading → dispatchError s incoming garbage ≠ none →
      Turn s (.readCompletes incoming garbage hs) (s.control.proceed hs)
  | failed {quiet closes t o} : s.running = true → s.phase = .reading →
      t = s.deadlineTimer ∨ t = s.deadlineTimer.cancel →
      Turn s (.readFails quiet closes) { s.control with phase := .ended, deadlineTimer := t, socketOpen := o }
  | returned {hs} : s.running = true → s.phase = .dispatching →
      Turn s (.processorReturns hs) (s.control.proceed hs)
  | threw : s.running = true → s.phase = .dispatching →
      Turn s .processorThrows { s.control with phase := .ended, running := false }
  | ticked {d} : Turn s (.tick d) { s.control with now := s.now + d }
  | elapsed {t} : s.deadlineTimer.elapse s.now = some t →
      Turn s .deadlineElapses { s.control with deadlineTimer := t }
  | expired {closes t} : s.running = true → s.phase ≠ .dispatching → s.deadlineTimer.runHandler = some t →
      Turn s (.deadlineExpires closes)
        { s.control with deadlineTimer := t.cancel, socketOpen := s.socketOpen && !closes }

theorem step_turn {s s' : ConnectionSession H} {a : Action H} (h : step reason s a = some s') :
    Turn s a s'.control := by
  cases step_taken reason h with
  | setHandler | writeCompletes => exact .still rfl
  | @readCompletes incoming garbage hs hrun hp =>
    rw [readHandler_control reason s incoming garbage hs hp]
    split
    · next he => exact .called hrun hp he
    · next he => exact .refused hrun hp he
  | readFails hrun hp =>
    split
    · exact .failed hrun hp (.inl rfl)
    · rw [closeConnection_control]
      exact .failed hrun hp (.inr rfl)
  | reply =>
    rw [sendResponse_control]
    exact .still rfl
  | processorReturns hrun hp =>
    rw [leave_handleRequests_control]
    exact .returned hrun hp
  | processorThrows hrun hp => exact .threw hrun hp
  | tick => exact .ticked
  | deadlineElapses ht => exact .elapsed ht
  | deadlineExpires hrun hp ht =>
    rw [deadlineHandler_control]
    exact .expired hrun hp ht

end ComponentsNetwork.HTTP.ConnectionSession
