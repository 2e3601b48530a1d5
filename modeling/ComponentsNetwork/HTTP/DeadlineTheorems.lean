import ComponentsNetwork.HTTP.SessionControl
/-!
# The deadline of a connection

The constructor sets the timer's expiry, ten seconds ahead, and nothing moves
it. What `checkDeadline` does in every round of the read loop, a `cancel` and
a new wait, keeps it. So the deadline ends a connection ten seconds after it
was accepted, however recently a request was handled.

- `deadline_iff`: whatever the timer does during and after a run, a timeout
  comes ten seconds or more after the deadline was last armed, if and only if
  it is never armed after the instant of the accept.
-/

namespace ComponentsNetwork.HTTP.ConnectionSession

open Buffers Asio Runs

variable {H : Type} (reason : Nat → String)

/-! ## When the deadline is armed -/

/-- The action ends in a `handleRequests` that gets as far as `checkDeadline`. -/
def arms (s : ConnectionSession H) : Action H → Bool
  | .readCompletes incoming garbage hs => (dispatchError s incoming garbage).isSome && s.control.readsOn hs
  | .processorReturns hs => s.control.readsOn hs
  | _ => false

theorem step_armed {s s' : ConnectionSession H} {a : Action H} (h : step reason s a = some s')
    (ha : arms s a = true) :
    s.running = true ∧ s'.control =
      { s.control with phase := .reading, deadlineTimer := s.deadlineTimer.cancel.asyncWait } := by
  have ht := step_turn reason h
  generalize s'.control = c at ht ⊢
  cases ht with
  | refused hrun hp he =>
    simp only [arms, Bool.and_eq_true] at ha
    exact ⟨hrun, Control.proceed_reads ha.2⟩
  | returned hrun hp => exact ⟨hrun, Control.proceed_reads ha⟩
  | called hrun hp he => simp [arms, he] at ha
  | @still a hs => cases a <;> first | cases ha | cases hs
  | failed | threw | ticked | elapsed | expired => cases ha

/-- A session and the times at which `handleRequests` armed its deadline. -/
structure Timed (H : Type) where
  session : ConnectionSession H
  armed : List Nat

namespace Timed

def step (t : Timed H) (a : Action H) : Option (Timed H) :=
  (ConnectionSession.step reason t.session a).map fun s =>
    ⟨s, if arms t.session a then t.armed ++ [t.session.now] else t.armed⟩

/-- `ConnectionSession.start`, whose `handleRequests` may arm the deadline. -/
def start (processors : Processors H) (selfServerName : String) (secure : Bool) (now : Nat) (hs : Handshake) :
    Timed H :=
  ⟨ConnectionSession.start processors selfServerName secure now hs, if secure then [] else [now]⟩

end Timed

/-- If the action is a timeout, `handleRequests` has not armed the deadline in
the ten seconds before it. -/
def Inactive (t : Timed H) : Action H → Timed H → Prop
  | .deadlineExpires _, _ => ∀ r ∈ t.armed, r + seconds 10 ≤ t.session.now
  | _, _ => True

/-- The action does not arm the deadline later than at `created`. -/
def ArmsBy (created : Nat) (t : Timed H) (a : Action H) : Prop := arms t.session a = true → t.session.now ≤ created

/-- What happens by itself: time passes and the timer does its work. -/
def Action.clock : Action H → Bool
  | .tick _ | .deadlineElapses | .deadlineExpires _ => true
  | _ => false

/-! ## The expiry -/

/-- The expiry is the one the constructor set, and no wait has elapsed before
it. -/
def Punctual (created : Nat) (c : Control) : Prop :=
  c.deadlineTimer.expiry = created + seconds 10 ∧ created ≤ c.now ∧
    (0 < c.deadlineTimer.due → c.deadlineTimer.expiry ≤ c.now)

theorem punctual_proceed {created : Nat} {c : Control} (h : Punctual created c) (hs : Handshake) :
    Punctual created (c.proceed hs) := by
  unfold Control.proceed
  split
  · exact h
  · exact h

theorem punctual_step {created : Nat} {s s' : ConnectionSession H} {a : Action H} (hi : Punctual created s.control)
    (h : step reason s a = some s') : Punctual created s'.control := by
  have ht := step_turn reason h
  generalize s'.control = c at ht ⊢
  obtain ⟨he, hnow, hdue⟩ := hi
  cases ht with
  | still | called | threw => exact ⟨he, hnow, hdue⟩
  | @refused incoming garbage hs => exact punctual_proceed ⟨he, hnow, hdue⟩ hs
  | @returned hs => exact punctual_proceed ⟨he, hnow, hdue⟩ hs
  | failed _ _ ht => rcases ht with rfl | rfl <;> exact ⟨he, hnow, hdue⟩
  | @ticked d => exact ⟨he, Nat.le_add_right_of_le hnow, fun hd => Nat.le_add_right_of_le (hdue hd)⟩
  | elapsed ht =>
    simp only [SteadyTimer.elapse, Option.ite_none_right_eq_some, Option.some.injEq] at ht
    obtain ⟨⟨hexp, -⟩, rfl⟩ := ht
    exact ⟨he, hnow, fun _ => hexp⟩
  | expired _ _ ht =>
    simp only [SteadyTimer.runHandler, Option.ite_none_right_eq_some, Option.some.injEq] at ht
    obtain ⟨hd, rfl⟩ := ht
    exact ⟨he, hnow, fun _ => hdue hd⟩

theorem punctual_start (processors : Processors H) (selfServerName : String) (secure : Bool) (created : Nat)
    (hs : Handshake) : Punctual created (start processors selfServerName secure created hs).control := by
  rw [start, leave_handleRequests_control]
  apply punctual_proceed
  exact ⟨rfl, Nat.le_refl _, fun hd => absurd hd (Nat.lt_irrefl 0)⟩

/-! ## Timeouts -/

/-- An invariant of the runs that arm the deadline at `created` only. -/
def ArmedBy (created : Nat) (t : Timed H) : Prop :=
  Punctual created t.session.control ∧ ∀ r ∈ t.armed, r ≤ created

theorem armedBy_start (processors : Processors H) (selfServerName : String) (secure : Bool) (created : Nat)
    (hs : Handshake) : ArmedBy created (Timed.start processors selfServerName secure created hs) := by
  refine ⟨punctual_start processors selfServerName secure created hs, ?_⟩
  intro r hr
  unfold Timed.start at hr
  split at hr
  · exact absurd hr List.not_mem_nil
  · exact Nat.le_of_eq (List.mem_singleton.1 hr)

theorem armedBy_step {created : Nat} (t : Timed H) (a : Action H) (t' : Timed H) (hi : ArmedBy created t)
    (hc : ArmsBy created t a) (h : Timed.step reason t a = some t') : ArmedBy created t' := by
  obtain ⟨s, hs, rfl⟩ := Option.map_eq_some_iff.1 h
  refine ⟨punctual_step reason hi.1 hs, ?_⟩
  intro r hr
  dsimp only at hr
  split at hr
  · next ha =>
    rcases List.mem_append.1 hr with hr | hr
    · exact hi.2 r hr
    · rw [List.mem_singleton.1 hr]
      exact hc ha
  · exact hi.2 r hr

theorem inactive_step {created : Nat} (t : Timed H) (a : Action H) (t' : Timed H) (hi : ArmedBy created t)
    (h : Timed.step reason t a = some t') : Inactive t a t' := by
  cases a with
  | deadlineExpires closes =>
    intro r hr
    obtain ⟨s, hs, rfl⟩ := Option.map_eq_some_iff.1 h
    have ht := step_turn reason hs
    generalize s.control = c at ht
    cases ht with
    | still hstill => cases hstill
    | expired _ _ ht =>
      simp only [SteadyTimer.runHandler, Option.ite_none_right_eq_some, Option.some.injEq] at ht
      have hexp : t.session.deadlineTimer.expiry ≤ t.session.now := hi.1.2.2 ht.1
      have hset : t.session.deadlineTimer.expiry = created + seconds 10 := hi.1.1
      have := hi.2 r hr
      omega
  | _ => trivial

/-- A session that reads with a wait pending can time out once its timer's
expiry is reached. -/
theorem timeout_possible (t : Timed H) {d : Nat} (hrun : t.session.running = true) (hp : t.session.phase = .reading)
    (hw : 0 < t.session.deadlineTimer.waiting) (he : t.session.deadlineTimer.expiry ≤ t.session.now + d) :
    ∃ t', run (Timed.step reason) t [.tick d, .deadlineElapses] = some t' ∧ t'.armed = t.armed ∧
      t'.session.now = t.session.now + d ∧ (Timed.step reason t' (.deadlineExpires true)).isSome = true := by
  obtain ⟨s, armed⟩ := t
  dsimp only at hrun hp hw he ⊢
  let fired := { s.deadlineTimer with waiting := 0, due := s.deadlineTimer.due + s.deadlineTimer.waiting }
  have helapse : s.deadlineTimer.elapse (s.now + d) = some fired := if_pos ⟨he, hw⟩
  have hrunHandler : fired.runHandler = some { fired with due := fired.due - 1 } :=
    if_pos (show 0 < s.deadlineTimer.due + s.deadlineTimer.waiting by omega)
  refine ⟨⟨{ s with now := s.now + d, deadlineTimer := fired }, armed⟩, ?_, rfl, rfl, ?_⟩
  · simp [Timed.step, step, helapse, arms]
  · simp [Timed.step, step, idle, hrun, hp, hrunHandler]

/-- Arming the deadline later than at `created` lets a timeout run within ten
seconds of it. -/
theorem early_timeout {created : Nat} {t t' : Timed H} {a : Action H} (hi : Punctual created t.session.control)
    (h : Timed.step reason t a = some t') (ha : arms t.session a = true) (hlate : created < t.session.now) :
    ∃ bs : List (Action H), (∀ b ∈ bs, b.clock = true) ∧ ¬ EachStep (Timed.step reason) Inactive t' bs := by
  have hexp : t.session.deadlineTimer.expiry = created + seconds 10 := hi.1
  obtain ⟨s, hs, rfl⟩ := Option.map_eq_some_iff.1 h
  obtain ⟨hrun, hc⟩ := step_armed reason hs ha
  simp only [control, Control.mk.injEq] at hc
  obtain ⟨-, -, hp, hr, htimer, hnow⟩ := hc
  rw [if_pos ha]
  let d := created + seconds 10 - t.session.now
  obtain ⟨t₂, hrun₂, harmed, hnow₂, hsome⟩ := timeout_possible reason
    ⟨s, t.armed ++ [t.session.now]⟩ (d := d) (hr.trans hrun) hp (by rw [htimer]; exact Nat.zero_lt_one)
    (by rw [htimer]; simp only [SteadyTimer.asyncWait, SteadyTimer.cancel, d]; omega)
  obtain ⟨t₃, ht₃⟩ := Option.isSome_iff_exists.1 hsome
  let due : List (Action H) := [.tick d, .deadlineElapses]
  refine ⟨due ++ [.deadlineExpires true], by simp [due, Action.clock], fun hq => ?_⟩
  have hlast : EachStep (Timed.step reason) Inactive t₂ [.deadlineExpires true] := (eachStep_append.1 hq).2 t₂ hrun₂
  have hten : t.session.now + seconds 10 ≤ t₂.session.now :=
    (hlast t₃ ht₃).1 t.session.now (by simp [harmed])
  have hpos : 0 < seconds 10 := by decide
  have hd : d = created + seconds 10 - t.session.now := rfl
  dsimp only at hnow₂
  omega

/-- The property of the deadline, over everything the clock and the timer can
do during a run and from any point of it on: a timeout comes ten seconds or
more after the deadline was last armed. It holds if and only if the deadline
is never armed later than at the instant the connection was accepted. -/
theorem deadline_iff (processors : Processors H) (selfServerName : String) (secure : Bool) (created : Nat)
    (hs : Handshake) (as : List (Action H)) :
    (∀ pre bs, pre <+: as → (∀ b ∈ bs, b.clock = true) →
      EachStep (Timed.step reason) Inactive (Timed.start processors selfServerName secure created hs) (pre ++ bs)) ↔
    Meets (Timed.step reason) (ArmsBy created) (Timed.start processors selfServerName secure created hs) as := by
  have h0 := armedBy_start processors selfServerName secure created hs
  constructor
  · intro h
    apply eachStep_of_split
    intro pre a post t t' heq ht ht' ha
    rcases Nat.lt_or_ge created t.session.now with hlate | hok
    · have hi : Punctual created t.session.control :=
        run_inv (I := fun t : Timed H => Punctual created t.session.control)
          (fun t a t' hi ht => by
            obtain ⟨s, hs, rfl⟩ := Option.map_eq_some_iff.1 ht
            exact punctual_step reason hi hs) h0.1 ht
      obtain ⟨bs, hbs, hno⟩ := early_timeout reason hi ht' ha hlate
      have hall := h (pre ++ [a]) bs ⟨post, by simp [heq]⟩ hbs
      exact absurd ((eachStep_append.1 hall).2 t' (run_concat.2 ⟨t, ht, ht'⟩)) hno
    · exact hok
  · rintro hm pre bs ⟨post, rfl⟩ hbs
    have hpre := (eachStep_append.1 hm).1
    -- The clock and the timer arm nothing.
    have hclock : ∀ t, Meets (Timed.step reason) (ArmsBy created) t bs := by
      intro t
      clear hm hpre
      induction bs generalizing t with
      | nil => trivial
      | cons b bs ih =>
        refine fun t' ht' => ⟨fun ha => ?_, ih (fun b hb => hbs b (List.mem_cons_of_mem _ hb)) t'⟩
        have hb := hbs b List.mem_cons_self
        cases b <;> first | cases ha | cases hb
    exact eachStep_of_meets (fun t a t' hi _ => inactive_step reason t a t' hi) (armedBy_step reason) h0
      (eachStep_append.2 ⟨hpre, fun t _ => hclock t⟩)

instance (t : Timed H) (a : Action H) (t' : Timed H) : Decidable (Inactive t a t') :=
  match a with
  | .deadlineExpires _ => inferInstanceAs (Decidable (∀ r ∈ t.armed, r + seconds 10 ≤ t.session.now))
  | .setHandler .. | .readCompletes .. | .readFails .. | .reply .. | .processorReturns _ | .processorThrows | .tick _
  | .deadlineElapses | .writeCompletes => .isTrue trivial

/-- A connection accepted at 0 that has a request read and answered nine
seconds later, and whose timer then does its work. -/
def requestAtNine : List (Action Unit) :=
  [.tick (seconds 9), .readCompletes { method := .get, target := "/" } 0 .succeeds, .tick (seconds 1),
    .deadlineElapses, .deadlineExpires true]

/-- The deadline ends the connection one second after the request. -/
theorem active_connection_closed :
    ¬ EachStep (Timed.step fun _ => "") Inactive (Timed.start (fun _ => none) "server" false 0 .succeeds)
        requestAtNine ∧
      ∃ t, run (Timed.step fun _ => "") (Timed.start (fun _ => none) "server" false 0 .succeeds) requestAtNine = some t ∧
        t.armed = [0, seconds 9] ∧ t.session.now = seconds 10 ∧ t.session.socketOpen = false := by
  refine ⟨by decide, _, rfl, rfl, rfl, rfl⟩

end ComponentsNetwork.HTTP.ConnectionSession
