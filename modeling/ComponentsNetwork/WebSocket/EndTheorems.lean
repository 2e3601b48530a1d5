import ComponentsNetwork.WebSocket.ContactTheorems
/-!
# The end of a session

- `told_iff`: the close callback is called once when a session ends, and not
  before, if and only if it does not end in the resolver or in the handshake.
-/

namespace ComponentsNetwork.WebSocket

open Runs

/-- A session with a close callback, just started. -/
def started (host : String) (readCallback : Bool) : Session :=
  Session.start { closeCallback := true, readCallback } host

/-- The owner starts the session once, and keeps a close callback set. -/
def Action.Kept : Action → Prop
  | .start .. => False
  | .setCloseCallback isSet => isSet = true
  | _ => True

/-- The close callback has been called once if the session is over, and not at
all if an operation is outstanding. -/
def Told (s : Session) : Prop :=
  (s.outstanding = none → s.closeCalls = 1) ∧ (s.outstanding ≠ none → s.closeCalls = 0)

/-- The resolver and the handshake succeed. -/
def EndsElsewhere (_ : Session) : Action → Prop
  | .resolved ec | .handshaken ec => ec = false
  | _ => True

theorem told_pending {s t : Session} (h : Told s) (hs : s.outstanding ≠ none) (ht : t.outstanding ≠ none)
    (hcalls : t.closeCalls = s.closeCalls) : Told t :=
  ⟨fun hend => absurd hend ht, fun _ => hcalls.trans (h.2 hs)⟩

theorem told_same {s t : Session} (h : Told s) (hop : t.outstanding = s.outstanding)
    (hcalls : t.closeCalls = s.closeCalls) : Told t := by
  unfold Told
  rw [hop, hcalls]
  exact h

/-- What the close callback is called for is over. -/
theorem told_callClose {s : Session} (hset : s.closeCallback = true) (hend : s.outstanding = none)
    (hcalls : s.closeCalls = 0) : Told s.callClose := by
  simp [Told, Session.callClose, hset, hend, hcalls]

/-- An operation that ends with neither a next one nor a call of the callback. -/
theorem not_told {s t : Session} (h : Told s) (hs : s.outstanding ≠ none) (ht : t.outstanding = none)
    (hcalls : t.closeCalls = s.closeCalls) : ¬ Told t := by
  intro htold
  have hone := htold.1 ht
  rw [hcalls, h.2 hs] at hone
  cases hone

theorem callClose_callback (s : Session) : s.callClose.closeCallback = s.closeCallback := by
  unfold Session.callClose
  split <;> rfl

/-- A step keeps the callback set, and the owner told exactly if it is not one
of the two failures. -/
theorem told_step {s s' : Session} {a : Action} (hset : s.closeCallback = true) (h : Told s) (hkept : a.Kept)
    (hs : s.step a = some s') : s'.closeCallback = true ∧ (Told s' ↔ EndsElsewhere s a) := by
  cases a <;> simp only [Session.step] at hs
  case setReadCallback isSet =>
    cases hs
    exact ⟨hset, iff_of_true h trivial⟩
  case setCloseCallback isSet =>
    cases hkept
    cases hs
    exact ⟨rfl, iff_of_true h trivial⟩
  case start host port throws => cases hkept
  case resolved ec =>
    refine complete_inv (P := fun s' => s'.closeCallback = true ∧ (Told s' ↔ ec = false)) ?_ hs
    intro hop
    have hpending : s.outstanding ≠ none := by simp [hop]
    cases ec with
    | false => exact ⟨hset, iff_of_true (told_pending h hpending (by simp [Session.onResolve]) rfl) rfl⟩
    | true => exact ⟨hset, iff_of_false (not_told h hpending rfl rfl) Bool.noConfusion⟩
  case connected ec port =>
    refine complete_inv (P := fun s' => s'.closeCallback = true ∧ (Told s' ↔ True)) ?_ hs
    intro hop
    have hpending : s.outstanding ≠ none := by simp [hop]
    cases ec with
    | false => exact ⟨hset, iff_of_true (told_pending h hpending (by simp [Session.onConnect]) rfl) trivial⟩
    | true =>
      refine ⟨(callClose_callback _).trans hset, iff_of_true (told_callClose hset rfl ?_) trivial⟩
      exact h.2 hpending
  case handshaken ec =>
    refine complete_inv (P := fun s' => s'.closeCallback = true ∧ (Told s' ↔ ec = false)) ?_ hs
    intro hop
    have hpending : s.outstanding ≠ none := by simp [hop]
    cases ec with
    | false => exact ⟨hset, iff_of_true (told_pending h hpending (by simp [Session.onHandshake]) rfl) rfl⟩
    | true => exact ⟨hset, iff_of_false (not_told h hpending rfl rfl) Bool.noConfusion⟩
  case read ec appended =>
    refine complete_inv (P := fun s' => s'.closeCallback = true ∧ (Told s' ↔ True)) ?_ hs
    intro hop
    have hpending : s.outstanding ≠ none := by simp [hop]
    cases ec with
    | false =>
      -- However often it is read, a read follows and the callback waits.
      refine ⟨?_, iff_of_true (told_pending h hpending ?_ ?_) trivial⟩
      all_goals cases hread : s.readCallback <;> simp [Session.onRead, hset]
    | true =>
      refine ⟨(callClose_callback _).trans hset, iff_of_true (told_callClose hset rfl ?_) trivial⟩
      exact h.2 hpending
  case close ok =>
    cases hs
    have hcalls : (s.close ok).2.closeCalls = s.closeCalls ∧ (s.close ok).2.closeCallback = s.closeCallback := by
      unfold Session.close
      split <;> exact ⟨rfl, rfl⟩
    exact ⟨hcalls.2.trans hset, iff_of_true (told_same h (close_same s ok).2 hcalls.1) trivial⟩

/-- In every run of a session started once with a close callback, the callback
is called exactly once by the end, and never while an operation is
outstanding, if and only if neither the resolver nor the handshake fails. -/
theorem told_iff (host : String) (readCallback : Bool) (acts : List Action) (hkept : ∀ a ∈ acts, a.Kept) :
    Always Session.step Told (started host readCallback) acts ↔
      Meets Session.step EndsElsewhere (started host readCallback) acts := by
  apply always_iff_of (J := fun s => s.closeCallback = true ∧ Told s) (E := fun _ a _ => a.Kept)
  · rintro s a s' ⟨hset, htold⟩ hkept hc hs
    obtain ⟨hset', htold'⟩ := told_step hset htold hkept hs
    exact ⟨hset', htold'.2 hc⟩
  · rintro s a s' ⟨hset, htold⟩ - hkept hs
    exact (told_step hset htold hkept hs).2
  · exact ⟨rfl, by simp [Told, started, Session.start]⟩
  · simp [Told, started, Session.start]
  · exact eachStep_of_forall hkept _

instance (s : Session) : Decidable (Told s) := inferInstanceAs (Decidable (_ ∧ _))

instance (s : Session) : ∀ a : Action, Decidable (EndsElsewhere s a)
  | .resolved ec | .handshaken ec => inferInstanceAs (Decidable (ec = false))
  | .setReadCallback _ | .setCloseCallback _ | .start .. | .connected .. | .read .. | .close _ => .isTrue trivial

/-- A session whose third read fails. -/
theorem told_after_messages :
    Always Session.step Told (started "host" true)
      [.resolved false, .connected false 80, .handshaken false, .read false [104], .read false [105], .read true []] :=
  (told_iff "host" true
    [.resolved false, .connected false 80, .handshaken false, .read false [104], .read false [105], .read true []]
    (by simp [Action.Kept])).2 (by decide)

/-- After a name that does not resolve, and after a handshake that fails,
nothing is outstanding and nobody was told. -/
theorem end_not_told :
    ((run Session.step (started "host" true) [.resolved true]).map fun s => (s.outstanding, s.closeCalls)) =
        some (none, 0) ∧
      ((run Session.step (started "host" true) [.resolved false, .connected false 80, .handshaken true]).map
        fun s => (s.outstanding, s.closeCalls)) = some (none, 0) ∧
      ¬ Always Session.step Told (started "host" true) [.resolved true] ∧
      ¬ Always Session.step Told (started "host" true) [.resolved false, .connected false 80, .handshaken true] := by
  decide

end ComponentsNetwork.WebSocket
