import ComponentsNetwork.Lib.Runs
/-!
# One system followed by another

A system with states `S` is followed by one with states `T` if, whenever the
first takes a step, the second can take the actions `via` names and ends in a
state that still corresponds (`Follows`). `Follows.run` carries this from one
step to runs: the second takes the actions that the first one's run comes to
(`followed`). So what holds in every run of the second holds, as far as the
correspondence tells, in every run of the first. `FollowsWhere` is the same
for the steps that meet a condition.
-/

namespace ComponentsNetwork.Simulation

open Runs

variable {S A T B : Type} (step : S → A → Option S) (follow : T → B → Option T) (via : S → A → List B)

/-- What the second system does while the first takes the actions. -/
def followed : S → List A → List B
  | _, [] => []
  | s, a :: as => via s a ++ (step s a).elim [] fun s' => followed s' as

/-- `R` is kept by the steps that meet `C`, if the second system does what
`via` says. -/
def FollowsWhere (C : S → A → Prop) (R : S → T → Prop) : Prop :=
  ∀ s t a s', R s t → C s a → step s a = some s' → ∃ t', run follow t (via s a) = some t' ∧ R s' t'

/-- `R` is kept if the second system does what `via` says. -/
def Follows (R : S → T → Prop) : Prop :=
  ∀ s t a s', R s t → step s a = some s' → ∃ t', run follow t (via s a) = some t' ∧ R s' t'

variable {step follow via} {R : S → T → Prop} {C : S → A → Prop}

theorem followed_cons {s s' : S} {a : A} {as : List A} (h : step s a = some s') :
    followed step via s (a :: as) = via s a ++ followed step via s' as := by
  rw [followed, h]
  rfl

theorem FollowsWhere.run (hf : FollowsWhere step follow via C R) {s s' : S} {t : T} {as : List A} (hr : R s t)
    (hc : Meets step C s as) (h : run step s as = some s') :
    ∃ t', run follow t (followed step via s as) = some t' ∧ R s' t' := by
  induction as generalizing s t with
  | nil =>
    cases h
    exact ⟨t, rfl, hr⟩
  | cons a as ih =>
    obtain ⟨u, hu, h⟩ := Option.bind_eq_some_iff.1 h
    obtain ⟨hca, hc⟩ := hc u hu
    obtain ⟨v, hv, hr⟩ := hf s t a u hr hca hu
    obtain ⟨t', ht', hr'⟩ := ih hr hc h
    refine ⟨t', ?_, hr'⟩
    rw [followed_cons hu, run_append, hv]
    exact ht'

theorem Follows.run (hf : Follows step follow via R) {s s' : S} {t : T} {as : List A} (hr : R s t)
    (h : run step s as = some s') : ∃ t', run follow t (followed step via s as) = some t' ∧ R s' t' :=
  FollowsWhere.run (C := fun _ _ => True) (fun s t a s' hr _ => hf s t a s' hr) hr (eachStep_true s as) h

end ComponentsNetwork.Simulation
