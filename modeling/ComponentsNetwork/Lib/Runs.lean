import Mathlib.Data.List.Induction
/-!
# Runs of a step function

A component is a state `S` and a partial step function on it: `step s a` is
the state after the action `a`, or `none` where `a` cannot happen. A run is a
list of actions taken one after another. The actions carry everything the
environment chooses (what a read delivers, whether a call fails, which handler
the scheduler picks), so a theorem about every list of actions holds for every
schedule and every outcome.

Properties of runs come in two forms. `Always P` says `P` holds in every state
of a run. `EachStep Q` says every step of a run, with the state before and
after it, satisfies `Q`. `eachStep_iff` and `always_iff` prove that a property
of runs holds exactly in the runs whose steps all meet a condition, from one
fact about a single step.
-/

namespace ComponentsNetwork.Runs

variable {S A : Type} (step : S → A → Option S)

/-- The state after the actions, in order; `none` if one of them cannot
happen. -/
def run (s : S) (as : List A) : Option S := as.foldlM step s

/-- Every step of the run of `as` from `s` satisfies `Q`. -/
def EachStep (Q : S → A → S → Prop) : S → List A → Prop
  | _, [] => True
  | s, a :: as => ∀ s', step s a = some s' → Q s a s' ∧ EachStep Q s' as

/-- Every step of the run of `as` from `s` is taken in a state and with an
action that satisfy `C`. -/
def Meets (C : S → A → Prop) : S → List A → Prop := EachStep step fun s a _ => C s a

/-- `P` holds in every state of the run of `as` from `s`. -/
def Always (P : S → Prop) (s : S) (as : List A) : Prop :=
  P s ∧ EachStep step (fun _ _ s' => P s') s as

variable {step}

instance decidableEachStep {Q : S → A → S → Prop} [∀ s a s', Decidable (Q s a s')] :
    ∀ (s : S) (as : List A), Decidable (EachStep step Q s as)
  | _, [] => .isTrue trivial
  | s, a :: as =>
    match h : step s a with
    | none => .isTrue fun _ hs' => (by cases h.symm.trans hs')
    | some s' =>
      have : Decidable (EachStep step Q s' as) := decidableEachStep s' as
      decidable_of_iff (Q s a s' ∧ EachStep step Q s' as)
        ⟨fun hq _ ht => (by cases h.symm.trans ht; exact hq), fun hq => hq s' h⟩

instance {C : S → A → Prop} [∀ s a, Decidable (C s a)] (s : S) (as : List A) : Decidable (Meets step C s as) :=
  inferInstanceAs (Decidable (EachStep step _ s as))

instance {P : S → Prop} [∀ s, Decidable (P s)] (s : S) (as : List A) : Decidable (Always step P s as) :=
  inferInstanceAs (Decidable (_ ∧ _))

@[simp] theorem run_nil (s : S) : run step s [] = some s := rfl

@[simp] theorem run_cons (s : S) (a : A) (as : List A) :
    run step s (a :: as) = (step s a).bind fun s' => run step s' as := rfl

theorem run_append (s : S) (as bs : List A) :
    run step s (as ++ bs) = (run step s as).bind fun s' => run step s' bs := by
  simp [run, List.foldlM_append]

theorem run_concat {s s' : S} {as : List A} {a : A} :
    run step s (as ++ [a]) = some s' ↔ ∃ t, run step s as = some t ∧ step t a = some s' := by
  simp [run_append, Option.bind_eq_some_iff]

/-! ## Elements of a list, each with those before it -/

theorem forall_split_concat {P : List A → A → Prop} {as : List A} {a : A} :
    (∀ pre b post, as ++ [a] = pre ++ b :: post → P pre b) ↔
      (∀ pre b post, as = pre ++ b :: post → P pre b) ∧ P as a := by
  constructor
  · intro h
    refine ⟨fun pre b post he => h pre b (post ++ [a]) ?_, h as a [] rfl⟩
    rw [he]
    simp
  · rintro ⟨h, hlast⟩ pre b post he
    rcases List.eq_nil_or_concat post with rfl | ⟨post, c, rfl⟩
    · obtain ⟨rfl, ha⟩ := List.append_inj' he rfl
      cases List.singleton_inj.1 ha
      exact hlast
    · rw [List.concat_eq_append, ← List.cons_append, ← List.append_assoc] at he
      exact h pre b post (List.append_inj' he rfl).1

theorem forall_split_iff {P : List A → A → Prop} {as : List A} :
    (∀ pre a post, as = pre ++ a :: post → P pre a) ↔ ∀ i, ∀ h : i < as.length, P (as.take i) as[i] := by
  constructor
  · intro h i hi
    exact h (as.take i) as[i] (as.drop (i + 1)) (by simp)
  · rintro h pre a post rfl
    simpa using h pre.length (by simp)

theorem getElem?_concat {l : List A} {a b : A} {k : Nat} (h : (l ++ [a])[k]? = some b) :
    l[k]? = some b ∨ k = l.length ∧ b = a := by
  rw [List.getElem?_append] at h
  split at h
  · exact .inl h
  · next hk =>
    rw [List.getElem?_singleton] at h
    split at h
    · cases h
      exact .inr ⟨by omega, rfl⟩
    · cases h

/-- What does not tell a last element from none sees no new element. -/
theorem getElem?_concat_of {B : Type} {f : Option A → B} {a : A} (h : f (some a) = f none) (l : List A) (k : Nat) :
    f (l ++ [a])[k]? = f l[k]? := by
  rcases Nat.lt_trichotomy k l.length with hlt | rfl | hgt
  · rw [List.getElem?_append_left hlt]
  · rw [List.getElem?_concat_length, List.getElem?_eq_none (Nat.le_refl _), h]
  · rw [List.getElem?_eq_none (by simp; omega), List.getElem?_eq_none (Nat.le_of_lt hgt)]

/-! ## Invariants -/

/-- What the first state satisfies and every step keeps holds after every run. -/
theorem run_inv {I : S → Prop} (hs : ∀ s a s', I s → step s a = some s' → I s')
    {s s' : S} {as : List A} (h0 : I s) (h : run step s as = some s') : I s' := by
  induction as generalizing s with
  | nil => cases h; exact h0
  | cons a as ih =>
    obtain ⟨t, ht, h⟩ := Option.bind_eq_some_iff.1 h
    exact ih (hs s a t h0 ht) h

/-- A relation between the state and the actions taken so far, kept by every
step, holds between the last state of a run and all its actions. -/
theorem run_history {R : S → List A → Prop} {s₀ s : S} {as : List A} (h0 : R s₀ [])
    (hs : ∀ s as a s', R s as → step s a = some s' → R s' (as ++ [a]))
    (h : run step s₀ as = some s) : R s as := by
  induction as using List.reverseRecOn generalizing s with
  | nil => cases h; exact h0
  | append_singleton as a ih =>
    obtain ⟨t, ht, h⟩ := run_concat.1 h
    exact hs t as a s (ih ht) h

/-- Where something becomes true in a run, there is the step that makes it so. -/
theorem exists_switch {P : S → Prop} {s s' : S} {as : List A} (h0 : ¬ P s) (h1 : P s') (h : run step s as = some s') :
    ∃ pre a post u v, as = pre ++ a :: post ∧ run step s pre = some u ∧ ¬ P u ∧ step u a = some v ∧ P v ∧
      run step v post = some s' := by
  induction as generalizing s with
  | nil =>
    cases h
    exact absurd h1 h0
  | cons a as ih =>
    obtain ⟨t, ht, h⟩ := Option.bind_eq_some_iff.1 h
    by_cases hp : P t
    · exact ⟨[], a, as, s, t, rfl, rfl, h0, ht, hp, h⟩
    · obtain ⟨pre, b, post, u, v, rfl, hpre, hu, hstep, hv, hpost⟩ := ih hp h
      refine ⟨a :: pre, b, post, u, v, rfl, ?_, hu, hstep, hv, hpost⟩
      rw [run_cons, ht]
      exact hpre

/-! ## Every step of a run -/

/-- In the runs whose steps all satisfy `E`: if, from states satisfying the
invariant `J`, a step satisfies `Q` exactly when its state and action satisfy
`C`, then the runs whose steps all satisfy `Q` are those whose steps all meet
`C`. `J` has to be kept only by steps that meet `C`. -/
theorem eachStep_iff_of {J : S → Prop} {E Q : S → A → S → Prop} {C : S → A → Prop}
    (hq : ∀ s a s', J s → E s a s' → step s a = some s' → (Q s a s' ↔ C s a))
    (hj : ∀ s a s', J s → E s a s' → C s a → step s a = some s' → J s')
    {s : S} (h0 : J s) {as : List A} (he : EachStep step E s as) : EachStep step Q s as ↔ Meets step C s as := by
  induction as generalizing s with
  | nil => exact Iff.rfl
  | cons a as ih =>
    refine forall_congr' fun s' => forall_congr' fun hs' => ?_
    obtain ⟨hstep, he⟩ := he s' hs'
    rw [hq s a s' h0 hstep hs']
    exact and_congr_right fun hc => ih (hj s a s' h0 hstep hc hs') he

/-- What every step satisfies from the states of an invariant that the
condition keeps. -/
theorem eachStep_of_meets {J : S → Prop} {Q : S → A → S → Prop} {C : S → A → Prop}
    (hq : ∀ s a s', J s → C s a → step s a = some s' → Q s a s')
    (hj : ∀ s a s', J s → C s a → step s a = some s' → J s')
    {s : S} (h0 : J s) {as : List A} (hc : Meets step C s as) : EachStep step Q s as := by
  induction as generalizing s with
  | nil => trivial
  | cons a as ih =>
    intro s' hs'
    obtain ⟨hstep, hrest⟩ := hc s' hs'
    exact ⟨hq s a s' h0 hstep hs', ih (hj s a s' h0 hstep hs') hrest⟩

/-- An invariant that the condition keeps holds after every run that meets it. -/
theorem run_inv_of_meets {J : S → Prop} {C : S → A → Prop}
    (hj : ∀ s a s', J s → C s a → step s a = some s' → J s')
    {s s' : S} (h0 : J s) {as : List A} (hc : Meets step C s as) (h : run step s as = some s') : J s' := by
  induction as generalizing s with
  | nil => cases h; exact h0
  | cons a as ih =>
    obtain ⟨t, ht, h⟩ := Option.bind_eq_some_iff.1 h
    obtain ⟨hstep, hrest⟩ := hc t ht
    exact ih (hj s a t h0 hstep ht) hrest h

theorem eachStep_of_forall {E : A → Prop} {as : List A} (h : ∀ a ∈ as, E a) (s : S) :
    EachStep step (fun _ a _ => E a) s as := by
  induction as generalizing s with
  | nil => trivial
  | cons a as ih => exact fun s' _ => ⟨h a List.mem_cons_self, ih (fun b hb => h b (List.mem_cons_of_mem _ hb)) s'⟩

theorem eachStep_mono {Q R : S → A → S → Prop} (h : ∀ s a s', Q s a s' → R s a s') {s : S} {as : List A}
    (hq : EachStep step Q s as) : EachStep step R s as := by
  induction as generalizing s with
  | nil => trivial
  | cons a as ih => exact fun s' hs' => ⟨h s a s' (hq s' hs').1, ih (hq s' hs').2⟩

theorem eachStep_append {Q : S → A → S → Prop} {s : S} {as bs : List A} :
    EachStep step Q s (as ++ bs) ↔
      EachStep step Q s as ∧ ∀ s', run step s as = some s' → EachStep step Q s' bs := by
  induction as generalizing s with
  | nil => simp [EachStep]
  | cons a as ih =>
    simp only [List.cons_append, EachStep, run_cons, Option.bind_eq_some_iff, ih]
    constructor
    · intro h
      refine ⟨fun s' hs' => ⟨(h s' hs').1, (h s' hs').2.1⟩, ?_⟩
      rintro t ⟨s', hs', ht⟩
      exact (h s' hs').2.2 t ht
    · rintro ⟨h, hlast⟩ s' hs'
      exact ⟨(h s' hs').1, (h s' hs').2, fun t ht => hlast t ⟨s', hs', ht⟩⟩

/-- Every step of a run satisfies `Q` if each does that can be taken after
what comes before it. -/
theorem eachStep_of_split {Q : S → A → S → Prop} {s : S} {as : List A}
    (h : ∀ pre a post t t', as = pre ++ a :: post → run step s pre = some t → step t a = some t' → Q t a t') :
    EachStep step Q s as := by
  induction as using List.reverseRecOn with
  | nil => trivial
  | append_singleton as a ih =>
    rw [eachStep_append]
    refine ⟨ih fun pre b post t t' he => h pre b (post ++ [a]) t t' (by simp [he]), fun t ht t' ht' => ?_⟩
    exact ⟨h as a [] t t' rfl ht ht', trivial⟩

theorem eachStep_and {Q R : S → A → S → Prop} {s : S} {as : List A} :
    EachStep step (fun s a s' => Q s a s' ∧ R s a s') s as ↔ EachStep step Q s as ∧ EachStep step R s as := by
  induction as generalizing s with
  | nil => simp [EachStep]
  | cons a as ih =>
    simp only [EachStep, ih]
    constructor
    · intro h
      exact ⟨fun s' hs' => ⟨(h s' hs').1.1, (h s' hs').2.1⟩, fun s' hs' => ⟨(h s' hs').1.2, (h s' hs').2.2⟩⟩
    · rintro ⟨hq, hr⟩ s' hs'
      exact ⟨⟨(hq s' hs').1, (hr s' hs').1⟩, (hq s' hs').2, (hr s' hs').2⟩

theorem eachStep_true (s : S) (as : List A) : EachStep step (fun _ _ _ => True) s as := by
  induction as generalizing s with
  | nil => trivial
  | cons a as ih => exact fun s' _ => ⟨trivial, ih s'⟩

theorem eachStep_iff {J : S → Prop} {Q : S → A → S → Prop} {C : S → A → Prop}
    (hq : ∀ s a s', J s → step s a = some s' → (Q s a s' ↔ C s a))
    (hj : ∀ s a s', J s → C s a → step s a = some s' → J s')
    {s : S} (h0 : J s) (as : List A) : EachStep step Q s as ↔ Meets step C s as :=
  eachStep_iff_of (fun s a s' h _ => hq s a s' h) (fun s a s' h _ => hj s a s' h) h0 (eachStep_true s as)

/-- The same for a property of states: `P` holds in every state of a run
exactly when each of its steps meets `C`. -/
theorem always_iff_of {P J : S → Prop} {E : S → A → S → Prop} {C : S → A → Prop}
    (hj : ∀ s a s', J s → E s a s' → C s a → step s a = some s' → J s')
    (hp : ∀ s a s', J s → P s → E s a s' → step s a = some s' → (P s' ↔ C s a))
    {s : S} (h0 : J s) (hp0 : P s) {as : List A} (he : EachStep step E s as) :
    Always step P s as ↔ Meets step C s as :=
  (and_iff_right hp0).trans
    (eachStep_iff_of (J := fun s => J s ∧ P s) (fun s a s' h => hp s a s' h.1 h.2)
      (fun s a s' h he hc hs => ⟨hj s a s' h.1 he hc hs, (hp s a s' h.1 h.2 he hs).2 hc⟩) ⟨h0, hp0⟩ he)

theorem always_iff {P J : S → Prop} {C : S → A → Prop}
    (hj : ∀ s a s', J s → C s a → step s a = some s' → J s')
    (hp : ∀ s a s', J s → P s → step s a = some s' → (P s' ↔ C s a))
    {s : S} (h0 : J s) (hp0 : P s) (as : List A) : Always step P s as ↔ Meets step C s as :=
  always_iff_of (fun s a s' h _ => hj s a s' h) (fun s a s' h hp' _ => hp s a s' h hp') h0 hp0 (eachStep_true s as)

/-- What no step brings about holds in the last state of a run exactly when it
holds in every one. -/
theorem always_iff_last {P J : S → Prop} {E : S → A → S → Prop}
    (hj : ∀ s a s', J s → E s a s' → step s a = some s' → J s')
    (hp : ∀ s a s', J s → E s a s' → step s a = some s' → P s' → P s)
    {s s' : S} (h0 : J s) {as : List A} (he : EachStep step E s as) (h : run step s as = some s') :
    Always step P s as ↔ P s' := by
  induction as generalizing s with
  | nil =>
    cases h
    exact and_iff_left trivial
  | cons a as ih =>
    obtain ⟨t, ht, h⟩ := Option.bind_eq_some_iff.1 h
    obtain ⟨hstep, he⟩ := he t ht
    rw [← ih (hj s a t h0 hstep ht) he h]
    constructor
    · intro halways
      exact halways.2 t ht
    · intro halways
      refine ⟨hp s a t h0 hstep ht halways.1, fun u hu => ?_⟩
      cases ht.symm.trans hu
      exact halways

end ComponentsNetwork.Runs
