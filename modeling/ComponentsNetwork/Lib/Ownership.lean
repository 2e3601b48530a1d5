import Mathlib.Data.Finset.Card
import Mathlib.Data.Set.Insert
/-!
# Shared ownership

Objects that are destroyed once nothing owns them, as those of a
`std::shared_ptr` are. An object may be owned from outside (`rooted`), and by
other objects (`owns b a`: something stored in `b` owns `a`).

`survivors` are the objects that an owner keeps, however far the destruction of
the others goes. Objects that own one another in a cycle all survive. `collect`
computes the survivors of a finite set, and `coe_collect` proves it does.
-/

namespace ComponentsNetwork.Ownership

variable {V : Type} (rooted : V → Prop) (owns : V → V → Prop)

/-- Every object of `A` has an owner, outside or in `A`. -/
def Supported (A : Set V) : Prop := ∀ a ∈ A, rooted a ∨ ∃ b ∈ A, owns b a

/-- The objects of a part of `A` in which every one has an owner. -/
def survivors (A : Set V) : Set V := {a | ∃ B ⊆ A, Supported rooted owns B ∧ a ∈ B}

variable {rooted owns}

theorem survivors_subset {A : Set V} : survivors rooted owns A ⊆ A := by
  rintro a ⟨B, hB, -, ha⟩
  exact hB ha

theorem subset_survivors {A B : Set V} (hB : B ⊆ A) (h : Supported rooted owns B) : B ⊆ survivors rooted owns A :=
  fun _ ha => ⟨B, hB, h, ha⟩

theorem survivors_of_supported {A : Set V} (h : Supported rooted owns A) : survivors rooted owns A = A :=
  Set.Subset.antisymm survivors_subset (subset_survivors Set.Subset.rfl h)

/-- Where objects own nothing but themselves, those survive that are owned from
outside or do. -/
theorem mem_survivors_iff_of_self (hself : ∀ b a, owns b a → b = a) {A : Set V} {a : V} :
    a ∈ survivors rooted owns A ↔ a ∈ A ∧ (rooted a ∨ owns a a) := by
  constructor
  · rintro ⟨B, hB, hsupported, ha⟩
    refine ⟨hB ha, ?_⟩
    rcases hsupported a ha with hr | ⟨b, -, ho⟩
    · exact .inl hr
    · cases hself b a ho
      exact .inr ho
  · rintro ⟨ha, h⟩
    refine subset_survivors (Set.singleton_subset_iff.2 ha) ?_ rfl
    rintro _ rfl
    rcases h with hr | ho
    · exact .inl hr
    · exact .inr ⟨_, rfl, ho⟩

/-! ## Finite sets -/

variable [DecidablePred rooted] [DecidableRel owns]

variable (rooted owns) in
/-- The objects of `A` that have an owner in it or outside. -/
def owned (A : Finset V) : Finset V := A.filter fun a => rooted a ∨ ∃ b ∈ A, owns b a

variable (rooted owns) in
/-- The objects without an owner are destroyed, then those that have none left,
and so on. -/
def collect (A : Finset V) : Finset V := (owned rooted owns)^[A.card] A

theorem owned_subset (A : Finset V) : owned rooted owns A ⊆ A := Finset.filter_subset _ _

theorem supported_of_owned {A : Finset V} (h : owned rooted owns A = A) : Supported rooted owns (A : Set V) := by
  intro a ha
  rw [Finset.mem_coe, ← h, owned, Finset.mem_filter] at ha
  exact ha.2

theorem survivors_owned (A : Finset V) :
    survivors rooted owns (owned rooted owns A : Set V) = survivors rooted owns (A : Set V) := by
  apply Set.Subset.antisymm
  · rintro a ⟨B, hB, hsupported, ha⟩
    exact ⟨B, hB.trans (Finset.coe_subset.2 (owned_subset A)), hsupported, ha⟩
  · rintro a ⟨B, hB, hsupported, ha⟩
    refine ⟨B, ?_, hsupported, ha⟩
    intro b hb
    rw [Finset.mem_coe, owned, Finset.mem_filter]
    refine ⟨hB hb, ?_⟩
    apply (hsupported b hb).imp_right
    rintro ⟨c, hc, ho⟩
    exact ⟨c, hB hc, ho⟩

theorem iterate_owned {n : Nat} {A : Finset V} (hn : A.card ≤ n) :
    ((owned rooted owns)^[n] A : Set V) = survivors rooted owns (A : Set V) := by
  induction n generalizing A with
  | zero =>
    have hA : A = ∅ := Finset.card_eq_zero.1 (Nat.le_zero.1 hn)
    subst hA
    exact (survivors_of_supported fun _ ha => absurd ha (Finset.notMem_empty _)).symm
  | succ n ih =>
    by_cases h : owned rooted owns A = A
    · rw [Function.iterate_fixed h, survivors_of_supported (supported_of_owned h)]
    · -- A round that changes something leaves fewer objects.
      have hlt : (owned rooted owns A).card < A.card :=
        Finset.card_lt_card ((owned_subset A).ssubset_of_ne h)
      rw [Function.iterate_succ_apply, ih (by omega), survivors_owned]

theorem coe_collect (A : Finset V) : (collect rooted owns A : Set V) = survivors rooted owns (A : Set V) :=
  iterate_owned le_rfl

theorem mem_collect_iff_of_self (hself : ∀ b a, owns b a → b = a) {A : Finset V} {a : V} :
    a ∈ collect rooted owns A ↔ a ∈ A ∧ (rooted a ∨ owns a a) := by
  rw [← Finset.mem_coe, coe_collect]
  exact mem_survivors_iff_of_self hself

end ComponentsNetwork.Ownership
