import Mathlib.Data.List.Nodup
/-!
# Tickets

A desk hands out numbered tickets and settles each of them later, for a cause
`C`. `Settles own` says that it does so properly: no ticket is settled twice,
each was handed out and is settled by a cause of its own, and the tickets
still waiting are those handed out and not settled.
-/

namespace ComponentsNetwork.Tickets

variable {C : Type}

structure Desk (C : Type) where
  issued : Nat := 0
  waiting : List Nat := []
  settled : List (Nat × C) := []

def Desk.issue (d : Desk C) : Desk C := { d with issued := d.issued + 1, waiting := d.waiting ++ [d.issued] }

/-- A cause for a ticket that is not waiting does nothing. -/
def Desk.settle (d : Desk C) (k : Nat) (c : C) : Desk C :=
  if k ∈ d.waiting then { d with waiting := d.waiting.filter (· ≠ k), settled := d.settled ++ [(k, c)] } else d

structure Settles (own : Nat → C → Prop) (d : Desk C) : Prop where
  once : (d.settled.map Prod.fst).Nodup
  issued : ∀ k ∈ d.settled.map Prod.fst, k < d.issued
  own : ∀ x ∈ d.settled, own x.1 x.2
  waiting : ∀ k, k ∈ d.waiting ↔ k < d.issued ∧ k ∉ d.settled.map Prod.fst

variable {own : Nat → C → Prop} {d : Desk C}

theorem settles_nil : Settles own ({} : Desk C) := ⟨by simp, by simp, by simp, by simp⟩

theorem settles_issue (h : Settles own d) : Settles own d.issue := by
  refine ⟨h.once, fun k hk => Nat.lt_succ_of_lt (h.issued k hk), h.own, fun k => ?_⟩
  have hnew : d.issued ∉ d.settled.map Prod.fst := fun hk => Nat.lt_irrefl _ (h.issued _ hk)
  simp only [Desk.issue, List.mem_append, List.mem_singleton, h.waiting k]
  constructor
  · rintro (⟨hlt, hk⟩ | rfl)
    · exact ⟨by omega, hk⟩
    · exact ⟨by omega, hnew⟩
  · rintro ⟨hlt, hk⟩
    rcases Nat.lt_succ_iff_lt_or_eq.1 hlt with hlt | rfl
    · exact .inl ⟨hlt, hk⟩
    · exact .inr rfl

/-- Settling is proper exactly when the ticket, if it waits, has the cause. -/
theorem settles_settle_iff (h : Settles own d) (k : Nat) (c : C) :
    Settles own (d.settle k c) ↔ (k ∈ d.waiting → own k c) := by
  unfold Desk.settle
  by_cases hk : k ∈ d.waiting
  · simp only [hk, if_true, true_implies]
    constructor
    · intro h'
      exact h'.own (k, c) (by simp)
    · intro hown
      obtain ⟨hlt, hnew⟩ := (h.waiting k).1 hk
      refine ⟨?_, fun j hj => ?_, fun x hx => ?_, fun j => ?_⟩
      · rw [List.map_append, List.nodup_append]
        refine ⟨h.once, by simp, fun a ha b hb => ?_⟩
        rintro rfl
        cases List.mem_singleton.1 hb
        exact hnew ha
      · rw [List.map_append, List.mem_append] at hj
        rcases hj with hj | hj
        · exact h.issued j hj
        · cases List.mem_singleton.1 hj
          exact hlt
      · rcases List.mem_append.1 hx with hx | hx
        · exact h.own x hx
        · cases List.mem_singleton.1 hx
          exact hown
      · simp only [List.mem_filter, decide_eq_true_eq, h.waiting j, List.map_append, List.map_cons, List.map_nil,
          List.mem_append, List.mem_singleton, not_or, and_assoc]
  · simp [hk, h]

end ComponentsNetwork.Tickets
