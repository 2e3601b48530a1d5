import Mathlib.Data.List.Induction
/-!
# Answers paired by position

Requests and answers on one connection are paired only by their position: the
`k`-th answer is the answer to request `k`. `InOrder` says that a list of
answers respects this, and `inOrder_concat` what one more answer needs.
-/

namespace ComponentsNetwork.Pipeline

variable {B : Type} {request : B → Option Nat} {n : Nat}

/-- The answers `bs` are a prefix of an answer to request 0, one to request 1,
and so on up to the `n` requests made. `request b` is the request that `b`
answers. -/
def InOrder (request : B → Option Nat) (n : Nat) (bs : List B) : Prop :=
  ∃ answer : Nat → B, (∀ k, request (answer k) = some k) ∧ bs <+: (List.range n).map answer

theorem inOrder_nil (h : ∀ k, ∃ b, request b = some k) : InOrder request n [] := by
  choose answer ha using h
  exact ⟨answer, ha, by simp⟩

theorem map_range_le (answer : Nat → B) {m : Nat} (h : m ≤ n) :
    (List.range m).map answer <+: (List.range n).map answer := by
  have he : (List.range n).take m = List.range m := by rw [List.take_range, Nat.min_eq_left h]
  rw [← he, List.map_take]
  exact List.take_prefix _ _

/-- More requests do no harm. -/
theorem InOrder.mono {bs : List B} {n' : Nat} (h : InOrder request n bs) (hn : n ≤ n') : InOrder request n' bs := by
  obtain ⟨answer, ha, hp⟩ := h
  exact ⟨answer, ha, hp.trans (map_range_le answer hn)⟩

/-- One more answer must be the next one, to a request already made. -/
theorem inOrder_concat {bs : List B} {b : B} :
    InOrder request n (bs ++ [b]) ↔ InOrder request n bs ∧ request b = some bs.length ∧ bs.length < n := by
  constructor
  · rintro ⟨answer, ha, hp⟩
    have hlen : bs.length + 1 ≤ n := by simpa using hp.length_le
    have hb := hp.getElem (i := bs.length) (by simp)
    simp only [List.getElem_append_right (Nat.le_refl _), Nat.sub_self, List.getElem_cons_zero, List.getElem_map,
      List.getElem_range] at hb
    exact ⟨⟨answer, ha, (List.prefix_append bs [b]).trans hp⟩, by rw [hb, ha], hlen⟩
  · rintro ⟨⟨answer, ha, hp⟩, hb, hlen⟩
    -- The answers already given stay; `b` is the answer to the next request.
    refine ⟨fun k => if k = bs.length then b else answer k, fun k => ?_, ?_⟩
    · dsimp only
      split
      · next h => rw [hb, h]
      · exact ha k
    · have hbs : (List.range bs.length).map answer = bs := by
        have := List.prefix_iff_eq_take.1 hp
        rw [← List.map_take, List.take_range, Nat.min_eq_left (Nat.le_of_lt hlen)] at this
        exact this.symm
      have hsame : (List.range bs.length).map (fun k => if k = bs.length then b else answer k) = bs := by
        refine (List.map_congr_left fun k hk => if_neg ?_).trans hbs
        exact Nat.ne_of_lt (List.mem_range.1 hk)
      have hnext : bs ++ [b] = (List.range (bs.length + 1)).map fun k => if k = bs.length then b else answer k := by
        rw [List.range_succ, List.map_append, hsame]
        simp
      rw [hnext]
      exact map_range_le _ hlen

end ComponentsNetwork.Pipeline
