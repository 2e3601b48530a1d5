import Mathlib.Data.List.Nodup
/-!
# Chunks

A list cut into chunks of given sizes, and chunks put in the order of their
numbers.

- `flatten_cut`: the chunks, one after another, are the list as far as their
  sizes reach.
- `eq_of_flatten_eq`: when two cuts of a list are the same.
- `extent_blockSize`: a count rounded up and a remainder as the last size
  reach the end of the list, unless its length is a multiple of the size of a
  chunk; then the last full chunk is lost.
- `Sorter.sort_numbered`: parts numbered from 0 are put in order whatever
  order they came in, by every sort.
-/

namespace ComponentsNetwork.Chunks

variable {α : Type}

/-! ## Cutting -/

/-- The chunks numbered `i` to `i + n - 1` of a list; chunk `k` takes the next
`size k` elements. -/
def cut (size : Nat → Nat) : Nat → Nat → List α → List (List α)
  | _, 0, _ => []
  | i, n + 1, l => l.take (size i) :: cut size (i + 1) n (l.drop (size i))

/-- How far the chunks `i` to `i + n - 1` reach. -/
def extent (size : Nat → Nat) : Nat → Nat → Nat
  | _, 0 => 0
  | i, n + 1 => size i + extent size (i + 1) n

@[simp] theorem length_cut (size : Nat → Nat) (i n : Nat) (l : List α) : (cut size i n l).length = n := by
  induction n generalizing i l with
  | zero => rfl
  | succ n ih => simp [cut, ih]

theorem flatten_cut (size : Nat → Nat) (i n : Nat) (l : List α) :
    (cut size i n l).flatten = l.take (extent size i n) := by
  induction n generalizing i l with
  | zero => simp [cut, extent]
  | succ n ih => rw [cut, extent, List.flatten_cons, ih, List.take_add]

theorem length_le_of_mem_cut {size : Nat → Nat} {m : Nat} (h : ∀ k, size k ≤ m) {i n : Nat} {l c : List α}
    (hc : c ∈ cut size i n l) : c.length ≤ m := by
  induction n generalizing i l with
  | zero => exact absurd hc List.not_mem_nil
  | succ n ih =>
    rcases List.mem_cons.1 hc with rfl | hc
    · rw [List.length_take]
      exact Nat.le_trans (Nat.min_le_left _ _) (h i)
    · exact ih hc

theorem infix_of_mem_cut {size : Nat → Nat} {i n : Nat} {l c : List α} (hc : c ∈ cut size i n l) : c <:+: l := by
  induction n generalizing i l with
  | zero => exact absurd hc List.not_mem_nil
  | succ n ih =>
    rcases List.mem_cons.1 hc with rfl | hc
    · exact (List.take_prefix _ _).isInfix
    · exact (ih hc).trans (List.drop_suffix _ _).isInfix

/-- Two cuts of one list are the same if no chunk of the one is shorter than
the chunk of the other in its place. -/
theorem eq_of_flatten_eq {xs ys : List (List α)} (hle : List.Forall₂ (fun x y => y.length ≤ x.length) xs ys)
    (h : xs.flatten = ys.flatten) : xs = ys := by
  have hrest : ∀ {xs ys : List (List α)}, List.Forall₂ (fun x y => y.length ≤ x.length) xs ys →
      ys.flatten.length ≤ xs.flatten.length := by
    intro xs ys hle
    induction hle with
    | nil => exact Nat.le_refl _
    | cons hxy _ ih =>
      rw [List.flatten_cons, List.flatten_cons, List.length_append, List.length_append]
      omega
  induction hle with
  | nil => rfl
  | cons hxy hle ih =>
    rw [List.flatten_cons, List.flatten_cons] at h
    have htotal := congrArg List.length h
    have hshort := hrest hle
    rw [List.length_append, List.length_append] at htotal
    obtain ⟨rfl, htail⟩ := List.append_inj h (by omega)
    rw [ih htail]

/-! ## Block sizes -/

/-- The size of block `i` of a list of length `total` in blocks of `max`: full
while the list goes on behind the block, the remainder after that. -/
def blockSize (max total i : Nat) : Nat := if i * max + max < total then max else total % max

theorem blockSize_le {max : Nat} (hmax : 0 < max) (total i : Nat) : blockSize max total i ≤ max := by
  unfold blockSize
  split
  · exact Nat.le_refl _
  · exact Nat.le_of_lt (Nat.mod_lt _ hmax)

/-- Where the length is no multiple of `max`, the last block holds the rest. -/
theorem extent_blockSize_of_mod_pos {max total : Nat} (hmax : 0 < max) (hr : 0 < total % max) (n i : Nat)
    (h : i + n = total / max) : i * max + extent (blockSize max total) i (n + 1) = total := by
  have hdiv : total / max * max + total % max = total := by
    rw [Nat.mul_comm]
    exact Nat.div_add_mod total max
  induction n generalizing i with
  | zero =>
    have hi : i = total / max := by omega
    have hlast : blockSize max total i = total % max := by
      rw [hi]
      apply if_neg
      have : total % max < max := Nat.mod_lt _ hmax
      omega
    rw [extent, extent, hlast, hi]
    omega
  | succ n ih =>
    have hnext := ih (i + 1) (by omega)
    rw [Nat.succ_mul] at hnext
    have hle : (i + 1) * max ≤ total / max * max := Nat.mul_le_mul_right _ (by omega)
    rw [Nat.succ_mul] at hle
    have hfull : blockSize max total i = max := if_pos (by omega)
    rw [extent, hfull]
    omega

/-- Where it is one, the block before the last is the remainder 0, too. -/
theorem extent_blockSize_of_dvd {max total : Nat} (hr : total % max = 0) (n i : Nat)
    (h : i + n + 1 = total / max) : i * max + extent (blockSize max total) i (n + 2) + max = total := by
  have hdiv : total / max * max = total := by
    have := Nat.div_add_mod total max
    rw [Nat.mul_comm] at this
    omega
  induction n generalizing i with
  | zero =>
    have hi : total / max = i + 1 := by omega
    rw [hi, Nat.succ_mul] at hdiv
    have hone : blockSize max total i = 0 := by
      rw [blockSize, if_neg (by omega), hr]
    have htwo : blockSize max total (i + 1) = 0 := by
      rw [blockSize, if_neg (by rw [Nat.succ_mul]; omega), hr]
    simp only [extent, hone, htwo]
    omega
  | succ n ih =>
    have hnext := ih (i + 1) (by omega)
    rw [Nat.succ_mul] at hnext
    have hle : (i + 1 + 1) * max ≤ total / max * max := Nat.mul_le_mul_right _ (by omega)
    rw [Nat.succ_mul, Nat.succ_mul] at hle
    have hmax : 0 < max := by
      apply Nat.pos_of_ne_zero
      rintro rfl
      simp at h
    have hfull : blockSize max total i = max := if_pos (by omega)
    rw [extent, hfull]
    omega

/-- The blocks of a list reach its end, unless its length is a positive
multiple of the size of a block; then they end one block before it. -/
theorem extent_blockSize {max : Nat} (hmax : 0 < max) (total : Nat) :
    extent (blockSize max total) 0 (total / max + 1) = if 0 < total ∧ max ∣ total then total - max else total := by
  rcases Nat.eq_zero_or_pos (total % max) with hr | hr
  · rcases Nat.eq_zero_or_pos (total / max) with hq | hq
    · have hzero : total = 0 := by
        have := Nat.div_add_mod total max
        rw [hq, hr] at this
        omega
      simp [hzero, extent, blockSize]
    · have htotal : 0 < total := Nat.pos_of_div_pos hq
      have hreach := extent_blockSize_of_dvd hr (total / max - 1) 0 (by omega)
      have hn : total / max - 1 + 2 = total / max + 1 := by omega
      rw [hn] at hreach
      rw [if_pos ⟨htotal, Nat.dvd_of_mod_eq_zero hr⟩]
      omega
  · have hndvd : ¬ (0 < total ∧ max ∣ total) := by
      rintro ⟨-, hd⟩
      rw [Nat.mod_eq_zero_of_dvd hd] at hr
      exact absurd hr (Nat.lt_irrefl 0)
    have hreach := extent_blockSize_of_mod_pos hmax hr (total / max) 0 (Nat.zero_add _)
    rw [if_neg hndvd]
    omega

/-! ## Numbered parts -/

/-- A sort by a number, of which nothing is known but that it sorts. What it
does with equal numbers is its own. -/
structure Sorter (α : Type) (number : α → Nat) where
  sort : List α → List α
  perm : ∀ l, (sort l).Perm l
  sorted : ∀ l, (sort l).Pairwise fun a b => number a ≤ number b

namespace Sorter
variable {number : α → Nat}

def merge : Sorter α number where
  sort l := l.mergeSort fun a b => number a ≤ number b
  perm l := List.mergeSort_perm l _
  sorted l := by
    have h : (l.mergeSort fun a b => decide (number a ≤ number b)).Pairwise fun a b => decide (number a ≤ number b) :=
      List.pairwise_mergeSort (by simp only [decide_eq_true_eq]; omega)
        (by simp only [Bool.or_eq_true, decide_eq_true_eq]; omega) l
    simpa using h

theorem sort_numbered (σ : Sorter α number) {parts arrived : List α}
    (hn : parts.map number = List.range parts.length) (h : arrived.Perm parts) : σ.sort arrived = parts := by
  have hnodup : (parts.map number).Nodup := by
    rw [hn]
    exact List.nodup_range
  have hp : (σ.sort arrived).Perm parts := (σ.perm arrived).trans h
  have hsorted : parts.Pairwise fun a b => number a ≤ number b := by
    have hlt : (parts.map number).Pairwise (· < ·) := by
      rw [hn]
      exact List.pairwise_lt_range
    exact (List.pairwise_map.1 hlt).imp Nat.le_of_lt
  refine List.Perm.eq_of_pairwise (fun a b ha hb hab hba => ?_) (σ.sorted arrived) hsorted hp
  exact List.inj_on_of_nodup_map hnodup (hp.mem_iff.1 ha) hb (Nat.le_antisymm hab hba)

end Sorter

end ComponentsNetwork.Chunks
