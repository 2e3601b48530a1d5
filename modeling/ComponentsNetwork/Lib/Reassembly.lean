import Mathlib.Data.List.Nodup
import Mathlib.Logic.Function.Basic
/-!
# Reassembly

Parts of messages arrive in any order, the parts of different messages mixed.
A table keeps the parts of each message under its key until the last one
arrives; then the parts are handed over and the entry is dropped. Each part
says how many its message has.

- `collect_collected`: the table holds the parts received so far of each
  message that is not complete, and nothing else.
- `partsOf_flatMap`: among the parts of messages with different keys, those
  with a message's key are that message's own.
-/

namespace ComponentsNetwork.Reassembly

variable {K P : Type} [DecidableEq K] (key : P → K) (total : P → Nat)

/-- The parts with key `k`. -/
def partsOf (k : K) (ps : List P) : List P := ps.filter fun p => key p = k

/-- The table once `p` has arrived, and the parts handed over. -/
def collect (t : K → List P) (p : P) : (K → List P) × Option (List P) :=
  let parts := t (key p) ++ [p]
  if parts.length < total p then (Function.update t (key p) parts, none)
  else (Function.update t (key p) [], some parts)

/-- The table when `pre` has arrived of the parts `all`. -/
def Collected (all pre : List P) (t : K → List P) : Prop :=
  ∀ k, t k = if (partsOf key k pre).length < (partsOf key k all).length then partsOf key k pre else []

variable {key total}

@[simp] theorem partsOf_append (k : K) (ps qs : List P) :
    partsOf key k (ps ++ qs) = partsOf key k ps ++ partsOf key k qs :=
  List.filter_append ..

theorem partsOf_cons_self (p : P) (ps : List P) : partsOf key (key p) (p :: ps) = p :: partsOf key (key p) ps :=
  List.filter_cons_of_pos (by simp)

theorem partsOf_cons_ne {p : P} {k : K} (h : key p ≠ k) (ps : List P) : partsOf key k (p :: ps) = partsOf key k ps :=
  List.filter_cons_of_neg (by simpa using h)

theorem partsOf_concat_self (ps : List P) (p : P) :
    partsOf key (key p) (ps ++ [p]) = partsOf key (key p) ps ++ [p] := by
  rw [partsOf_append, partsOf_cons_self]
  rfl

theorem partsOf_concat_ne {p : P} {k : K} (h : key p ≠ k) (ps : List P) :
    partsOf key k (ps ++ [p]) = partsOf key k ps := by
  rw [partsOf_append, partsOf_cons_ne h]
  exact List.append_nil _

theorem prefix_partsOf {pre all : List P} (h : pre <+: all) (k : K) : partsOf key k pre <+: partsOf key k all := by
  obtain ⟨post, rfl⟩ := h
  rw [partsOf_append]
  exact List.prefix_append _ _

/-- Once as many parts have arrived as there are, they are all there are. -/
theorem partsOf_eq_of_length {pre all : List P} (h : pre <+: all) {k : K}
    (hlen : ¬ (partsOf key k pre).length < (partsOf key k all).length) : partsOf key k pre = partsOf key k all :=
  (prefix_partsOf h k).eq_of_length_le (Nat.le_of_not_lt hlen)

theorem collected_nil (all : List P) : Collected key all [] fun _ => [] := by
  intro k
  simp [partsOf]

/-- Before a part arrives, its message's earlier parts are in the table. -/
theorem collected_next {pre post : List P} {p : P} {t : K → List P} (h : Collected key (pre ++ p :: post) pre t) :
    t (key p) = partsOf key (key p) pre := by
  rw [h (key p), if_pos]
  rw [partsOf_append, partsOf_cons_self, List.length_append, List.length_cons]
  omega

theorem collect_collected {pre post : List P} {p : P} {t : K → List P} (h : Collected key (pre ++ p :: post) pre t)
    (ht : total p = (partsOf key (key p) (pre ++ p :: post)).length) :
    Collected key (pre ++ p :: post) (pre ++ [p]) (collect key total t p).1 := by
  intro k
  have hk := h k
  by_cases he : key p = k
  · subst he
    unfold collect
    rw [collected_next h, ht, partsOf_concat_self]
    dsimp only
    split <;> simp
  · have hother : (collect key total t p).1 k = t k := by
      unfold collect
      dsimp only
      split <;> exact Function.update_of_ne (fun hc => he hc.symm) _ _
    rw [partsOf_concat_ne he, hother]
    exact hk

/-- The parts of messages with different keys, apart. -/
theorem partsOf_flatMap {M : Type} {parts : M → List P} {name : M → K} {ms : List M} (hn : (ms.map name).Nodup)
    (hkey : ∀ m ∈ ms, ∀ p ∈ parts m, key p = name m) {m : M} (hm : m ∈ ms) :
    partsOf key (name m) (ms.flatMap parts) = parts m := by
  have hown : ∀ m ∈ ms, ∀ k, partsOf key k (parts m) = if name m = k then parts m else [] := by
    intro m hm k
    split
    · next h => exact List.filter_eq_self.2 fun p hp => by simp [hkey m hm p hp, h]
    · next h => exact List.filter_eq_nil_iff.2 fun p hp => by simp [hkey m hm p hp, h]
  induction ms with
  | nil => exact absurd hm List.not_mem_nil
  | cons m' ms ih =>
    rw [List.map_cons, List.nodup_cons] at hn
    rw [List.flatMap_cons, partsOf_append, hown m' List.mem_cons_self]
    have hrest : ∀ m'' ∈ ms, ∀ p ∈ parts m'', key p = name m'' := fun m'' h => hkey m'' (List.mem_cons_of_mem _ h)
    rcases List.mem_cons.1 hm with rfl | hm
    · have hnone : partsOf key (name m) (ms.flatMap parts) = [] := by
        apply List.filter_eq_nil_iff.2
        intro p hp
        obtain ⟨m'', hm'', hp⟩ := List.mem_flatMap.1 hp
        rw [decide_eq_true_eq, hrest m'' hm'' p hp]
        exact fun he => hn.1 (he ▸ List.mem_map_of_mem hm'')
      rw [if_pos rfl, hnone, List.append_nil]
    · have hne : name m' ≠ name m := fun he => hn.1 (he ▸ List.mem_map_of_mem hm)
      rw [if_neg hne, List.nil_append]
      exact ih hn.2 hrest hm fun m'' h => hown m'' (List.mem_cons_of_mem _ h)

end ComponentsNetwork.Reassembly
