import Mathlib.Data.List.Basic
/-!
# Buffers

Octet strings, and what a reader sees of messages that share one buffer.

- `carried`: every message is appended to the buffer, which is never emptied.
  `carried_eq_iff` says when the messages themselves are seen.
- `overlay`: every message is written at the start of the buffer, over what is
  there, and the reader takes what comes before the first zero byte.
  `cString_overlaid_getElem_iff` says when it sees message `k`.
-/

namespace ComponentsNetwork.Buffers

/-- The octets of a `std::string` or of a byte vector. -/
abbrev Bytes := List UInt8

/-- The octets of a text. -/
def octets (s : String) : Bytes := s.toUTF8.data.toList

variable {α : Type}

/-- What a buffer that holds `acc` shows after each of the messages is
appended to it. -/
def carried (acc : List α) : List (List α) → List (List α)
  | [] => []
  | m :: ms => (acc ++ m) :: carried (acc ++ m) ms

@[simp] theorem carried_nil (acc : List α) : carried acc [] = [] := rfl

@[simp] theorem length_carried (acc : List α) (ms : List (List α)) : (carried acc ms).length = ms.length := by
  induction ms generalizing acc with
  | nil => rfl
  | cons m ms ih => simp [carried, ih]

theorem carried_concat (acc m : List α) (ms : List (List α)) :
    carried acc (ms ++ [m]) = carried acc ms ++ [acc ++ ms.flatten ++ m] := by
  induction ms generalizing acc with
  | nil => simp [carried]
  | cons n ms ih => simp [carried, ih]

/-- The messages are seen alone exactly when every message but the last is
empty (and the buffer started empty). -/
theorem carried_eq_iff (acc : List α) (ms : List (List α)) :
    carried acc ms = ms ↔ (ms ≠ [] → acc = []) ∧ ∀ m ∈ ms.dropLast, m = [] := by
  induction ms generalizing acc with
  | nil => simp
  | cons m ms ih =>
    have hm : acc ++ m = m ↔ acc = [] := List.append_left_eq_self
    simp only [carried, List.cons.injEq, hm, ih, ne_eq, List.cons_ne_nil, not_false_eq_true, forall_const]
    cases ms with
    | nil => simp
    | cons n ms =>
      simp only [List.append_eq_nil_iff, List.dropLast_cons_cons, List.mem_cons, forall_eq_or_imp,
        reduceCtorEq, not_false_eq_true, forall_const]
      tauto

/-! ## Written over one another -/

/-- A message is written at the start of a buffer. -/
def overlay (b m : List α) : List α := m ++ b.drop m.length

/-- What was written last is read back by its length. -/
@[simp] theorem take_overlay (b m : List α) : (overlay b m).take m.length = m := by
  simp [overlay]

/-- The bytes before the first zero, as a `char*` is read; none if the buffer
ends before. -/
def cString : Bytes → Option Bytes
  | [] => none
  | b :: bs => if b = 0 then some [] else (cString bs).map (b :: ·)

theorem cString_eq_some_iff {b r : Bytes} (hr : 0 ∉ r) : cString b = some r ↔ r ++ [0] <+: b := by
  induction b generalizing r with
  | nil => simp [cString]
  | cons x b ih =>
    unfold cString
    cases r with
    | nil =>
      by_cases hx : x = 0
      · simp [hx]
      · have hx' : ¬ 0 = x := fun h => hx h.symm
        simp [hx, hx']
    | cons y r =>
      have hy : y ≠ 0 := fun h => hr (by simp [h])
      have hr' : 0 ∉ r := fun h => hr (List.mem_cons_of_mem _ h)
      rw [List.cons_append, List.cons_prefix_cons]
      by_cases hx : x = 0
      · rw [if_pos hx]
        exact iff_of_false (by simp) fun h => hy (h.1.trans hx)
      · rw [if_neg hx, Option.map_eq_some_iff]
        constructor
        · rintro ⟨t, ht, he⟩
          cases he
          exact ⟨rfl, (ih hr').1 ht⟩
        · rintro ⟨rfl, h⟩
          exact ⟨r, (ih hr').2 h, rfl⟩

/-- Beyond the end of every message the buffer is as it was. -/
theorem overlaid_getElem_of_le {ms : List (List α)} {j : Nat} (h : ∀ m ∈ ms, m.length ≤ j) (b : List α) :
    (ms.foldl overlay b)[j]? = b[j]? := by
  induction ms generalizing b with
  | nil => rfl
  | cons m ms ih =>
    have hm : m.length ≤ j := h m List.mem_cons_self
    rw [List.foldl_cons, ih (fun m' hm' => h m' (List.mem_cons_of_mem _ hm')), overlay, List.getElem?_append_right hm,
      List.getElem?_drop]
    congr 1
    omega

/-- Where a message reaches, the buffer holds a byte of a message. -/
theorem overlaid_getElem_of_lt {ms : List (List α)} {j : Nat} (h : ∃ m ∈ ms, j < m.length) (b : List α) :
    ∃ m ∈ ms, ∃ x ∈ m, (ms.foldl overlay b)[j]? = some x := by
  induction ms generalizing b with
  | nil => simp at h
  | cons m ms ih =>
    by_cases hlater : ∃ m' ∈ ms, j < m'.length
    · obtain ⟨m', hm', x, hx, he⟩ := ih hlater (overlay b m)
      exact ⟨m', List.mem_cons_of_mem _ hm', x, hx, he⟩
    · have hm : j < m.length := by
        obtain ⟨m', hm', hlt⟩ := h
        rcases List.mem_cons.1 hm' with rfl | hm'
        · exact hlt
        · exact absurd ⟨m', hm', hlt⟩ hlater
      refine ⟨m, List.mem_cons_self, m[j], List.getElem_mem hm, ?_⟩
      have hle : ∀ m' ∈ ms, m'.length ≤ j := fun m' hm' => Nat.le_of_not_lt fun hlt => hlater ⟨m', hm', hlt⟩
      rw [List.foldl_cons, overlaid_getElem_of_le hle, overlay, List.getElem?_append_left hm, List.getElem?_eq_getElem hm]

/-- Messages no longer than `r` leave what is behind it. -/
theorem overlaid_append {ms : List (List α)} {r : List α} (h : ∀ m ∈ ms, m.length ≤ r.length) (rest : List α) :
    ms.foldl overlay (r ++ rest) = ms.foldl overlay r ++ rest ∧ (ms.foldl overlay r).length = r.length := by
  induction ms generalizing r with
  | nil => exact ⟨rfl, rfl⟩
  | cons m ms ih =>
    have hm : m.length ≤ r.length := h m List.mem_cons_self
    have hlen : (overlay r m).length = r.length := by
      rw [overlay, List.length_append, List.length_drop]
      omega
    have hover : overlay (r ++ rest) m = overlay r m ++ rest := by
      rw [overlay, overlay, List.drop_append_of_le_length hm, List.append_assoc]
    obtain ⟨happ, hlen'⟩ := ih fun m' hm' => hlen ▸ h m' (List.mem_cons_of_mem _ hm')
    rw [List.foldl_cons, List.foldl_cons, hover, happ]
    exact ⟨rfl, hlen'.trans hlen⟩

/-- After messages without zero bytes were written, one after another, the
reader sees message `r` exactly if none of them is longer, the byte behind it
was zero from the start, and those written after it leave it as it is. -/
theorem cString_overlaid_iff {pre post : List Bytes} {r : Bytes}
    (hz : ∀ m ∈ pre ++ r :: post, (0 : UInt8) ∉ m) (b : Bytes) :
    cString ((pre ++ r :: post).foldl overlay b) = some r ↔
      (∀ m ∈ pre ++ r :: post, m.length ≤ r.length) ∧ b[r.length]? = some 0 ∧ post.foldl overlay r = r := by
  have hr : (0 : UInt8) ∉ r := hz r (by simp)
  rw [cString_eq_some_iff hr]
  by_cases hlong : ∀ m ∈ pre ++ r :: post, m.length ≤ r.length
  · have hzero := overlaid_getElem_of_le hlong b
    have hpost : ∀ m ∈ post, m.length ≤ r.length := fun m hm => hlong m (by simp [hm])
    obtain ⟨happ, hlen⟩ := overlaid_append hpost ((pre.foldl overlay b).drop r.length)
    have hbuf : (pre ++ r :: post).foldl overlay b = post.foldl overlay r ++ (pre.foldl overlay b).drop r.length := by
      rw [List.foldl_append, List.foldl_cons]
      exact happ
    rw [← hzero, hbuf, List.getElem?_append_right (Nat.le_of_eq hlen), hlen, Nat.sub_self]
    refine (?_ : _ ↔ _).trans (and_iff_right hlong).symm
    constructor
    · rintro ⟨rest, he⟩
      rw [List.append_assoc] at he
      obtain ⟨hsame, htail⟩ := List.append_inj he hlen.symm
      rw [← htail, ← hsame]
      simp
    · rintro ⟨hhead, hsame⟩
      obtain ⟨rest, hrest⟩ : ∃ rest, (pre.foldl overlay b).drop r.length = 0 :: rest := by
        cases hd : (pre.foldl overlay b).drop r.length with
        | nil => simp [hd] at hhead
        | cons x rest =>
          rw [hd] at hhead
          cases hhead
          exact ⟨rest, rfl⟩
      rw [hsame, hrest]
      exact ⟨rest, by simp⟩
  · -- A longer message left a nonzero octet where the string ends.
    refine iff_of_false (fun hp => ?_) fun h => hlong h.1
    have hex : ∃ m ∈ pre ++ r :: post, r.length < m.length := by
      by_contra hno
      exact hlong fun m hm => Nat.le_of_not_lt fun hlt => hno ⟨m, hm, hlt⟩
    obtain ⟨m, hm, x, hx, he⟩ := overlaid_getElem_of_lt hex b
    have hzero := hp.getElem (i := r.length) (by simp)
    simp only [List.getElem_append_right (Nat.le_refl _), Nat.sub_self, List.getElem_cons_zero] at hzero
    have hlt : r.length < ((pre ++ r :: post).foldl overlay b).length := by
      have := hp.length_le
      rw [List.length_append, List.length_singleton] at this
      exact this
    rw [List.getElem?_eq_getElem hlt, ← hzero] at he
    cases he
    exact hz m hm hx

/-- The same for message `k`. -/
theorem cString_overlaid_getElem_iff {ms : List Bytes} {k : Nat} {r : Bytes} (hk : ms[k]? = some r)
    (hz : ∀ m ∈ ms, (0 : UInt8) ∉ m) (b : Bytes) :
    cString (ms.foldl overlay b) = some r ↔
      (∀ m ∈ ms, m.length ≤ r.length) ∧ b[r.length]? = some 0 ∧ (ms.drop (k + 1)).foldl overlay r = r := by
  obtain ⟨hlt, rfl⟩ := List.getElem?_eq_some_iff.1 hk
  have hsplit : ms = ms.take k ++ ms[k] :: ms.drop (k + 1) := by simp
  have h := cString_overlaid_iff (fun m hm => hz m (by rwa [hsplit])) b
  rwa [← hsplit] at h

end ComponentsNetwork.Buffers
