import Mathlib.Data.List.Basic
/-!
# Messages in a stream

Messages are written one after another, and the stream they make is read in
pieces. A reader that decodes the first message of a piece and drops the rest
may lose messages, but invents and reorders none (`InOrder`). It has lost none
as long as what it decoded and what is left in the stream are all that was
written (`Complete`), and `complete_read_iff` says that a read keeps it so
exactly if its piece is one message.
-/

namespace ComponentsNetwork.Framing

variable {M B : Type} (encode : M → List B) (decode : List B → Option M)

def stream (ms : List M) : List B := (ms.map encode).flatten

/-- The piece is one or more whole messages. -/
def Whole (piece : List B) : Prop := ∃ m ms, piece = stream encode (m :: ms)

/-- The decoder finds the first message, if it succeeds at all, and it succeeds
on whole messages. -/
structure FindsFirst : Prop where
  ne_nil : ∀ m, encode m ≠ []
  first : ∀ m rest n, decode (encode m ++ rest) = some n → n = m
  whole : ∀ m ms, (decode (stream encode (m :: ms))).isSome

/-- What was decoded are messages written, in the order they were written and
none of them twice, and `pending` is the stream of others, written later. -/
def InOrder (written : List M) (pending : List B) (decoded : List M) : Prop :=
  ∃ gone left, written = gone ++ left ∧ pending = stream encode left ∧ decoded.Sublist gone

/-- Every message written was decoded or is still in the stream. -/
def Complete (written : List M) (pending : List B) (decoded : List M) : Prop :=
  ∃ left, written = decoded ++ left ∧ pending = stream encode left

variable {encode decode}

@[simp] theorem stream_nil : stream encode [] = [] := rfl

@[simp] theorem stream_cons (m : M) (ms : List M) : stream encode (m :: ms) = encode m ++ stream encode ms := rfl

@[simp] theorem stream_append (ms ns : List M) : stream encode (ms ++ ns) = stream encode ms ++ stream encode ns := by
  simp [stream]

namespace FindsFirst

variable (h : FindsFirst encode decode)
include h

theorem decode_stream (m : M) (ms : List M) : decode (stream encode (m :: ms)) = some m := by
  obtain ⟨n, hn⟩ := Option.isSome_iff_exists.1 (h.whole m ms)
  rw [hn, h.first m (stream encode ms) n hn]

/-- The messages at the start of a stream are the first ones written. -/
theorem split_stream {ms ns : List M} {rest : List B} (he : stream encode ms ++ rest = stream encode ns) :
    ∃ left, ns = ms ++ left ∧ rest = stream encode left := by
  induction ms generalizing ns with
  | nil => exact ⟨ns, rfl, he⟩
  | cons m ms ih =>
    rw [stream_cons, List.append_assoc] at he
    cases ns with
    | nil => exact absurd (List.append_eq_nil_iff.1 he).1 (h.ne_nil m)
    | cons n ns =>
      have hfirst : n = m := by
        refine h.first m (stream encode ms ++ rest) n ?_
        rw [he]
        exact h.decode_stream n ns
      subst hfirst
      obtain ⟨left, rfl, hrest⟩ := ih (List.append_cancel_left he)
      exact ⟨left, rfl, hrest⟩

theorem stream_eq_nil_iff {ms : List M} : stream encode ms = [] ↔ ms = [] := by
  cases ms with
  | nil => simp
  | cons m ms => simp [h.ne_nil m]

/-- One message is all of a piece exactly if it is the only one. -/
theorem exists_eq_encode_iff {m : M} {ms : List M} : (∃ n, stream encode (m :: ms) = encode n) ↔ ms = [] := by
  constructor
  · rintro ⟨n, he⟩
    have hn : stream encode (m :: ms) ++ [] = stream encode [n] := by simpa using he
    obtain ⟨left, hleft, -⟩ := h.split_stream hn
    have hlen := congrArg List.length hleft
    simp only [List.length_cons, List.length_nil, List.length_append] at hlen
    exact List.length_eq_zero_iff.1 (by omega)
  · rintro rfl
    exact ⟨m, by simp⟩

end FindsFirst

/-! ## Messages in parts -/

/-- The messages that are whole in the first `n` parts, where the parts of one
message come after those of another. -/
def wholeIn {P : Type} (parts : M → List P) : List M → Nat → List M
  | [], _ => []
  | m :: ms, n => if (parts m).length ≤ n then m :: wholeIn parts ms (n - (parts m).length) else []

theorem wholeIn_eq_self {P : Type} {parts : M → List P} {ms : List M} {n : Nat} (h : (ms.flatMap parts).length ≤ n) :
    wholeIn parts ms n = ms := by
  induction ms generalizing n with
  | nil => rfl
  | cons m ms ih =>
    rw [List.flatMap_cons, List.length_append] at h
    rw [wholeIn, if_pos (by omega), ih (by omega)]

/-! ## Writing and reading -/

theorem inOrder_write {written : List M} {pending : List B} {decoded : List M}
    (h : InOrder encode written pending decoded) (m : M) :
    InOrder encode (written ++ [m]) (pending ++ encode m) decoded := by
  obtain ⟨gone, left, rfl, rfl, hsub⟩ := h
  exact ⟨gone, left ++ [m], by simp, by simp, hsub⟩

theorem complete_write {written : List M} {pending : List B} {decoded : List M}
    (h : Complete encode written pending decoded) (m : M) :
    Complete encode (written ++ [m]) (pending ++ encode m) decoded := by
  obtain ⟨left, rfl, rfl⟩ := h
  exact ⟨left ++ [m], by simp, by simp⟩

theorem complete_writes {written : List M} {pending : List B} {decoded : List M}
    (h : Complete encode written pending decoded) (ms : List M) :
    Complete encode (written ++ ms) (pending ++ stream encode ms) decoded := by
  obtain ⟨left, rfl, rfl⟩ := h
  exact ⟨left ++ ms, by simp, by simp⟩

/-- The next message is read, alone. -/
theorem complete_next {written : List M} {pending : List B} {decoded : List M}
    (h : Complete encode written pending decoded) {m : M} (hm : written[decoded.length]? = some m) {rest : List B}
    (hrest : pending = encode m ++ rest) : Complete encode written rest (decoded ++ [m]) := by
  obtain ⟨left, rfl, hleft⟩ := h
  rw [List.getElem?_append_right (Nat.le_refl _), Nat.sub_self] at hm
  cases left with
  | nil => cases hm
  | cons n left =>
    cases hm
    refine ⟨left, by simp, List.append_cancel_left (hrest.symm.trans ?_)⟩
    rw [hleft, stream_cons]

theorem Complete.isPrefix {written : List M} {pending : List B} {decoded : List M}
    (h : Complete encode written pending decoded) : decoded <+: written := by
  obtain ⟨left, rfl, -⟩ := h
  exact List.prefix_append _ _

/-- Where nothing is left in the stream, every message that has an encoding
was decoded. -/
theorem Complete.eq_of_nil {written decoded : List M} (h : Complete encode written [] decoded)
    (hne : ∀ m ∈ written, encode m ≠ []) : decoded = written := by
  obtain ⟨left, rfl, hleft⟩ := h
  cases left with
  | nil => exact (List.append_nil _).symm
  | cons m left => exact absurd (List.append_eq_nil_iff.1 hleft.symm).1 (hne m (by simp))

/-- A piece of whole messages is decoded to a message of its own. -/
theorem FindsFirst.inOrder_read (hf : FindsFirst encode decode) {written decoded : List M} {piece rest : List B}
    (h : InOrder encode written (piece ++ rest) decoded) (hw : Whole encode piece) :
    ∃ m, decode piece = some m ∧ InOrder encode written rest (decoded ++ [m]) := by
  obtain ⟨gone, left, rfl, hpending, hsub⟩ := h
  obtain ⟨m, ms, rfl⟩ := hw
  obtain ⟨left, rfl, rfl⟩ := hf.split_stream hpending
  refine ⟨m, hf.decode_stream m ms, gone ++ (m :: ms), left, by simp, rfl, hsub.append ?_⟩
  exact (List.nil_sublist ms).cons_cons m

/-- Reading a piece of whole messages loses none of them exactly if it is one
message. -/
theorem FindsFirst.complete_read_iff (hf : FindsFirst encode decode) {written decoded : List M} {piece rest : List B}
    (h : Complete encode written (piece ++ rest) decoded) (hw : Whole encode piece) {n : M}
    (hn : decode piece = some n) :
    Complete encode written rest (decoded ++ [n]) ↔ ∃ m, piece = encode m := by
  obtain ⟨left, rfl, hpending⟩ := h
  obtain ⟨m, ms, rfl⟩ := hw
  obtain ⟨left, rfl, rfl⟩ := hf.split_stream hpending
  cases (hf.decode_stream m ms).symm.trans hn
  rw [hf.exists_eq_encode_iff]
  constructor
  · rintro ⟨left', he, hstream⟩
    have hsame : ms ++ left = left' := by simpa using he
    subst hsame
    rw [stream_append] at hstream
    exact hf.stream_eq_nil_iff.1 (List.append_left_eq_self.1 hstream.symm)
  · rintro rfl
    exact ⟨left, by simp, rfl⟩

end ComponentsNetwork.Framing
