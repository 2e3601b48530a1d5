import Mathlib.Data.List.Infix
/-!
# Messages on a stream of octets

A writer puts one message after the other on a stream, and a reader takes them
off it in the same order. A write that does not end puts part of a message
there (`none`). The reader cannot tell: it makes something of that part and
what comes after it, and from there on what it reads is anything.
`Carried` relates what was written, what was read and what is in between.
-/

namespace ComponentsNetwork.Streams

variable {M N : Type}

/-- The messages before the first one that was cut. -/
def whole : List (Option M) → List M
  | some m :: ms => m :: whole ms
  | _ => []

/-- What is left on the stream once the reader has taken `m` off it. -/
def read [DecidableEq M] (m : M) : List (Option M) → Option (List (Option M))
  | [] => none
  | none :: ms => some (none :: ms)
  | some m' :: ms => if m' = m then some ms else none

theorem whole_append (ms : List M) (rest : List (Option M)) : whole (ms.map some ++ rest) = ms ++ whole rest := by
  induction ms with
  | nil => rfl
  | cons m ms ih => simp [whole, ih]

/-- What comes after a cut message is not whole. -/
theorem whole_append_of_mem {ms : List (Option M)} (h : none ∈ ms) (rest : List (Option M)) :
    whole (ms ++ rest) = whole ms := by
  induction ms with
  | nil => cases h
  | cons m ms ih =>
    cases m with
    | none => rfl
    | some m => simp only [List.cons_append, whole, ih (by simpa using h)]

/-- How the messages `received` stand to those `written` and those `unread`:
the reader has not reached a cut, or it has, and got all that is before it. -/
inductive Carried (written unread : List (Option M)) (received : List M) : Prop
  | before (fifo : written = received.map some ++ unread)
  | past (cut : none ∈ written) (stuck : unread.head? = some none) (all : whole written <+: received)

theorem Carried.write {written unread : List (Option M)} {received : List M} (h : Carried written unread received)
    (m : Option M) : Carried (written ++ [m]) (unread ++ [m]) received := by
  cases h with
  | before fifo => exact .before (by simp [fifo])
  | past cut stuck all =>
    refine .past (List.mem_append_left _ cut) ?_ ?_
    · rw [List.head?_append, stuck]
      rfl
    · rw [whole_append_of_mem cut]
      exact all

theorem Carried.read [DecidableEq M] {written unread unread' : List (Option M)} {received : List M} {m : M}
    (h : Carried written unread received) (hr : read m unread = some unread') :
    Carried written unread' (received ++ [m]) := by
  rcases unread with _ | ⟨_ | m', unread⟩
  · cases hr
  · cases hr
    cases h with
    | before fifo =>
      refine .past (by simp [fifo]) rfl ?_
      rw [fifo, whole_append]
      simp [whole]
    | past cut stuck all => exact .past cut rfl (all.trans (List.prefix_append received [m]))
  · simp only [Streams.read, Option.ite_none_right_eq_some, Option.some.injEq] at hr
    obtain ⟨rfl, rfl⟩ := hr
    cases h with
    | before fifo => exact .before (by simp [fifo])
    | past cut stuck all => cases stuck

/-- Without a cut nothing is altered. -/
theorem Carried.fifo {written unread : List (Option M)} {received : List M} (h : Carried written unread received)
    (hw : none ∉ written) : written = received.map some ++ unread := by
  cases h with
  | before fifo => exact fifo
  | past cut => exact absurd cut hw

end ComponentsNetwork.Streams
