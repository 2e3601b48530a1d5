import ComponentsNetwork.Lib.Buffers
import Mathlib.Data.List.Induction
import Mathlib.Data.List.TakeWhile
/-!
# Numbers and octets as text

Hexadecimal texts of octet strings and decimal texts of numbers, each with its
reader. A reader restores what was written, and nothing shorter than what the
writer writes reads the same.
-/

namespace ComponentsNetwork.Numerals

open Buffers

/-! ## Hexadecimal -/

def hexDigit (n : Nat) : UInt8 := if n < 10 then .ofNat (48 + n) else .ofNat (55 + n)

/-- Both cases are read, capitals are written. -/
def hexValue (d : UInt8) : Option Nat :=
  let n := d.toNat
  if 48 ≤ n ∧ n ≤ 57 then some (n - 48)
  else if 65 ≤ n ∧ n ≤ 70 then some (n - 55)
  else if 97 ≤ n ∧ n ≤ 102 then some (n - 87)
  else none

def toHex (b : Bytes) : Bytes := b.flatMap fun x => [hexDigit (x.toNat / 16), hexDigit (x.toNat % 16)]

def fromHex : Bytes → Option Bytes
  | [] => some []
  | [_] => none
  | h :: l :: t =>
    (hexValue h).bind fun h => (hexValue l).bind fun l => (fromHex t).map fun b => .ofNat (16 * h + l) :: b

theorem hexValue_hexDigit : ∀ n < 16, hexValue (hexDigit n) = some n ∧ hexDigit n ≠ 0 := by decide

theorem fromHex_toHex (b : Bytes) : fromHex (toHex b) = some b := by
  induction b with
  | nil => rfl
  | cons x b ih =>
    have hx : x.toNat < 256 := x.toNat_lt
    have hhigh := (hexValue_hexDigit (x.toNat / 16) (by omega)).1
    have hlow := (hexValue_hexDigit (x.toNat % 16) (by omega)).1
    have hback : UInt8.ofNat (16 * (x.toNat / 16) + x.toNat % 16) = x := by
      rw [Nat.div_add_mod]
      exact UInt8.ofNat_toNat
    have hcons : toHex (x :: b) = hexDigit (x.toNat / 16) :: hexDigit (x.toNat % 16) :: toHex b := rfl
    rw [hcons, fromHex, hhigh, hlow, ih]
    simp only [Option.bind_some, Option.map_some, hback]

/-- What follows a text does not change how the text is read. -/
theorem fromHex_append (b t : Bytes) : fromHex (toHex b ++ t) = (fromHex t).map fun rest => b ++ rest := by
  induction b with
  | nil => simp [toHex]
  | cons x b ih =>
    have hx : x.toNat < 256 := x.toNat_lt
    have hhigh := (hexValue_hexDigit (x.toNat / 16) (by omega)).1
    have hlow := (hexValue_hexDigit (x.toNat % 16) (by omega)).1
    have hback : UInt8.ofNat (16 * (x.toNat / 16) + x.toNat % 16) = x := by
      rw [Nat.div_add_mod]
      exact UInt8.ofNat_toNat
    have hcons : toHex (x :: b) ++ t = hexDigit (x.toNat / 16) :: hexDigit (x.toNat % 16) :: (toHex b ++ t) := rfl
    rw [hcons, fromHex, hhigh, hlow, ih]
    simp only [Option.bind_some, Option.map_map, Function.comp_def, hback, List.cons_append]

theorem toHex_nonzero (b : Bytes) : 0 ∉ toHex b := by
  intro h
  obtain ⟨x, -, hx⟩ := List.mem_flatMap.1 h
  have hlt : x.toNat < 256 := x.toNat_lt
  have hhigh := (hexValue_hexDigit (x.toNat / 16) (by omega)).2
  have hlow := (hexValue_hexDigit (x.toNat % 16) (by omega)).2
  rcases List.mem_cons.1 hx with h | h
  · exact hhigh h.symm
  · exact hlow (List.mem_singleton.1 h).symm

theorem length_toHex (b : Bytes) : (toHex b).length = 2 * b.length := by
  induction b with
  | nil => rfl
  | cons x b ih =>
    have hcons : toHex (x :: b) = hexDigit (x.toNat / 16) :: hexDigit (x.toNat % 16) :: toHex b := rfl
    rw [hcons]
    simp only [List.length_cons, ih]
    omega

theorem length_of_fromHex {t b : Bytes} (h : fromHex t = some b) : t.length = 2 * b.length := by
  induction t using fromHex.induct generalizing b with
  | case1 => cases h; rfl
  | case2 => cases h
  | case3 h' l t ih =>
    simp only [fromHex, Option.bind_eq_some_iff, Option.map_eq_some_iff] at h
    obtain ⟨_, -, _, -, rest, hrest, rfl⟩ := h
    simp only [List.length_cons, ih hrest]
    omega

/-! ## Decimal -/

def digit (n : Nat) : UInt8 := .ofNat (48 + n)

def isDigit (d : UInt8) : Bool := 48 ≤ d.toNat && d.toNat ≤ 57

def numeral (n : Nat) : Bytes := if n < 10 then [digit n] else numeral (n / 10) ++ [digit (n % 10)]

/-- The number that digits stand for. -/
def value (ds : Bytes) : Nat := ds.foldl (fun v d => 10 * v + (d.toNat - 48)) 0

theorem digit_spec : ∀ n < 10, isDigit (digit n) = true ∧ (digit n).toNat - 48 = n := by decide

theorem value_concat (ds : Bytes) (d : UInt8) : value (ds ++ [d]) = 10 * value ds + (d.toNat - 48) := by
  simp [value, List.foldl_append]

theorem numeral_ne_nil (n : Nat) : numeral n ≠ [] := by
  rw [numeral]
  split <;> simp

theorem length_numeral_digit {n : Nat} (h : n < 10) : (numeral n).length = 1 := by
  rw [numeral, if_pos h]
  rfl

theorem length_numeral_step {n : Nat} (h : 10 ≤ n) : (numeral n).length = (numeral (n / 10)).length + 1 := by
  rw [numeral, if_neg (by omega), List.length_append, List.length_singleton]

theorem length_numeral_four {n : Nat} (h : 1000 ≤ n) (h' : n < 10000) : (numeral n).length = 4 := by
  rw [length_numeral_step (by omega), length_numeral_step (by omega), length_numeral_step (by omega),
    length_numeral_digit (by omega)]

theorem numeral_digits (n : Nat) : ∀ d ∈ numeral n, isDigit d = true := by
  induction n using numeral.induct with
  | case1 n h =>
    rw [numeral, if_pos h]
    intro d hd
    rw [List.mem_singleton.1 hd]
    exact (digit_spec n h).1
  | case2 n h ih =>
    rw [numeral, if_neg h]
    intro d hd
    rcases List.mem_append.1 hd with hd | hd
    · exact ih d hd
    · rw [List.mem_singleton.1 hd]
      exact (digit_spec _ (Nat.mod_lt _ (by omega))).1

theorem value_numeral (n : Nat) : value (numeral n) = n := by
  induction n using numeral.induct with
  | case1 n h =>
    rw [numeral, if_pos h]
    simpa [value] using (digit_spec n h).2
  | case2 n h ih =>
    rw [numeral, if_neg h, value_concat, ih, (digit_spec _ (Nat.mod_lt _ (by omega))).2]
    omega

/-- No shorter digits stand for a number than its numeral. -/
theorem length_numeral_le {ds : Bytes} (hne : ds ≠ []) (hd : ∀ d ∈ ds, isDigit d = true) :
    (numeral (value ds)).length ≤ ds.length := by
  induction ds using List.reverseRecOn with
  | nil => exact absurd rfl hne
  | append_singleton ds d ih =>
    have hlast : d.toNat - 48 < 10 := by
      have := hd d (by simp)
      simp only [isDigit, Bool.and_eq_true, decide_eq_true_eq] at this
      omega
    rw [value_concat, numeral]
    split
    · simp
    · next h =>
      have hv : (10 * value ds + (d.toNat - 48)) / 10 = value ds := by omega
      have hds : ds ≠ [] := by
        rintro rfl
        simp [value] at h
        omega
      rw [hv]
      have := ih hds fun d hd' => hd d (by simp [hd'])
      simp only [List.length_append, List.length_singleton]
      omega

/-- The number a text starts with, and what is behind it. -/
def readNumeral (t : Bytes) : Option (Nat × Bytes) :=
  if t.takeWhile isDigit = [] then none else some (value (t.takeWhile isDigit), t.dropWhile isDigit)

theorem readNumeral_numeral (n : Nat) {rest : Bytes} (hrest : ∀ d ∈ rest.head?, isDigit d = false) :
    readNumeral (numeral n ++ rest) = some (n, rest) := by
  have htake : (numeral n ++ rest).takeWhile isDigit = numeral n := by
    rw [List.takeWhile_append_of_pos (numeral_digits n)]
    cases rest with
    | nil => simp
    | cons d rest => simp [hrest d rfl]
  have hdrop : (numeral n ++ rest).dropWhile isDigit = rest := by
    rw [List.dropWhile_append_of_pos (numeral_digits n)]
    cases rest with
    | nil => rfl
    | cons d rest => simp [hrest d rfl]
  unfold readNumeral
  rw [htake, hdrop, if_neg (numeral_ne_nil n), value_numeral]

theorem length_of_readNumeral {t rest : Bytes} {n : Nat} (h : readNumeral t = some (n, rest)) :
    (numeral n).length + rest.length ≤ t.length := by
  unfold readNumeral at h
  split at h
  · cases h
  · next hne =>
    cases h
    have hle := length_numeral_le hne fun d hd => List.mem_takeWhile_imp hd
    have hlen := congrArg List.length (List.takeWhile_append_dropWhile (p := isDigit) (l := t))
    rw [List.length_append] at hlen
    omega

end ComponentsNetwork.Numerals
