import ComponentsNetwork.Legacy.Exchange
import ComponentsNetwork.Transport.TextCodec
/-!
# A codec for the exchange

Hexadecimal, and the text archive of Boost for the fields of a packet, in the
notation of `TextCodec.lean`. `archiveCodec_lawful` says that it is as the
component's codec is relied on to be.
-/

namespace ComponentsNetwork.Legacy.Exchange

open Buffers Numerals TransportLevel

/-- A space and the digits, after a sign if there is one. -/
def saveInt (i : Int32) : Bytes := 32 :: ((if i.toInt < 0 then [45] else []) ++ numeral i.toInt.natAbs)

def loadInt (t : Bytes) : Option (Int32 × Bytes) :=
  match t with
  | 32 :: 45 :: t => (readNumeral t).map fun x => (.ofInt (-x.1), x.2)
  | 32 :: t => (readNumeral t).map fun x => (.ofInt x.1, x.2)
  | _ => none

theorem loadInt_saveInt (i : Int32) {rest : Bytes} (hrest : ∀ d ∈ rest.head?, isDigit d = false) :
    loadInt (saveInt i ++ rest) = some (i, rest) := by
  have hread := readNumeral_numeral i.toInt.natAbs hrest
  unfold saveInt
  by_cases hneg : i.toInt < 0
  · have habs : -(i.toInt.natAbs : Int) = i.toInt := by omega
    rw [if_pos hneg]
    show (readNumeral (numeral i.toInt.natAbs ++ rest)).map (fun x => (Int32.ofInt (-x.1), x.2)) = _
    rw [hread, Option.map_some, habs, Int32.ofInt_toInt]
  · have habs : (i.toInt.natAbs : Int) = i.toInt := by omega
    -- The text begins with a digit, so not with a sign.
    obtain ⟨d, ds, hd⟩ := List.exists_cons_of_ne_nil (numeral_ne_nil i.toInt.natAbs)
    have hdigit : isDigit d = true := numeral_digits i.toInt.natAbs d (by simp [hd])
    have hsign : d ≠ 45 := by
      rintro rfl
      exact absurd hdigit (by decide)
    rw [hd] at hread ⊢
    simp only [hneg, if_false, List.nil_append, List.cons_append] at hread ⊢
    unfold loadInt
    split
    · next t he =>
      simp only [List.cons.injEq, true_and] at he
      exact absurd he.1 hsign
    · next t _ he =>
      simp only [List.cons.injEq, true_and] at he
      subst he
      simp [hread, habs]
    · next _ hno => exact absurd rfl (hno _)

def saveFields (f : Serialized) : Bytes := saveInt f.type ++ (saveString f.command ++ saveString f.data)

def loadFields (t : Bytes) : Option Serialized := do
  let (type, t) ← loadInt t
  let (command, t) ← loadString t
  let (data, _) ← loadString t
  some ⟨type, command, data⟩

def archiveCodec : Codec where
  encodeHex := toHex
  decodeHex := fromHex
  oarchive f := archiveHeader ++ saveFields f
  iarchive t := if archiveHeader <+: t then loadFields (t.drop archiveHeader.length) else none

theorem archiveCodec_lawful : archiveCodec.Lawful where
  decodeHex_encodeHex := fromHex_toHex
  decodeHex_append := fromHex_append
  length_encodeHex := length_toHex
  oarchive_ne_nil f := by
    have hpos : 0 < archiveHeader.length := by decide
    exact List.append_ne_nil_of_left_ne_nil (List.length_pos_iff.1 hpos) _
  iarchive_oarchive f rest := by
    have hspace : ∀ d ∈ (saveString f.command ++ (saveString f.data ++ rest)).head?, isDigit d = false := by
      intro d hd
      cases hd
      rfl
    unfold archiveCodec
    dsimp only
    rw [List.append_assoc, if_pos (List.prefix_append _ _), List.drop_left]
    simp only [loadFields, saveFields, List.append_assoc, loadInt_saveInt f.type hspace, loadString_saveString,
      Option.bind_eq_bind, Option.bind_some]

end ComponentsNetwork.Legacy.Exchange
