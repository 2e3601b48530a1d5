import ComponentsNetwork.Lib.Numerals
import ComponentsNetwork.Transport.Packet
/-!
# A codec

A codec in the format of the component's: hexadecimal, a cipher that keeps
the length of a text (here the key laid over it), and the text archive of
Boost, which writes a space and a token for each number, and the length before
each string. `textCodec_lawful` and `textCodec_compact` say that it is as the
component's codec is relied on to be.
-/

namespace ComponentsNetwork.TransportLevel

open Buffers Numerals

/-! ## The cipher -/

/-- The text, with the key laid over it again and again. -/
def overlayKey (b key : Bytes) : Bytes := b.mapIdx fun i x => x ^^^ key.getD (i % key.length) 0

theorem overlayKey_overlayKey (b key : Bytes) : overlayKey (overlayKey b key) key = b := by
  apply List.ext_getElem
  · simp [overlayKey]
  · intro i h₁ h₂
    simp only [overlayKey, List.getElem_mapIdx, UInt8.xor_assoc, UInt8.xor_self, UInt8.xor_zero]

@[simp] theorem length_overlayKey (b key : Bytes) : (overlayKey b key).length = b.length := by
  simp [overlayKey]

/-! ## The archive -/

def TPacketType.index : TPacketType → Nat
  | .Invalid => 0
  | .ToClient => 1
  | .ToServer => 2
  | .Error => 3

def TPacketType.ofIndex : Nat → TPacketType
  | 0 => .Invalid
  | 1 => .ToClient
  | 2 => .ToServer
  | _ => .Error

def archiveHeader : Bytes := octets "22 serialization::archive 19 0 0"

/-- A space and a token. -/
def saveNumber (n : Nat) : Bytes := 32 :: numeral n

def saveString (s : Bytes) : Bytes := saveNumber s.length ++ 32 :: s

def loadNumber : Bytes → Option (Nat × Bytes)
  | [] => none
  | d :: t => if d = 32 then readNumeral t else none

def loadString (t : Bytes) : Option (Bytes × Bytes) :=
  match loadNumber t with
  | some (n, d :: t) => if d = 32 ∧ n ≤ t.length then some (t.take n, t.drop n) else none
  | _ => none

def saveFields (f : Serialized) : Bytes :=
  saveString f.guid ++ (saveNumber f.type.index ++ (saveNumber f.subPacketNo ++
    (saveNumber f.subPacketTotalCount ++ saveString f.payload)))

/-- The fields, in order; a field that cannot be read ends the load. -/
def loadFields (t : Bytes) : Except Restored Serialized :=
  match loadString t with
  | none => .error {}
  | some (guid, t) =>
    match loadNumber t with
    | none => .error { guid }
    | some (type, t) =>
      let type := TPacketType.ofIndex type
      match loadNumber t with
      | none => .error { guid, type }
      | some (subPacketNo, t) =>
        match loadNumber t with
        | none => .error { guid, type, subPacketNo }
        | some (subPacketTotalCount, t) =>
          match loadString t with
          | none => .error { guid, type, subPacketNo, subPacketTotalCount }
          | some (payload, _) => .ok ⟨guid, type, subPacketNo, subPacketTotalCount, payload⟩

def loadArchive (t : Bytes) : Except Restored Serialized :=
  if archiveHeader <+: t then loadFields (t.drop archiveHeader.length) else .error {}

theorem loadNumber_saveNumber (n : Nat) {rest : Bytes} (hrest : ∀ d ∈ rest.head?, isDigit d = false) :
    loadNumber (saveNumber n ++ rest) = some (n, rest) := by
  rw [saveNumber, List.cons_append, loadNumber, if_pos rfl, readNumeral_numeral n hrest]

theorem length_of_loadNumber {t rest : Bytes} {n : Nat} (h : loadNumber t = some (n, rest)) :
    (saveNumber n).length + rest.length ≤ t.length := by
  cases t with
  | nil => cases h
  | cons d t =>
    simp only [loadNumber, Option.ite_none_right_eq_some] at h
    have := length_of_readNumeral h.2
    simp only [saveNumber, List.length_cons]
    omega

theorem loadString_saveString (s rest : Bytes) : loadString (saveString s ++ rest) = some (s, rest) := by
  have hnumber : loadNumber (saveString s ++ rest) = some (s.length, 32 :: (s ++ rest)) := by
    rw [saveString, List.append_assoc, List.cons_append]
    apply loadNumber_saveNumber
    intro d hd
    cases hd
    rfl
  unfold loadString
  rw [hnumber]
  simp

theorem length_of_loadString {t s rest : Bytes} (h : loadString t = some (s, rest)) :
    (saveString s).length + rest.length ≤ t.length := by
  unfold loadString at h
  split at h
  · next n d t' hn =>
    simp only [Option.ite_none_right_eq_some, Option.some.injEq, Prod.mk.injEq] at h
    obtain ⟨⟨-, hle⟩, rfl, rfl⟩ := h
    have hnumber := length_of_loadNumber hn
    have htake : (t'.take n).length = n := by rw [List.length_take, Nat.min_eq_left hle]
    simp only [saveString, htake, List.length_append, List.length_cons, List.length_drop] at hnumber ⊢
    omega
  · cases h

theorem type_ofIndex_index (t : TPacketType) : TPacketType.ofIndex t.index = t := by
  cases t <;> rfl

theorem loadFields_saveFields (f : Serialized) : loadFields (saveFields f) = .ok f := by
  have hspace : ∀ n rest, ∀ d ∈ (saveNumber n ++ rest).head?, isDigit d = false := by
    intro n rest d hd
    cases hd
    rfl
  have hpayload : loadString (saveString f.payload) = some (f.payload, []) := by
    simpa using loadString_saveString f.payload []
  have htype := loadNumber_saveNumber f.type.index
    (hspace f.subPacketNo (saveNumber f.subPacketTotalCount ++ saveString f.payload))
  have hno := loadNumber_saveNumber f.subPacketNo (hspace f.subPacketTotalCount (saveString f.payload))
  have hstring : ∀ d ∈ (saveString f.payload).head?, isDigit d = false := by
    intro d hd
    cases hd
    rfl
  have htotal := loadNumber_saveNumber f.subPacketTotalCount hstring
  unfold loadFields saveFields
  simp only [loadString_saveString, htype, hno, htotal, hpayload, type_ofIndex_index]

theorem length_numeral_type (t : TPacketType) : (numeral t.index).length = 1 := by
  apply length_numeral_digit
  cases t <;> decide

theorem length_of_loadFields {t : Bytes} {f : Serialized} (h : loadFields t = .ok f) :
    (saveFields f).length ≤ t.length := by
  unfold loadFields at h
  split at h
  · cases h
  · next guid t₁ hguid =>
    split at h
    · cases h
    · next type t₂ htype =>
      dsimp only at h
      split at h
      · cases h
      · next no t₃ hno =>
        split at h
        · cases h
        · next total t₄ htotal =>
          split at h
          · cases h
          · next payload t₅ hpayload =>
            cases h
            have h1 := length_of_loadString hguid
            have h2 := length_of_loadNumber htype
            have h3 := length_of_loadNumber hno
            have h4 := length_of_loadNumber htotal
            have h5 := length_of_loadString hpayload
            have htypes : (saveNumber (TPacketType.ofIndex type).index).length ≤ (saveNumber type).length := by
              have hne := List.length_pos_iff.2 (numeral_ne_nil type)
              simp only [saveNumber, List.length_cons, length_numeral_type]
              omega
            simp only [saveFields, List.length_append]
            omega

/-! ## The codec -/

def textCodec : Codec where
  encryptionKey := octets "H1#32%2$67h*0H@E3453H&2hk$hK7^6&"
  encodeHex := toHex
  decodeHex := fromHex
  aes256encrypt := overlayKey
  aes256decrypt := overlayKey
  oarchive f := archiveHeader ++ saveFields f
  iarchive := loadArchive

theorem textCodec_lawful : textCodec.Lawful where
  decodeHex_encodeHex := fromHex_toHex
  aes256decrypt_encrypt := overlayKey_overlayKey
  iarchive_oarchive f := by
    show loadArchive (archiveHeader ++ saveFields f) = .ok f
    rw [loadArchive, if_pos (List.prefix_append _ _), List.drop_left]
    exact loadFields_saveFields f
  encodeHex_nonzero := toHex_nonzero

theorem textCodec_compact : textCodec.Compact where
  length_of_decodeHex _ _ h := length_of_fromHex h
  length_encodeHex := length_toHex
  length_aes256encrypt_le b t key _ h := by
    simpa [textCodec] using h
  oarchive_ne_nil f := by
    have hpos : 0 < archiveHeader.length := by decide
    exact List.append_ne_nil_of_left_ne_nil (List.length_pos_iff.1 hpos) _
  length_oarchive_le t f h := by
    have hload : loadArchive t = .ok f := h
    show (archiveHeader ++ saveFields f).length ≤ t.length
    unfold loadArchive at hload
    split at hload
    · next hp =>
      have hfields := length_of_loadFields hload
      have hheader := hp.length_le
      rw [List.length_drop] at hfields
      rw [List.length_append]
      omega
    · cases hload

/-- The length of a packet's text. -/
theorem length_toString (p : TransportPacket) :
    (p.toString textCodec).length = 2 * (archiveHeader.length + (saveFields p.serialized).length) := by
  show (toHex (overlayKey (archiveHeader ++ saveFields p.serialized) _)).length = _
  rw [length_toHex, length_overlayKey, List.length_append]

end ComponentsNetwork.TransportLevel
