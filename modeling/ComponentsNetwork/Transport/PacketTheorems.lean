import ComponentsNetwork.Transport.Packet
import ComponentsNetwork.Transport.TextCodec
/-!
# Splitting and reassembling a packet

- `splits_iff`: a packet comes back from its subpackets, in whatever order
  they are collected, if and only if the length of its text is not a positive
  multiple of `MAX_PACKET_SIZE_B`, or its text decodes to it even without the
  last chunk, which a compact codec rules out. The count of subpackets is
  rounded up as `size / MAX + 1`, so a multiple has a subpacket more than it
  has chunks, and the loop gives its last two subpackets nothing.
-/

namespace ComponentsNetwork.TransportLevel.TransportPacket

open Buffers Chunks Numerals

variable {c : Codec} {σ : Sorter TransportPacket subPacketNo}

theorem maxPacketSize_pos : 0 < MAX_PACKET_SIZE_B := by decide

/-! ## Texts -/

@[simp] theorem load_serialized (p : TransportPacket) (f : Serialized) : (p.load f).serialized = f := rfl

@[simp] theorem load_token (p : TransportPacket) (f : Serialized) : (p.load f).token = p.token := rfl

/-- Reading a packet's text restores the fields that are saved, and leaves the
token of the packet read into. -/
theorem fromString_toString (hc : c.Lawful) (p q : TransportPacket) :
    q.fromString c (p.toString c) = (true, q.load p.serialized) := by
  unfold fromString toString
  simp only [hc.decodeHex_encodeHex, hc.aes256decrypt_encrypt, hc.iarchive_oarchive]

/-- Whether a text decodes, and to which fields, does not depend on the packet
read into. -/
theorem fromString_fields (p q : TransportPacket) (t : Bytes) :
    (p.fromString c t).1 = (q.fromString c t).1 ∧
      ((p.fromString c t).1 = true → (p.fromString c t).2.serialized = (q.fromString c t).2.serialized) := by
  unfold fromString
  split
  · exact ⟨rfl, fun hok => by cases hok⟩
  · split
    · exact ⟨rfl, fun _ => rfl⟩
    · exact ⟨rfl, fun hok => by cases hok⟩

theorem fromString_token (p : TransportPacket) (t : Bytes) : (p.fromString c t).2.token = p.token := by
  unfold fromString
  split
  · rfl
  · split <;> rfl

/-- No text shorter than a packet's own decodes to its fields. -/
theorem length_toString_le (hk : c.Compact) {p q : TransportPacket} {t : Bytes}
    (h : (q.fromString c t).1 = true) (hf : (q.fromString c t).2.serialized = p.serialized) :
    (p.toString c).length ≤ t.length := by
  unfold fromString at h hf
  cases hd : c.decodeHex t with
  | none => simp [hd] at h
  | some b =>
    simp only [hd] at h hf
    cases ha : c.iarchive (c.aes256decrypt b c.encryptionKey) with
    | error f => simp [ha] at h
    | ok f =>
      simp only [ha, load_serialized] at hf
      subst hf
      have harchive := hk.length_oarchive_le _ _ ha
      have hcipher := hk.length_aes256encrypt_le _ _ _ (hk.oarchive_ne_nil p.serialized) harchive
      rw [toString, hk.length_encodeHex, hk.length_of_decodeHex t b hd]
      omega

/-! ## Subpackets -/

/-- The number of subpackets a packet is cut into. -/
def subpacketCount (c : Codec) (p : TransportPacket) : Nat := (p.toString c).length / MAX_PACKET_SIZE_B + 1

@[simp] theorem length_subpackets (p : TransportPacket) : (p.subpackets c).length = p.subpacketCount c := by
  simp [subpackets, subpacketCount]

theorem subpackets_numbers (p : TransportPacket) :
    (p.subpackets c).map subPacketNo = List.range (p.subpackets c).length := by
  apply List.ext_getElem
  · simp
  · intro i h₁ h₂
    simp [subpackets]

theorem subpackets_payloads (p : TransportPacket) :
    (p.subpackets c).map (·.payload) =
      cut (blockSize MAX_PACKET_SIZE_B (p.toString c).length) 0 (p.subpacketCount c) (p.toString c) := by
  apply List.ext_getElem
  · simp
  · intro i h₁ h₂
    simp [subpackets, subpacketCount]

theorem joined_subpackets (p : TransportPacket) :
    joined (p.subpackets c) = (p.toString c).take
      (extent (blockSize MAX_PACKET_SIZE_B (p.toString c).length) 0 (p.subpacketCount c)) := by
  rw [joined, subpackets_payloads, flatten_cut]

theorem mem_subpackets {p sp : TransportPacket} (h : sp ∈ p.subpackets c) :
    sp.token = [] ∧ sp.guid = p.guid ∧ sp.type = p.type ∧ sp.subPacketTotalCount = p.subpacketCount c ∧
      sp.payload.length ≤ MAX_PACKET_SIZE_B ∧ sp.payload <:+: p.toString c := by
  obtain ⟨i, hi, rfl⟩ := List.mem_mapIdx.1 h
  exact ⟨rfl, rfl, rfl, rfl, length_le_of_mem_cut (blockSize_le maxPacketSize_pos _) (List.getElem_mem _),
    infix_of_mem_cut (List.getElem_mem _)⟩

/-- The packets decoded of a packet's subpacket texts are its subpackets. -/
theorem decode_toSubpackets (hc : c.Lawful) (p : TransportPacket) :
    (p.toSubpackets c).map (fromString c {}) = (p.subpackets c).map fun sp => (true, sp) := by
  rw [toSubpackets, List.map_map]
  apply List.map_congr_left
  intro sp hsp
  have htoken : sp.token = [] := (mem_subpackets hsp).1
  dsimp only [Function.comp_apply]
  rw [fromString_toString hc]
  obtain ⟨token, guid, type, no, total, payload⟩ := sp
  cases htoken
  rfl

/-- Unless the last chunk is lost, the payloads are the packet's text. -/
theorem joined_subpackets_eq {p : TransportPacket}
    (h : ¬ (0 < (p.toString c).length ∧ MAX_PACKET_SIZE_B ∣ (p.toString c).length)) :
    joined (p.subpackets c) = p.toString c := by
  rw [joined_subpackets, subpacketCount, extent_blockSize maxPacketSize_pos, if_neg h, List.take_length]

/-- A text without its last `MAX_PACKET_SIZE_B` characters. -/
def withoutLastChunk (t : Bytes) : Bytes := t.take (t.length - MAX_PACKET_SIZE_B)

theorem length_withoutLastChunk {t : Bytes} (h : 0 < t.length) : (withoutLastChunk t).length < t.length := by
  have := maxPacketSize_pos
  rw [withoutLastChunk, List.length_take]
  omega

/-- If it is lost, they are the text without it. -/
theorem joined_subpackets_lost {p : TransportPacket}
    (h : 0 < (p.toString c).length ∧ MAX_PACKET_SIZE_B ∣ (p.toString c).length) :
    joined (p.subpackets c) = withoutLastChunk (p.toString c) := by
  rw [joined_subpackets, subpacketCount, extent_blockSize maxPacketSize_pos, if_pos h, withoutLastChunk]

/-- Subpackets collected in any order are put back in theirs. -/
theorem fromSubpackets_perm {p : TransportPacket} {ps : List TransportPacket} (h : ps.Perm (p.subpackets c))
    (q : TransportPacket) :
    q.fromSubpackets c σ ps = (q.fromString c (joined (p.subpackets c)), p.subpackets c) := by
  unfold fromSubpackets
  rw [σ.sort_numbered (subpackets_numbers p) h]

/-! ## The round trip -/

/-- Splitting `p` loses nothing: its subpackets' texts decode, the subpackets
carry the numbers from 0 on once each, their count and a chunk of its text of
at most `MAX_PACKET_SIZE_B`, and from every order of them it comes back. -/
def Splits (c : Codec) (σ : Sorter TransportPacket subPacketNo) (p : TransportPacket) : Prop :=
  ∃ sps : List TransportPacket, (p.toSubpackets c).map (fromString c {}) = sps.map (fun sp => (true, sp)) ∧
    sps.map subPacketNo = List.range sps.length ∧
    (∀ sp ∈ sps, sp.subPacketTotalCount = sps.length ∧ sp.payload.length ≤ MAX_PACKET_SIZE_B ∧
      sp.payload <:+: p.toString c) ∧
    ∀ ps, ps.Perm sps → ∀ q : TransportPacket,
      (q.fromSubpackets c σ ps).1.1 = true ∧ (q.fromSubpackets c σ ps).1.2.serialized = p.serialized

/-- The last chunk of `p`'s text is not needed to decode it. -/
def Redundant (c : Codec) (p : TransportPacket) : Prop :=
  (fromString c {} (withoutLastChunk (p.toString c))).1 = true ∧
    (fromString c {} (withoutLastChunk (p.toString c))).2.serialized = p.serialized

theorem not_redundant (hk : c.Compact) {p : TransportPacket} (h : 0 < (p.toString c).length) : ¬ Redundant c p := by
  rintro ⟨hok, hfields⟩
  exact absurd (length_withoutLastChunk h) (Nat.not_lt.2 (length_toString_le hk hok hfields))

/-- All that splitting can fail in is the decoding of what the subpackets'
payloads join to. -/
theorem splits_iff_joined (hc : c.Lawful) (p : TransportPacket) :
    Splits c σ p ↔ (fromString c {} (joined (p.subpackets c))).1 = true ∧
      (fromString c {} (joined (p.subpackets c))).2.serialized = p.serialized := by
  constructor
  · rintro ⟨sps, hdecode, -, -, hback⟩
    rw [decode_toSubpackets hc] at hdecode
    have hsps : p.subpackets c = sps := List.map_injective_iff.2 (fun a b h => by simpa using h) hdecode
    have hall := hback (p.subpackets c) (by rw [hsps]) {}
    rwa [fromSubpackets_perm (List.Perm.refl _)] at hall
  · rintro ⟨hok, hfields⟩
    refine ⟨p.subpackets c, decode_toSubpackets hc p, subpackets_numbers p, ?_, ?_⟩
    · intro sp hsp
      obtain ⟨-, -, -, htotal, hlen, hinfix⟩ := mem_subpackets hsp
      exact ⟨by rw [htotal, length_subpackets], hlen, hinfix⟩
    · intro ps hps q
      obtain ⟨hsame, hload⟩ := fromString_fields (c := c) {} q (joined (p.subpackets c))
      rw [fromSubpackets_perm hps]
      exact ⟨hsame.symm.trans hok, (hload hok).symm.trans hfields⟩

/-- A packet whose last chunk is lost comes back exactly if what is left of
its text decodes to it. -/
theorem splits_iff_redundant (hc : c.Lawful) {p : TransportPacket}
    (hlost : 0 < (p.toString c).length ∧ MAX_PACKET_SIZE_B ∣ (p.toString c).length) :
    Splits c σ p ↔ Redundant c p := by
  rw [splits_iff_joined hc, joined_subpackets_lost hlost]
  exact Iff.rfl

theorem splits_of_not_lost (hc : c.Lawful) {p : TransportPacket}
    (h : ¬ (0 < (p.toString c).length ∧ MAX_PACKET_SIZE_B ∣ (p.toString c).length)) : Splits c σ p := by
  rw [splits_iff_joined hc, joined_subpackets_eq h, fromString_toString hc]
  exact ⟨rfl, rfl⟩

/-- The round trip holds exactly for the packets whose text's length is not a
positive multiple of the size of a chunk, or whose last chunk the codec does
not need; a compact codec needs it. -/
theorem splits_iff (hc : c.Lawful) (p : TransportPacket) :
    (Splits c σ p ↔
      ¬ (0 < (p.toString c).length ∧ MAX_PACKET_SIZE_B ∣ (p.toString c).length) ∨ Redundant c p) ∧
    (c.Compact →
      (Splits c σ p ↔ ¬ (0 < (p.toString c).length ∧ MAX_PACKET_SIZE_B ∣ (p.toString c).length))) := by
  by_cases hlost : 0 < (p.toString c).length ∧ MAX_PACKET_SIZE_B ∣ (p.toString c).length
  · have hsplits := splits_iff_redundant (σ := σ) hc hlost
    constructor
    · rw [hsplits, or_iff_right (not_not_intro hlost)]
    · intro hk
      rw [hsplits]
      exact iff_of_false (not_redundant hk hlost.1) (not_not_intro hlost)
  · have hsplits := splits_of_not_lost (σ := σ) hc hlost
    exact ⟨iff_of_true hsplits (.inl hlost), fun _ => iff_of_true hsplits hlost⟩

theorem length_toString_request (guid payload : Bytes) :
    (toString textCodec { guid, payload }).length =
      2 * (42 + (numeral guid.length).length + guid.length + (numeral payload.length).length + payload.length) := by
  have hzero : (numeral 0).length = 1 := length_numeral_digit (by decide)
  have hheader : archiveHeader.length = 32 := by decide
  rw [length_toString, hheader]
  simp only [saveFields, saveString, saveNumber, serialized, TPacketType.index, List.length_append, List.length_cons,
    hzero]
  omega

/-- A packet that is split in three. -/
def threeChunks : TransportPacket := { payload := List.replicate 9000 0 }

theorem length_threeChunks : (threeChunks.toString textCodec).length = 18094 := by
  rw [threeChunks, length_toString_request, List.length_nil, length_numeral_digit (by decide), List.length_replicate,
    length_numeral_four (by decide) (by decide)]

theorem splits_iff_threeChunks : Splits textCodec .merge threeChunks ∧ (threeChunks.subpackets textCodec).length = 3 := by
  refine ⟨((splits_iff textCodec_lawful threeChunks).2 textCodec_compact).2 ?_, ?_⟩
  · rw [length_threeChunks]
    decide
  · rw [length_subpackets, subpacketCount, length_threeChunks]
    rfl

/-- A packet whose text has exactly `MAX_PACKET_SIZE_B` characters. -/
def oneChunk : TransportPacket := { payload := List.replicate 3953 0 }

theorem length_oneChunk : (oneChunk.toString textCodec).length = MAX_PACKET_SIZE_B := by
  rw [oneChunk, length_toString_request, List.length_nil, length_numeral_digit (by decide), List.length_replicate,
    length_numeral_four (by decide) (by decide)]
  rfl

theorem one_chunk_lost : textCodec.Lawful ∧ ¬ Splits textCodec .merge oneChunk := by
  have hpos : 0 < (oneChunk.toString textCodec).length := by
    rw [length_oneChunk]
    exact maxPacketSize_pos
  have hdvd : MAX_PACKET_SIZE_B ∣ (oneChunk.toString textCodec).length := ⟨1, by rw [length_oneChunk, Nat.mul_one]⟩
  refine ⟨textCodec_lawful, ?_⟩
  intro hsplits
  exact not_redundant textCodec_compact hpos ((splits_iff_redundant textCodec_lawful ⟨hpos, hdvd⟩).1 hsplits)

end ComponentsNetwork.TransportLevel.TransportPacket
