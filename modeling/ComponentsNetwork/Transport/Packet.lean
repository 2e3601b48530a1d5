import ComponentsNetwork.Lib.Buffers
import ComponentsNetwork.Lib.Chunks
/-!
# Transport packets

`transportpacket.h` and `transportpacket.cpp`. A packet travels as a text: its
archive, encrypted, in hexadecimal. A packet too large for that is cut: the
text of the whole packet goes, in chunks, as the payloads of subpackets.

The encoding functions and the archive are not part of the repository. They
are a `Codec`, of which `Codec.Lawful` states what the component relies on.
-/

namespace ComponentsNetwork.TransportLevel

open Buffers Chunks

def MAX_PACKET_SIZE_B : Nat := 8000

inductive TPacketType
  | Invalid
  | ToClient
  | ToServer
  | Error
deriving DecidableEq, Repr

structure TransportPacket where
  token : Bytes := []
  guid : Bytes := []
  type : TPacketType := .Invalid
  subPacketNo : Nat := 0
  subPacketTotalCount : Nat := 0
  payload : Bytes := []
deriving DecidableEq, Repr

/-! ## What the packets are encoded with -/

/-- The fields listed in `serialize`. -/
structure Serialized where
  guid : Bytes
  type : TPacketType
  subPacketNo : Nat
  subPacketTotalCount : Nat
  payload : Bytes
deriving DecidableEq

/-- What an archive has restored when it throws. -/
structure Restored where
  guid : Option Bytes := none
  type : Option TPacketType := none
  subPacketNo : Option Nat := none
  subPacketTotalCount : Option Nat := none
  payload : Option Bytes := none

/-- `Encoding.h`, `AES-256.h` and the Boost text archives. `decodeHex` throws
on what is not hexadecimal. -/
structure Codec where
  /-- What `getEncryptionKey()` refers to. -/
  encryptionKey : Bytes
  encodeHex : Bytes → Bytes
  decodeHex : Bytes → Option Bytes
  aes256encrypt : Bytes → Bytes → Bytes
  aes256decrypt : Bytes → Bytes → Bytes
  oarchive : Serialized → Bytes
  iarchive : Bytes → Except Restored Serialized

/-- Decoding undoes encoding. -/
structure Codec.Lawful (c : Codec) : Prop where
  decodeHex_encodeHex : ∀ b, c.decodeHex (c.encodeHex b) = some b
  aes256decrypt_encrypt : ∀ b key, c.aes256decrypt (c.aes256encrypt b key) key = b
  iarchive_oarchive : ∀ f, c.iarchive (c.oarchive f) = .ok f
  /-- Hexadecimal digits are not zero bytes. -/
  encodeHex_nonzero : ∀ b, 0 ∉ c.encodeHex b

/-- Encoding wastes nothing: two digits for an octet, as many cipher blocks as
the text needs, and an archive that is cut short ends in an exception: none
restores fields from less than is written for them. The last is assumed of
archives of one library version, which all start with the same header; fields
may be restored from an older version's archive that is shorter. -/
structure Codec.Compact (c : Codec) : Prop where
  length_of_decodeHex : ∀ t b, c.decodeHex t = some b → t.length = 2 * b.length
  length_encodeHex : ∀ b, (c.encodeHex b).length = 2 * b.length
  length_aes256encrypt_le : ∀ b t key, b ≠ [] → b.length ≤ (c.aes256decrypt t key).length →
    (c.aes256encrypt b key).length ≤ t.length
  oarchive_ne_nil : ∀ f, c.oarchive f ≠ []
  length_oarchive_le : ∀ b f, c.iarchive b = .ok f → (c.oarchive f).length ≤ b.length

/-! ## Packets and their texts -/

namespace TransportPacket

def insertDash (s : Bytes) (pos : Nat) : Bytes := s.take pos ++ octets "-" ++ s.drop pos

/-- `generateGuid`, of the key that `generateKey(16)` returned. -/
def generateGuid (c : Codec) (key : Bytes) : Bytes :=
  let hashedStr := c.encodeHex key
  let hashedStr := hashedStr.take 32
  insertDash (insertDash (insertDash (insertDash hashedStr 8) 13) 18) 23

def mustBeSeparated (p : TransportPacket) : Bool := p.payload.length > MAX_PACKET_SIZE_B

/-- The fields that `serialize` saves. -/
def serialized (p : TransportPacket) : Serialized :=
  ⟨p.guid, p.type, p.subPacketNo, p.subPacketTotalCount, p.payload⟩

/-- The packet once `serialize` has loaded fields into it; the token is not
one of them. -/
def load (p : TransportPacket) (f : Serialized) : TransportPacket :=
  { p with
    guid := f.guid, type := f.type, subPacketNo := f.subPacketNo
    subPacketTotalCount := f.subPacketTotalCount, payload := f.payload }

/-- The same for a load that an exception has ended. -/
def loadPart (p : TransportPacket) (f : Restored) : TransportPacket :=
  { p with
    guid := f.guid.getD p.guid, type := f.type.getD p.type
    subPacketNo := f.subPacketNo.getD p.subPacketNo
    subPacketTotalCount := f.subPacketTotalCount.getD p.subPacketTotalCount
    payload := f.payload.getD p.payload }

variable (c : Codec)

def toString (p : TransportPacket) : Bytes :=
  c.encodeHex (c.aes256encrypt (c.oarchive p.serialized) c.encryptionKey)

/-- The result, and the packet afterwards. -/
def fromString (p : TransportPacket) (input : Bytes) : Bool × TransportPacket :=
  match c.decodeHex input with
  | none => (false, p)
  | some inputDecoded =>
    match c.iarchive (c.aes256decrypt inputDecoded c.encryptionKey) with
    | .ok f => (true, p.load f)
    | .error f => (false, p.loadPart f)

/-- The values `subPacket` takes in the loop of `toSubpackets`. -/
def subpackets (p : TransportPacket) : List TransportPacket :=
  let serializedPacket := p.toString c
  let packetSize := serializedPacket.length
  let subPacketTotalCount := packetSize / MAX_PACKET_SIZE_B + 1
  let payloads := cut (blockSize MAX_PACKET_SIZE_B packetSize) 0 subPacketTotalCount serializedPacket
  payloads.mapIdx fun i payload => { guid := p.guid, type := p.type, subPacketNo := i, subPacketTotalCount, payload }

def toSubpackets (p : TransportPacket) : List Bytes := (p.subpackets c).map fun subPacket => subPacket.toString c

/-- The payloads of packets, one after another. -/
def joined (ps : List TransportPacket) : Bytes := (ps.map (·.payload)).flatten

/-- The result, the packet afterwards and `subpacketsVect` afterwards. -/
def fromSubpackets (σ : Sorter TransportPacket subPacketNo) (p : TransportPacket)
    (subpacketsVect : List TransportPacket) : (Bool × TransportPacket) × List TransportPacket :=
  let subpacketsVect := σ.sort subpacketsVect
  (p.fromString c (joined subpacketsVect), subpacketsVect)

end TransportPacket

end ComponentsNetwork.TransportLevel
