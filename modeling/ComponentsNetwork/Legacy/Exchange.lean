import ComponentsNetwork.Lib.Buffers
import ComponentsNetwork.Lib.Runs
/-!
# The legacy packet exchange

`Legacy/exchangepacket.h`, `packetprocessor.cpp`, and the sides that use them:
`tcpclientinstance.cpp` and the messages of `connectionworker.cpp`. A packet is
written as the hexadecimal text of its archive; `readyRead` is handled by
converting all that can be read at once.

The hexadecimal functions and the Boost archive are not part of the
repository. They are a `Codec`, of which `Codec.Lawful` states what the
component relies on. Left out: connecting and disconnecting, which are calls
of the socket, what only goes to `qDebug`, and exceptions of the processors.
-/

namespace ComponentsNetwork.Legacy.Exchange

open Buffers

/-! ## Packets -/

/-- `enum PACKET_TYPES`, as the values of `Packet::type`. -/
def ACTION_PACKET_TYPE : Int32 := 0
def INFO_PACKET_TYPE : Int32 := 1
def ERROR_PACKET_TYPE : Int32 := 2

structure Packet where
  type : Int32 := 0
  command : Bytes := []
  data : Bytes := []
  isValid : Bool := false
deriving DecidableEq, Repr

/-- The fields that `serialize` saves. -/
structure Serialized where
  type : Int32
  command : Bytes
  data : Bytes
deriving DecidableEq

def Packet.serialized (p : Packet) : Serialized := ⟨p.type, p.command, p.data⟩

/-- A decoder or an archive that throws is `none`. -/
structure Codec where
  encodeHex : Bytes → Bytes
  decodeHex : Bytes → Option Bytes
  oarchive : Serialized → Bytes
  iarchive : Bytes → Option Serialized

/-- Decoding undoes encoding, digit by digit, and an archive reads no more than
was written into it. -/
structure Codec.Lawful (c : Codec) : Prop where
  decodeHex_encodeHex : ∀ b, c.decodeHex (c.encodeHex b) = some b
  decodeHex_append : ∀ b t, c.decodeHex (c.encodeHex b ++ t) = (c.decodeHex t).map fun rest => b ++ rest
  length_encodeHex : ∀ b, (c.encodeHex b).length = 2 * b.length
  oarchive_ne_nil : ∀ f, c.oarchive f ≠ []
  iarchive_oarchive : ∀ f rest, c.iarchive (c.oarchive f ++ rest) = some f

namespace PacketConverter
variable (c : Codec)

/-- `convert` of a packet. -/
def convert (data_p : Packet) : Bytes :=
  if data_p.isValid then c.encodeHex (c.oarchive data_p.serialized) else []

/-- `convert` of a `QByteArray`. -/
def convertBack (data_ba : Bytes) : Packet :=
  match (c.decodeHex data_ba).bind c.iarchive with
  | some f => { type := f.type, command := f.command, data := f.data, isValid := true }
  | none => {}

end PacketConverter

/-! ## The worker's side -/

inductive Processor
  | info
  | action
  | error
deriving DecidableEq, Repr

/-- What the user has set; a processor gets the request and the response to
fill in. The one for errors has nothing to fill in. -/
structure Processors where
  infoProcessor : Option (Packet → Packet → Packet) := none
  actionProcessor : Option (Packet → Packet → Packet) := none
  errorProcessor : Bool := false

/-- `PacketProcessor::process`: the processor that is called, and the response. -/
def Processors.process (ps : Processors) (p : Packet) : Option Processor × Packet :=
  let response : Packet := {}
  match (if p.type = INFO_PACKET_TYPE then ps.infoProcessor else none) with
  | some infoProcessor => (some .info, infoProcessor p response)
  | none =>
    match (if p.type = ACTION_PACKET_TYPE then ps.actionProcessor else none) with
    | some actionProcessor => (some .action, actionProcessor p response)
    | none => if p.type = ERROR_PACKET_TYPE && ps.errorProcessor then (some .error, response) else (none, response)

/-- A request, the processor that got it and the response. -/
structure Processed where
  request : Packet
  processor : Option Processor
  response : Packet
deriving DecidableEq

/-- `log` is for the reader: the requests processed. -/
structure ConnectionWorker where
  isOpen : Bool := true
  request : Packet := {}
  response : Packet := {}
  responsePacket : Bytes := []
  log : List Processed := []

/-- `onMessage`, and what it writes. It reads only from an open connection. -/
def ConnectionWorker.onMessage (c : Codec) (ps : Processors) (w : ConnectionWorker) (readAll : Bytes) :
    Option Bytes × ConnectionWorker :=
  if !w.isOpen then (none, w)
  else
    let w := { w with request := PacketConverter.convertBack c readAll }
    if !w.request.isValid then (none, w)
    else
      let (processor, response) := ps.process w.request
      let w := { w with response, log := w.log ++ [⟨w.request, processor, response⟩] }
      if !w.response.isValid then (none, w)
      else
        let w := { w with responsePacket := PacketConverter.convert c w.response }
        (some w.responsePacket, w)

/-! ## The client's side -/

structure TcpClientInstance where
  isConnected : Bool := true
  responseGot : Bool := false
  readBuf : Bytes := []
  response : Packet := {}

namespace TcpClientInstance

/-- `sendMessageSlot`, and what it writes. -/
def sendMessageSlot (c : Codec) (t : TcpClientInstance) (sendPacket : Packet) : Option Bytes × TcpClientInstance :=
  if !t.isConnected then (none, t)
  else if sendPacket.command = [] then (none, t)
  else (some (PacketConverter.convert c sendPacket), { t with responseGot := false })

def messagesAvailable (t : TcpClientInstance) : Bool := t.responseGot

/-- `getMessage` calls itself. -/
def getMessage (t : TcpClientInstance) : Nat → Option Packet
  | 0 => none
  | fuel + 1 => getMessage t fuel

/-- `onMessage`, and the packet that `gotPacket` is emitted with. -/
def onMessage (c : Codec) (t : TcpClientInstance) (readAll : Bytes) : Option Packet × TcpClientInstance :=
  let t := { t with readBuf := readAll }
  if t.readBuf.length < 2 then (none, t)
  else
    let t := { t with response := PacketConverter.convertBack c t.readBuf, responseGot := true }
    (some t.response, t)

end TcpClientInstance

/-! ## A client and its worker -/

/-- The octets written and not read are `toServer` and `toClient`. -/
structure Link where
  client : TcpClientInstance := {}
  worker : ConnectionWorker := {}
  processors : Processors := {}
  toServer : Bytes := []
  toClient : Bytes := []
  /-- The packets the client has written. -/
  sent : List Packet := []
  /-- The packets the worker has written. -/
  answered : List Packet := []
  /-- The packets of the `gotPacket` signals. -/
  got : List Packet := []

/-- `wrote`: the socket takes what is written. A read finds `count` octets. -/
inductive Action
  | setProcessors (ps : Processors)
  | sendMessage (sendPacket : Packet) (wrote : Bool)
  | workerReads (count : Nat) (wrote : Bool)
  | clientReads (count : Nat)
  | clientDisconnects
  | workerCloses

namespace Link
variable (c : Codec)

/-- The client's call. A packet that is not valid converts to nothing, and
writing nothing sends nothing. -/
def send (s : Link) (sendPacket : Packet) (wrote : Bool) : Link :=
  let (sendData, client) := s.client.sendMessageSlot c sendPacket
  match sendData with
  | none => { s with client }
  | some sendData =>
    if wrote && sendData ≠ [] then
      { s with client, toServer := s.toServer ++ sendData, sent := s.sent ++ [sendPacket] }
    else { s with client }

/-- The worker's handler, with the octets there are. -/
def receive (s : Link) (count : Nat) (wrote : Bool) : Link :=
  let (responsePacket, worker) := s.worker.onMessage c s.processors (s.toServer.take count)
  let s := { s with worker, toServer := if s.worker.isOpen then s.toServer.drop count else s.toServer }
  match responsePacket with
  | none => s
  | some responsePacket =>
    if wrote then
      { s with toClient := s.toClient ++ responsePacket, answered := s.answered ++ [s.worker.response] }
    else s

def step (s : Link) : Action → Option Link
  | .setProcessors processors => some { s with processors }
  | .sendMessage sendPacket wrote => some (s.send c sendPacket wrote)
  | .workerReads count wrote =>
    if 0 < count && count ≤ s.toServer.length then some (s.receive c count wrote) else none
  | .clientReads count =>
    if 0 < count && count ≤ s.toClient.length then
      let (got, client) := s.client.onMessage c (s.toClient.take count)
      some { s with client, toClient := s.toClient.drop count, got := s.got ++ got.toList }
    else none
  | .clientDisconnects => some { s with client := { s.client with isConnected := false } }
  | .workerCloses => some { s with worker := { s.worker with isOpen := false } }

end Link

end ComponentsNetwork.Legacy.Exchange
