import ComponentsNetwork.Legacy.Exchange
import ComponentsNetwork.Lib.Datagrams
import ComponentsNetwork.Lib.Simulation
/-!
# The legacy UDP exchange

`Legacy/udpclientinstance.cpp` and `udpserverinstance.cpp`, on a network
(`Datagrams.lean`) that may lose and copy datagrams and deliver them in any
order. `onMessage` looks for an entry of `processThreads` that is null; the
line that would start a thread there is a comment in the source.

Left out: the socket's thread in the client, and what may not be called, such
as a start of the server after `stop` has deleted its socket.
-/

namespace ComponentsNetwork.Legacy.UdpExchange

open Buffers Runs Exchange Datagrams

/-! ## The client -/

structure UdpClientInstance where
  errorText : String := ""
  hostAddress : String := "127.0.0.1"
  port : UInt16 := 0
deriving DecidableEq

namespace UdpClientInstance

def setup (u : UdpClientInstance) (hostAddress : String) (port : UInt16) : UdpClientInstance :=
  { u with hostAddress, port }

/-- `writeDatagram` returns what it has sent, or -1. -/
def sendMessage (u : UdpClientInstance) (data : Bytes) (ok : Bool) : Bool × UdpClientInstance :=
  let written : Int := if ok then data.length else -1
  if written = 0 then (false, { u with errorText := "Write error" }) else (true, u)

def sendPacket (c : Codec) (u : UdpClientInstance) (data : Packet) (ok : Bool) : Bool × UdpClientInstance :=
  u.sendMessage (PacketConverter.convert c data) ok

end UdpClientInstance

/-! ## The server -/

/-- How far `processThreadLoop` has got. -/
inductive ProcessThread
  | started
  /-- Its packet is in `resultVect`. -/
  | pushed
  | finished
deriving DecidableEq

/-- The states of a `QUdpSocket` that the server asks for or brings about. -/
inductive SocketState
  | unconnected
  | bound
  | listening
deriving DecidableEq

/-- `pending` is what the socket has for `receiveDatagram`. What was taken from
it, and the packets `packetReceived` was emitted with, are for the reader. -/
structure UdpServerInstance where
  socket : SocketState := .unconnected
  pending : List Bytes := []
  threadCount : UInt16
  processThreads : List (Option ProcessThread)
  threadInputs : List Bytes
  threadsToRemove : List Bool
  resultVect : List Packet := []
  threadFinished : Bool := false
  done : Bool := false
  taken : List Bytes := []
  packetReceived : List Packet := []

namespace UdpServerInstance

def UDP_SERVER_PORT : UInt16 := 8000

def construct (threadCount : UInt16) : UdpServerInstance :=
  { threadCount
    processThreads := List.replicate threadCount.toNat none
    threadInputs := List.replicate threadCount.toNat []
    threadsToRemove := List.replicate threadCount.toNat false }

/-- `start`; `ok` is what `bind` returns. -/
def start (s : UdpServerInstance) (ok : Bool) : Bool × UdpServerInstance :=
  (ok, if ok then { s with socket := .bound } else s)

def isRunning (s : UdpServerInstance) : Bool := s.socket = .listening

/-- The first entry that is null, among those there are threads for. -/
def freeThread (s : UdpServerInstance) : Option Nat :=
  (List.range s.threadCount.toNat).find? fun i => s.processThreads[i]? = some none

/-- The loop of `onMessage`, over what is pending. It starts no thread. -/
def drain (s : UdpServerInstance) : List Bytes → UdpServerInstance
  | [] => { s with pending := [] }
  | message :: pending =>
    let s := { s with taken := s.taken ++ [message] }
    match s.freeThread with
    | none => { s with pending }
    | some threadNum => drain { s with threadInputs := s.threadInputs.set threadNum message } pending

def onMessage (s : UdpServerInstance) : UdpServerInstance := s.drain s.pending

def threadFinishedSignal (s : UdpServerInstance) (threadNum : Int) : UdpServerInstance :=
  let s :=
    if threadNum < s.threadCount.toNat ∧ 0 ≤ threadNum then
      { s with threadsToRemove := s.threadsToRemove.set threadNum.toNat true }
    else s
  { s with threadFinished := true }

/-- `processThreadLoop`, until the packet is in `resultVect`. -/
def pushResult (c : Codec) (s : UdpServerInstance) (threadNum : Nat) : Option UdpServerInstance :=
  if s.processThreads[threadNum]? = some (some .started) then
    s.threadInputs[threadNum]?.map fun input =>
      { s with
        processThreads := s.processThreads.set threadNum (some .pushed)
        resultVect := s.resultVect ++ [PacketConverter.convertBack c input] }
  else none

/-- The rest of it, with `getMessage`. -/
def takeResult (s : UdpServerInstance) (threadNum : Nat) : Option UdpServerInstance :=
  if s.processThreads[threadNum]? = some (some .pushed) then
    match s.resultVect with
    | [] => none -- `pop_front` of an empty vector
    | tempPacket :: resultVect =>
      let s := { s with
        processThreads := s.processThreads.set threadNum (some .finished)
        resultVect, packetReceived := s.packetReceived ++ [tempPacket] }
      some (s.threadFinishedSignal threadNum)
  else none

/-- `threadRemoverLoop`, once it is woken up; it joins what it removes. -/
def removeThreads (s : UdpServerInstance) : Option UdpServerInstance :=
  let running := List.zipWith (fun thread remove => remove && thread.any (· ≠ .finished)) s.processThreads s.threadsToRemove
  if s.threadFinished && !running.contains true then
    some { s with
      threadFinished := false
      processThreads :=
        List.zipWith (fun thread remove => if remove then none else thread) s.processThreads s.threadsToRemove
      threadsToRemove := s.threadsToRemove.map fun _ => false }
  else none

def stop (s : UdpServerInstance) : UdpServerInstance :=
  if s.done then s else { ({ s with done := true }).threadFinishedSignal (-1) with socket := .unconnected, pending := [] }

end UdpServerInstance

/-! ## Clients, a server and the network -/

structure Datagram where
  data : Bytes
  hostAddress : String
  port : UInt16
deriving DecidableEq

/-- `reported` has the packets clients were to send, with what `sendPacket`
returned. -/
structure Network where
  clients : List UdpClientInstance
  server : UdpServerInstance
  /-- The address of the server's host. -/
  address : String
  net : Net Datagram := {}
  reported : List (Packet × Bool) := []

inductive Action
  | setup (i : Nat) (hostAddress : String) (port : UInt16)
  | sendPacket (i : Nat) (data : Packet) (ok : Bool)
  | lose (k : Nat)
  | copy (k : Nat)
  | arrive (k : Nat)
  | start (ok : Bool)
  | onMessage
  | pushResult (threadNum : Nat)
  | takeResult (threadNum : Nat)
  | removeThreads
  | stop

namespace Network
variable (c : Codec)

/-- What an action is for the network. -/
def events (s : Network) : Action → List (Event Datagram)
  | .sendPacket i data true =>
    s.clients[i]?.toList.map fun u => .send ⟨PacketConverter.convert c data, u.hostAddress, u.port⟩
  | .lose k => [.lose k]
  | .copy k => [.copy k]
  | .arrive k => [.arrive k]
  | _ => []

/-- What arrives at a bound socket is pending there. -/
def arrive (s : Network) (k : Nat) : Option Network := do
  let d ← s.net.flight[k]?
  if d.hostAddress = s.address ∧ d.port = UdpServerInstance.UDP_SERVER_PORT ∧ s.server.socket = .bound then
    some { s with server := { s.server with pending := s.server.pending ++ [d.data] } }
  else none

/-- The parties' side of an action. -/
def parties (s : Network) : Action → Option Network
  | .setup i hostAddress port => do
    let u ← s.clients[i]?
    some { s with clients := s.clients.set i (u.setup hostAddress port) }
  | .sendPacket i data ok => do
    let u ← s.clients[i]?
    let (result, u) := u.sendPacket c data ok
    some { s with clients := s.clients.set i u, reported := s.reported ++ [(data, result)] }
  | .lose _ | .copy _ => some s
  | .arrive k => s.arrive k
  | .start ok => if s.server.done then none else some { s with server := (s.server.start ok).2 }
  | .onMessage => if s.server.done then none else some { s with server := s.server.onMessage }
  | .pushResult threadNum => (s.server.pushResult c threadNum).map fun server => { s with server }
  | .takeResult threadNum => (s.server.takeResult threadNum).map fun server => { s with server }
  | .removeThreads => s.server.removeThreads.map fun server => { s with server }
  | .stop => some { s with server := s.server.stop }

def step (s : Network) (a : Action) : Option Network :=
  (s.parties c a).bind fun s' => (run Datagrams.step s.net (s.events c a)).map fun net => { s' with net }

end Network

end ComponentsNetwork.Legacy.UdpExchange
