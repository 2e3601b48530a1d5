import ComponentsNetwork.Transport.Client
import ComponentsNetwork.Transport.ConnectionSession
/-!
# A transport client and the session of its connection

What one side writes is a stream for the other, which a read takes any number
of octets of: the session's reads as many as its buffer holds at most, the
client's `readAll` as many as have come. The sockets take what is written. The
host is reached by every request, which keeps the connection there is.
-/

namespace ComponentsNetwork.TransportLevel

open Buffers Chunks

/-- The octets written and not read are `toServer` and `toClient`. -/
structure Link where
  client : TransportClient
  session : ConnectionSession
  toServer : Bytes := []
  toClient : Bytes := []
  /-- The packets of the requests sent. -/
  requests : List TransportPacket := []
  /-- What `readAll` returned, each with what the callback would return. -/
  pieces : List (Bytes × Option Bytes) := []

namespace Link

variable (c : Codec) (σ : Sorter TransportPacket TransportPacket.subPacketNo)

/-- The client has acted: what it has sent since is written. -/
def setClient (s : Link) (client : TransportClient) : Link :=
  { s with client, toServer := s.toServer ++ (client.sent.drop s.client.sent.length).flatten }

/-- The same for the session. -/
def setSession (s : Link) (session : ConnectionSession) : Link :=
  { s with
    session, toClient := s.toClient ++ (session.log.written.drop s.session.log.written.length).flatten }

def request (s : Link) (requestData key : Bytes) : Link :=
  let packets := if (s.client.connectToHost true).1 then [s.client.requestPacket c key requestData] else []
  { s.setClient (s.client.request c requestData key true) with requests := s.requests ++ packets }

inductive Action
  /-- `key` is what `generateKey` returns. -/
  | request (requestData key : Bytes)
  | sessionReads (count : Nat)
  | sessionFails (eof : Bool)
  | sessionRuns (k : Nat) (reply : Option Bytes)
  | clientReads (count : Nat) (reply : Option Bytes)

def step (s : Link) : Action → Option Link
  | .request requestData key => some (s.request c requestData key)
  | .sessionReads count =>
    if 0 < count && count ≤ s.toServer.length then
      (s.session.step c σ (.readCompletes (s.toServer.take count))).map fun session =>
        { s.setSession session with toServer := s.toServer.drop count }
    else none
  | .sessionFails eof => (s.session.step c σ (.readFails eof)).map s.setSession
  | .sessionRuns k reply => (s.session.step c σ (.runTask k reply)).map s.setSession
  | .clientReads count reply =>
    if 0 < count && count ≤ s.toClient.length then
      let piece := s.toClient.take count
      some { s.setClient (s.client.gotResponse c σ piece reply) with
        toClient := s.toClient.drop count, pieces := s.pieces ++ [(piece, reply)] }
    else none

/-- A client and a session that have exchanged nothing. -/
def start (client : TransportClient) (tokenList : List Bytes) (data : Bytes) : Link :=
  { client, session := ConnectionSession.start tokenList data }

end Link

end ComponentsNetwork.TransportLevel
