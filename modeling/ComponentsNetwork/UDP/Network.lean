import ComponentsNetwork.Lib.Datagrams
import ComponentsNetwork.Lib.Simulation
import ComponentsNetwork.UDP.Client
import ComponentsNetwork.UDP.ReceiveTheorems
/-!
# UDP clients, a server and the network between them

Any number of clients and one server, on a network (`Datagrams.lean`) that may
lose and copy datagrams and deliver them in any order. What a client gives
`send_to` departs if `send_to` reports its octets as sent; what arrives at the
server's host on the port its socket is bound to ends a receive of the server.
-/

namespace ComponentsNetwork.UDP

open Buffers Asio Runs Datagrams Simulation

abbrev Datagram := Bytes × Endpoint

structure Network where
  clients : List Client
  server : Server
  /-- The address of the server's host. -/
  address : String
  net : Net Datagram := {}
deriving DecidableEq

namespace Network

/-- What a call of a client lets out. -/
def departs (c : Client) : Client.Action → List Datagram
  | .sendData data (.ok bytesSent) =>
    ((c.sendData data (.ok bytesSent)).2.sent.drop c.sent.length).map fun x => (x.1.take bytesSent, x.2)
  | _ => []

inductive Action
  | client (i : Nat) (a : Client.Action)
  /-- What the server does, but for a datagram that it receives. -/
  | server (a : Server.Action)
  | lose (k : Nat)
  | copy (k : Nat)
  | arrive (k : Nat)

/-- What an action is for the network. -/
def events (s : Network) : Action → List (Event Datagram)
  | .client i a => ((s.clients[i]?.map fun c => departs c a).getD []).map .send
  | .server _ => []
  | .lose k => [.lose k]
  | .copy k => [.copy k]
  | .arrive k => [.arrive k]

/-- A receive ends with a datagram. -/
def receives : Server.Action → Bool
  | .receive error _ => !error
  | _ => false

/-- The parties' side of an action. -/
def parties (s : Network) : Action → Option Network
  | .client i a =>
    s.clients[i]?.bind fun c => (c.step a).map fun c' => { s with clients := s.clients.set i c' }
  | .server a => if receives a then none else (s.server.step a).map fun server => { s with server }
  | .lose _ | .copy _ => some s
  | .arrive k =>
    s.net.flight[k]?.bind fun (received, endpoint) =>
      if endpoint.address = s.address ∧ endpoint.port < 2 ^ 16 ∧ s.server.socket = .bound (.ofNat endpoint.port) then
        (s.server.step (.receive false received)).map fun server => { s with server }
      else none

def step (s : Network) (a : Action) : Option Network :=
  (s.parties a).bind fun s' => (run Datagrams.step s.net (s.events a)).map fun net => { s' with net }

end Network

end ComponentsNetwork.UDP
