import ComponentsNetwork.HTTP.ConnectionSession
/-!
# The HTTP server

`server.cpp`, from the first accept that `Server::start` arms on. The handlers
of all connections and the accept handler are run by one `m_ioc.run()`, one at
a time: an exception that leaves any of them ends it, and `start` with it.

A connection is a `ConnectionSession`. What it shares with the others (the
processors, the clock, `run()`) is kept once, in the server, and `session`
puts it in place.
-/

namespace ComponentsNetwork.HTTP

open Buffers Asio ConnectionSession

structure Server (H : Type) where
  processors : Processors H
  serverName : String
  /-- `ctx` is set: the certificate file has a name. -/
  secure : Bool
  now : Nat
  /-- `m_ioc.run()` is executing. -/
  running : Bool := true
  /-- The `async_accept`s outstanding on `m_acceptor`. -/
  accepts : Nat := 0
  /-- The sessions made so far, in order. -/
  connections : List (ConnectionSession H) := []

namespace Server
variable {H : Type} (reason : Nat → String)

/-- Connection `i`, as its handlers find it. -/
def session (s : Server H) (i : Nat) : Option (ConnectionSession H) :=
  s.connections[i]?.map fun c => { c with serverProcessors := s.processors, running := s.running, now := s.now }

/-- The server, once connection `i` has become `c`. -/
def update (s : Server H) (i : Nat) (c : ConnectionSession H) : Server H :=
  { s with
    processors := c.serverProcessors, running := c.running, now := c.now
    connections := s.connections.set i c }

/-- A handler has called a user processor that is still running. -/
def busy (s : Server H) : Bool := s.connections.any fun c => c.phase = .dispatching

/-- `handleConnections`: the accept it starts. -/
def handleConnections (s : Server H) : Server H := { s with accepts := s.accepts + 1 }

/-- The accept handler after an accept without error. The next accept is the
last thing it does. -/
def acceptHandler (s : Server H) (hs : Handshake) : Server H :=
  match handleRequests (accept s.processors s.serverName s.secure s.now) hs with
  | (c, .returns) => handleConnections { s with connections := s.connections ++ [c] }
  | (c, .throws) => { s with running := false, connections := s.connections ++ [c] }

/-- An exception in a call that the running user processor makes, and does not
catch, leaves the processor and the handler that called it. -/
def leaveProcessor (s : Server H) : Exit → Server H
  | .returns => s
  | .throws => { s with
      running := false
      connections := s.connections.map fun c => if c.phase = .dispatching then { c with phase := .ended } else c }

inductive Action (H : Type)
  | setHandler (target : String) (method : MethodType) (cbk : H)
  | tick (d : Nat)
  | acceptFails
  | acceptCompletes (hs : Handshake)
  /-- What a connection does by itself. A reply here is called from outside
  the handlers, or by a processor that catches what it throws. -/
  | connection (i : Nat) (a : ConnectionSession.Action H)
  /-- The running processor calls the reply function of request `k` of
  connection `i` and does not catch what it throws. -/
  | replyUncaught (i k : Nat) (pkt : Packet) (opened : Option Bytes)

/-- The actions of a connection that are handlers `m_ioc` has to start. -/
def startsHandler : ConnectionSession.Action H → Bool
  | .readCompletes .. | .readFails .. | .deadlineExpires _ | .writeCompletes => true
  | _ => false

def step (s : Server H) : Action H → Option (Server H)
  | .setHandler target method cbk => some { s with processors := s.processors.setHandler target method cbk }
  | .tick d => some { s with now := s.now + d }
  | .acceptFails =>
    if s.running && !s.busy && 0 < s.accepts then some (handleConnections { s with accepts := s.accepts - 1 }) else none
  | .acceptCompletes hs =>
    if s.running && !s.busy && 0 < s.accepts then some (acceptHandler { s with accepts := s.accepts - 1 } hs) else none
  | .connection i a =>
    if startsHandler a && s.busy then none
    else (s.session i).bind fun c => (ConnectionSession.step reason c a).map (s.update i)
  | .replyUncaught i k pkt opened =>
    if s.running && s.busy then
      (s.session i).bind fun c =>
        if k ∈ c.pending then
          let x := sendResponse reason { c with pending := c.pending.erase k } pkt opened (.reply k)
          some ((s.update i x.1).leaveProcessor x.2)
        else none
    else none

/-- `Server::start`, once it has armed the first accept. -/
def start (processors : Processors H) (serverName : String) (secure : Bool) (now : Nat) : Server H :=
  handleConnections { processors, serverName, secure, now }

end Server

end ComponentsNetwork.HTTP
