import Mathlib.Order.Interval.Finset.Nat
import ComponentsNetwork.HTTP.DeadlineTheorems
import ComponentsNetwork.HTTP.Server
import ComponentsNetwork.Lib.Ownership
/-!
# Who owns the sessions of the server

A `ConnectionSession` lives in a `std::shared_ptr`. Copies of it are in the
handlers of its reads, writes and deadline waits, in the reply functions its
user processors are called with, and in the functions of its own
`m_processors`, each a copy of `handleMethod`. The accept handler, which also
has one, runs as one step.

`Owned` adds to a server what owns its sessions and its own model does not
keep: the handlers of cancelled waits that have not run, and the reply
functions in the hands of user code. A session that nothing owns any more is
destroyed at once; `alive` are those that are not.
-/

namespace ComponentsNetwork.HTTP

open Buffers Asio ConnectionSession

structure Owned (H : Type) where
  server : Server H
  /-- By session, the handlers of cancelled waits that have not run. -/
  cancelled : Nat → Nat := fun _ => 0
  /-- By session, the reply functions user code has kept. -/
  replies : Nat → Nat := fun _ => 0
  alive : Finset Nat := ∅

namespace Owned
variable {H : Type} (reason : Nat → String)

/-- The waits on a timer whose handlers have not run, cancelled ones apart. -/
def waits (t : SteadyTimer) : Nat := t.waiting + t.due

/-- The waits a step arms. -/
def armed (c : ConnectionSession H) (a : ConnectionSession.Action H) : Nat := if arms c a then 1 else 0

/-- The waits whose handlers a step runs. -/
def ran : ConnectionSession.Action H → Nat
  | .deadlineExpires _ => 1
  | _ => 0

/-- The waits that a step from `c` to `c'` cancels: of those there are before
it, and the one it arms, the ones that neither are there after it nor had
their handler run. -/
def cancels (c c' : ConnectionSession H) (a : ConnectionSession.Action H) : Nat :=
  waits c.deadlineTimer + armed c a - (waits c'.deadlineTimer + ran a)

/-- The handlers of a session that are running or outstanding, those of
cancelled waits apart: that of its read loop, of its writes, and of its
waits. -/
def holds (c : ConnectionSession H) : Nat :=
  (if c.phase = .ended then 0 else 1) + c.inFlight + waits c.deadlineTimer

/-- The handlers and reply functions that own session `i`. -/
def holders (s : Owned H) (i : Nat) : Nat :=
  match s.server.connections[i]? with
  | some c => holds c + s.cancelled i + s.replies i
  | none => 0

def held (s : Owned H) (i : Nat) : Bool := s.holders i ≠ 0

/-- What the function that session `i` has in `m_processors` for a method owns:
`handleMethod`, of which it is a copy, captured `pConnection`. -/
def captured (i : Nat) (_methType : MethodType) : List Nat := [i]

/-- A function in `m_processors` of session `j` owns session `i`. -/
def owns (s : Owned H) (j i : Nat) : Bool :=
  s.server.connections[j]?.any fun c => c.processors.any fun methType => i ∈ captured j methType

/-- `~ConnectionSession` of the sessions that go. The socket is a member, so it
does not outlive a `shutdown` that fails. -/
def destroy (server : Server H) (gone : Finset Nat) : Server H :=
  { server with connections := server.connections.mapIdx fun i c => if i ∈ gone then closeConnection c true else c }

/-- The sessions that nothing owns are destroyed, and so on until none is left. -/
def collect (s : Owned H) : Owned H :=
  let alive := Ownership.collect (fun i => s.held i = true) (fun j i => s.owns j i = true) s.alive
  { s with alive, server := destroy s.server (s.alive \ alive) }

/-- User code has a reply function of session `i`: one it has kept, or the one
its processor was called with and has not returned from. -/
def hasReply (s : Owned H) (i : Nat) : Bool :=
  s.replies i ≠ 0 || s.server.connections[i]?.any fun c => c.phase = .dispatching

inductive Action (H : Type)
  | server (a : Server.Action H)
  /-- User code copies a reply function. -/
  | keep (i : Nat)
  /-- One that was kept is destroyed. -/
  | drop (i : Nat)
  /-- The handler of a cancelled wait runs; it does nothing. -/
  | cancelled (i : Nat)

/-- An action of the server that calls a reply function needs one. -/
def mayCall (s : Owned H) : Server.Action H → Bool
  | .connection i (.reply ..) | .replyUncaught i .. => s.hasReply i
  | _ => true

/-- What an action of the server adds to the waits that are cancelled. -/
def addCancelled (s : Owned H) (server : Server H) : Server.Action H → Nat → Nat
  | .connection i a =>
    match s.server.session i, server.connections[i]? with
    | some c, some c' => Function.update s.cancelled i (s.cancelled i + cancels c c' a)
    | _, _ => s.cancelled
  | _ => s.cancelled

/-- The server has become `server`. A session it has made is alive. -/
def moved (s : Owned H) (a : Server.Action H) (server : Server H) : Owned H :=
  { s with
    server
    cancelled := s.addCancelled server a
    alive := s.alive ∪ Finset.Ico s.server.connections.length server.connections.length }

def step (s : Owned H) : Action H → Option (Owned H)
  | .server a => if s.mayCall a then (Server.step reason s.server a).map fun server => (s.moved a server).collect else none
  | .keep i => if s.hasReply i then some { s with replies := Function.update s.replies i (s.replies i + 1) } else none
  | .drop i =>
    if s.replies i ≠ 0 then some (collect { s with replies := Function.update s.replies i (s.replies i - 1) }) else none
  | .cancelled i =>
    if s.server.running && !s.server.busy && s.cancelled i ≠ 0 then
      some (collect { s with cancelled := Function.update s.cancelled i (s.cancelled i - 1) })
    else none

/-- `Server::start`, once it has armed the first accept. -/
def start (processors : Processors H) (serverName : String) (secure : Bool) (now : Nat) : Owned H :=
  { server := Server.start processors serverName secure now }

end Owned

end ComponentsNetwork.HTTP
