import ComponentsNetwork.HTTP.Ownership
/-!
# Starting and stopping the HTTP server

`HTTP::Server` of `server.cpp`: it owns the `Impl` that `start` makes and
`stop` takes away. `start` is inside `m_ioc.run()` until that ends.

`run()` ends as nothing is outstanding, or by an exception that leaves a
handler. The `io_context` is stopped whenever its last work is gone: also by
a handler that throws, if nothing else is outstanding then. Left out: what may
not be done, which is to start or stop the server under an executing `run()`;
either destroys the `io_context` it is of.
-/

namespace ComponentsNetwork.HTTP

open Asio

/-- The work of `m_ioc`: the accepts, and the handlers of the sessions' reads,
writes and waits that have not run. -/
def Owned.outstanding {H : Type} (s : Owned H) : Nat :=
  s.server.accepts + (s.server.connections.mapIdx fun i c => holds c + s.cancelled i).foldr (· + ·) 0

/-- `Server::Impl`, from the first accept on; `stopped` is of `m_ioc`. -/
structure Impl (H : Type) where
  owned : Owned H
  stopped : Bool := false

/-- `m_ioc` after a step that has come to `owned`. An exception that leaves a
handler ends `run()`, and the work of that handler is gone all the same. -/
def Impl.moved {H : Type} (d : Impl H) (owned : Owned H) : Impl H :=
  { owned
    stopped := d.stopped || d.owned.server.running && !owned.server.running && owned.outstanding = 0 }

/-- `Server`: `certFile` is what it uses of `m_httpsParameters`. -/
structure ServerOwner (H : Type) where
  serverName : String
  certFile : String
  processors : Processors H := fun _ => none
  now : Nat := 0
  d : Option (Impl H) := none

namespace ServerOwner
variable {H : Type} (reason : Nat → String)

/-- `m_ioc.run()` is executing. -/
def executing (s : ServerOwner H) : Bool := s.d.any fun d => d.owned.server.running

/-- `start`; `made` is whether the constructor of `Impl` returns. -/
def start (s : ServerOwner H) (made : Bool) : ServerOwner H :=
  if made then { s with d := some { owned := .start s.processors s.serverName (s.certFile ≠ "") s.now } } else s

def isRunning (s : ServerOwner H) : Bool :=
  match s.d with
  | some d => !d.stopped
  | none => false

def stop (s : ServerOwner H) : ServerOwner H := if s.isRunning then { s with d := none } else s

inductive Action (H : Type)
  | start (made : Bool)
  | stop
  /-- What happens to the server and its sessions. Without one there are the
  clock and the calls that set handlers. -/
  | server (a : Owned.Action H)
  /-- `run()` returns. -/
  | runReturns

/-- A step of the server. The processors are those of `m_processors`. -/
def stepServer (s : ServerOwner H) (a : Owned.Action H) : Option (ServerOwner H) :=
  match s.d with
  | some d =>
    (Owned.step reason d.owned a).map fun owned =>
      { s with processors := owned.server.processors, now := owned.server.now, d := some (d.moved owned) }
  | none =>
    match a with
    | .server (.setHandler target method cbk) =>
      some { s with processors := s.processors.setHandler target method cbk }
    | .server (.tick d) => some { s with now := s.now + d }
    | _ => none

def step (s : ServerOwner H) : Action H → Option (ServerOwner H)
  | .start made => if s.executing then none else some (s.start made)
  | .stop => if s.executing then none else some s.stop
  | .server a => s.stepServer reason a
  | .runReturns => do
    let d ← s.d
    if d.owned.server.running && d.owned.outstanding = 0 then
      some { s with d := some { owned := { d.owned with server.running := false }, stopped := true } }
    else none

end ServerOwner

end ComponentsNetwork.HTTP
