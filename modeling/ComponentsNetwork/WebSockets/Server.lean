import ComponentsNetwork.Lib.Asio
import ComponentsNetwork.Lib.Runs
import Mathlib.Data.Finset.Basic
/-!
# The websocketpp server

`WebSockets/server.cpp`. Connections are numbered in the order they are
accepted. The steps are the calls of `listen`, the stages of `stop`, which
other steps may come between, and the handlers of the io thread.

An endpoint that listens cannot be made to listen again, and accepts one
connection after another until it stops listening. `run` of an `io_service`
that was stopped returns at once; nothing resets this one.

Not part of the state: what only goes to the logger, the message handler, and
what the HTTP handler answers. `log` is for the reader.
-/

namespace ComponentsNetwork.WebSockets

open Asio

/-- How far a call of `stop` has got. -/
inductive Stopping
  | no
  /-- The listener is stopped. -/
  | listener
  /-- So are the connections. -/
  | connections
deriving DecidableEq, Repr

/-- What happened to the connections so far. -/
structure ServerLog where
  /-- Those that had their open event. -/
  opened : Finset Nat := ∅
  /-- Those that had their close event. -/
  closed : Finset Nat := ∅
  /-- Those passed to `m_server.close`. -/
  passedToClose : Finset Nat := ∅
  /-- Those that had their open event since `m_connections` was last cleared. -/
  openedSince : Finset Nat := ∅
  /-- `stop` has been called. -/
  stopCalled : Bool := false
deriving DecidableEq

/-- `Server::Impl`. -/
structure Server where
  /-- What `m_server` listens on. -/
  acceptor : Option Endpoint := none
  /-- An accept is outstanding. -/
  accepting : Bool := false
  ioThread : IoThread := .absent
  /-- `m_ioService` is stopped. -/
  ioStopped : Bool := false
  connections : Finset Nat := ∅
  listening : Bool := false
  /-- The connections accepted. -/
  accepted : Nat := 0
  /-- Those among them whose handshake is in progress. -/
  handshaking : Finset Nat := ∅
  stopping : Stopping := .no
  log : ServerLog := {}
deriving DecidableEq

namespace Server

def isListening (s : Server) : Bool := s.listening

/-! ## Handlers of the io thread -/

def openHandler (s : Server) (hdl : Nat) : Server := { s with connections := insert hdl s.connections }

def closeHandler (s : Server) (hdl : Nat) : Server := { s with connections := s.connections.erase hdl }

/-! ## Calls -/

/-- `listen`; `endpoint` is what `make_address` makes of its arguments, unless
it throws, and the rest is whether `m_server.listen` and `start_accept` fail. -/
def listen (s : Server) (endpoint : Option Endpoint) (listenEc acceptEc : Bool) : Server :=
  match endpoint with
  | none => s
  | some endpoint =>
    if s.acceptor.isSome || listenEc then s
    else
      let s := { s with acceptor := some endpoint }
      if acceptEc then s
      else
        let s := { s with accepting := true, listening := true }
        if s.ioThread = .absent then { s with ioThread := if s.ioStopped then .returned else .running } else s

/-- `stop`: "Stop server". -/
def stopListener (s : Server) : Server :=
  if s.listening then { s with acceptor := none, accepting := false, listening := false } else s

/-- "Stop connections". -/
def stopConnections (s : Server) : Server :=
  { s with
    connections := ∅
    log := { s.log with passedToClose := s.log.passedToClose ∪ s.connections, openedSince := ∅ } }

/-- "Stop IO". -/
def stopIo (s : Server) : Server :=
  if s.ioThread = .absent then s else { s with ioStopped := true, ioThread := .absent }

/-! ## Steps -/

inductive Action
  | listen (endpoint : Option Endpoint) (listenEc acceptEc : Bool)
  | stopListener
  | stopConnections
  | stopIo
  /-- A connection is accepted. -/
  | accepted
  | opened (hdl : Nat)
  /-- A handshake ends without an open event. -/
  | failed (hdl : Nat)
  | closed (hdl : Nat)
  | runReturns
deriving DecidableEq

/-- The calls come one after another, the stages of `stop` in their order, and
handlers while the io thread is inside `run`. -/
def step (s : Server) : Action → Option Server
  | .listen endpoint listenEc acceptEc =>
    if s.stopping = .no then some (s.listen endpoint listenEc acceptEc) else none
  | .stopListener =>
    if s.stopping = .no then
      some { s.stopListener with stopping := .listener, log := { s.log with stopCalled := true } }
    else none
  | .stopConnections => if s.stopping = .listener then some { s.stopConnections with stopping := .connections } else none
  | .stopIo => if s.stopping = .connections then some { s.stopIo with stopping := .no } else none
  | .accepted =>
    if s.ioThread = .running ∧ s.accepting = true then
      some { s with accepted := s.accepted + 1, handshaking := insert s.accepted s.handshaking }
    else none
  | .opened hdl =>
    if s.ioThread = .running ∧ hdl ∈ s.handshaking then
      some { s.openHandler hdl with
        handshaking := s.handshaking.erase hdl
        log := { s.log with opened := insert hdl s.log.opened, openedSince := insert hdl s.log.openedSince } }
    else none
  | .failed hdl =>
    if s.ioThread = .running ∧ hdl ∈ s.handshaking then some { s with handshaking := s.handshaking.erase hdl } else none
  | .closed hdl =>
    if s.ioThread = .running ∧ hdl ∈ s.log.opened \ s.log.closed then
      some { s.closeHandler hdl with log := { s.log with closed := insert hdl s.log.closed } }
    else none
  -- `run` returns once nothing is left to wait for, and leaves the service stopped.
  | .runReturns =>
    if s.ioThread = .running ∧ s.accepting = false ∧ s.handshaking = ∅ ∧ s.log.opened \ s.log.closed = ∅ then
      some { s with ioThread := .returned, ioStopped := true }
    else none

end Server

end ComponentsNetwork.WebSockets
