import ComponentsNetwork.Lib.Asio
import ComponentsNetwork.Lib.Buffers
import ComponentsNetwork.Lib.Runs
/-!
# The UDP server

`UDP/server.cpp`. The steps are the calls of the server, made by one thread
that is not its io thread, and what that io thread does: a receive completes,
and the request processor returns or throws. A call runs as one step: `stop`
waits for the io thread, so a request processor that is executing when it is
called has ended when it returns.

`receives` counts the receives outstanding, `executing` tells that a receive
handler is in the request processor, `stopped` is the state of the
`io_context`, and `processed` holds what the processor was called with.
-/

namespace ComponentsNetwork.UDP

open Buffers Asio

inductive Socket
  | closed
  | opened
  | bound (port : UInt16)
deriving DecidableEq, Repr

/-- Which of the calls that `start` makes succeed: opening and binding the
socket, starting the receive, creating the thread. -/
structure StartOutcome where
  opens : Bool := true
  binds : Bool := true
  arms : Bool := true
  creates : Bool := true
deriving DecidableEq, Repr

structure Server where
  datagramBuffer : Bytes
  socket : Socket := .closed
  requestProcessor : Bool := false
  ioThread : IoThread := .absent
  isRunning : Bool := false
  receives : Nat := 0
  executing : Bool := false
  stopped : Bool := false
  processed : List Bytes := []
deriving DecidableEq, Repr

namespace Server

def isWorking (s : Server) : Bool := s.isRunning

def setRequestProcessor (s : Server) (isSet : Bool) : Server := { s with requestProcessor := isSet }

def startReceive (s : Server) : Server := { s with receives := s.receives + 1 }

/-- A new thread calls `run`. On a context that was stopped, and not
restarted, `run` returns at once. -/
def startThread (s : Server) : Server := { s with ioThread := if s.stopped then .returned else .running }

/-- `none` is the end of the program: a thread is assigned to one that has not
been joined. -/
def start (s : Server) (port : UInt16) (o : StartOutcome) : Option (Bool × Server) :=
  if s.isRunning then some (false, s)
  else if s.socket ≠ .closed ∨ !o.opens then some (false, s)
  else if !o.binds then some (false, { s with socket := .opened })
  else
    let s := { s with socket := .bound port, isRunning := true }
    -- From here on a failure leaves `isRunning` set.
    if !o.arms then some (false, s)
    else
      let s := s.startReceive
      if !o.creates then some (false, s)
      else if s.ioThread ≠ .absent then none
      else some (true, s.startThread)

/-- Stops the context, joins the thread and closes the socket, which ends the
receive outstanding; its handler stays with the stopped context. -/
def stop (s : Server) : Server :=
  { s with
    isRunning := false
    stopped := true
    ioThread := .absent
    executing := false
    receives := 0
    socket := .closed }

/-- The end of the receive handler. Without another receive `run` is out of
work: it returns and leaves the context stopped. -/
def finishHandler (s : Server) : Server :=
  if s.isRunning then s.startReceive else { s with ioThread := .returned, stopped := true }

/-- The handler of `async_receive_from` up to the call of the processor;
`received` is what was written to the front of `datagramBuffer`. -/
def receiveHandler (s : Server) (error : Bool) (received : Bytes) : Server :=
  let s := { s with datagramBuffer := received ++ s.datagramBuffer.drop received.length }
  if !error && 0 < received.length && s.requestProcessor then
    { s with executing := true, processed := s.processed ++ [s.datagramBuffer.take received.length] }
  else s.finishHandler

/-- The exception leaves `ioContext.run()`, and `run` catches it. -/
def processorThrows (s : Server) : Server := { s with executing := false, ioThread := .returned }

inductive Action
  | setRequestProcessor (isSet : Bool)
  | start (port : UInt16) (o : StartOutcome)
  | stop
  | receive (error : Bool) (received : Bytes)
  | processorReturns
  | processorThrows
deriving DecidableEq, Repr

/-- Handlers run one at a time, in a thread that is inside `run`. -/
def step (s : Server) : Action → Option Server
  | .setRequestProcessor isSet => some (s.setRequestProcessor isSet)
  | .start port o => (s.start port o).map Prod.snd
  | .stop => some s.stop
  | .receive error received =>
    if 0 < s.receives ∧ s.executing = false ∧ s.ioThread = .running ∧ s.stopped = false ∧ received.length ≤ 65507 then
      some ({ s with receives := s.receives - 1 }.receiveHandler error received)
    else none
  | .processorReturns => if s.executing then some { s with executing := false }.finishHandler else none
  | .processorThrows => if s.executing then some s.processorThrows else none

end Server

end ComponentsNetwork.UDP
