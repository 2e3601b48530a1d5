import ComponentsNetwork.Lib.Buffers
import ComponentsNetwork.Lib.Runs
/-!
# Socket sessions

`BasicSocket/socketsession.cpp`. A session has one operation outstanding at a
time, and the steps are its calls, the completions of that operation, and a
reset by the peer.

`async_connect` opens the socket anew; once every address has failed, the
socket is open and not connected. `cancel` and `close` of a socket throw unless
it is open, `shutdown` and `write_some` unless it is connected.

Not part of the state: the close callback, which nothing calls.
-/

namespace ComponentsNetwork.Socket

open Buffers

inductive SocketState
  | closed
  | opened
  | connected
deriving DecidableEq, Repr

inductive Operation
  | connect
  | read
deriving DecidableEq, Repr

def bufferSize : Nat := 4096

/-- The fields of `Session`, what the read callback has been called with, and
what was written to the stream. -/
structure Session where
  bufferData : Bytes
  host : String := ""
  isConnected : Bool := false
  readCallback : Bool := false
  socket : SocketState := .closed
  outstanding : Option Operation := none
  delivered : List Bytes := []
  written : Bytes := []
deriving DecidableEq, Repr

namespace Session

def setReadCallback (s : Session) (isSet : Bool) : Session := { s with readCallback := isSet }

/-- `throws` is whether the resolver does. -/
def start (s : Session) (host : String) (throws : Bool) : Session :=
  let s := { s with host }
  if throws then s else { s with socket := .opened, outstanding := some .connect }

def read (s : Session) : Session := { s with outstanding := some .read }

/-- The handler of `async_connect`. -/
def onConnect (s : Session) (ec : Bool) : Session :=
  if ec then s else { ({ s with socket := .connected }).read with isConnected := true }

/-- The handler of `async_read_some`, which has written to the front of
`m_bufferData`. -/
def onRead (s : Session) (ec : Bool) (piece : Bytes) : Session :=
  let s := { s with bufferData := overlay s.bufferData piece }
  if ec then s
  else
    let response := s.bufferData.take piece.length
    let s := if s.readCallback then { s with delivered := s.delivered ++ [response] } else s
    s.read

/-- The octets `send` offers to `write_some`. -/
def line (iStr : Bytes) : Bytes := iStr ++ octets "\n"

/-- `send`, if it returns: `accepted` is the number of octets `write_some`
takes of those it is offered. -/
def send (s : Session) (iStr : Bytes) (accepted : Nat) : Option (Bool × Session) :=
  if s.socket = .connected then
    some (accepted ≠ 0, { s with written := s.written ++ (line iStr).take accepted })
  else none

/-- `close`, and whether it returns. -/
def close (s : Session) : Bool × Session :=
  match s.socket with
  | .closed => (false, s) -- `cancel` throws
  | .opened => (false, s) -- `shutdown` throws
  | .connected => (true, { s with socket := .closed })

/-- `~Session`. -/
def destroy (s : Session) : Bool := s.close.1

inductive Action
  | setReadCallback (isSet : Bool)
  | start (host port : String) (throws : Bool)
  | connected (ec : Bool)
  | read (ec : Bool) (piece : Bytes)
  | send (iStr : Bytes) (accepted : Nat)
  /-- The peer resets the connection. -/
  | reset
  | close
deriving DecidableEq, Repr

/-- The handler of an operation runs when the operation has completed. -/
def complete (s : Session) (op : Operation) (handler : Session → Session) : Option Session :=
  if s.outstanding = some op then some (handler { s with outstanding := none }) else none

def step (s : Session) : Action → Option Session
  | .setReadCallback isSet => some (s.setReadCallback isSet)
  | .start host _ throws => if s.outstanding ≠ none then none else some (s.start host throws)
  | .connected ec => s.complete .connect fun s => s.onConnect ec
  | .read ec piece =>
    if piece.length ≤ bufferSize ∧ (ec = false → 1 ≤ piece.length) then
      s.complete .read fun s => s.onRead ec piece
    else none
  | .send iStr accepted =>
    if 1 ≤ accepted ∧ accepted ≤ (line iStr).length then
      match s.send iStr accepted with
      | some (_, s) => some s
      | none => some s -- `write_some` throws
    else none
  | .reset => if s.socket = .connected then some { s with socket := .opened } else none
  | .close => some s.close.2

end Session

end ComponentsNetwork.Socket
