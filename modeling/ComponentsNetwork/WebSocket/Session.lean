import ComponentsNetwork.Lib.Buffers
import ComponentsNetwork.Lib.Runs
/-!
# WebSocket sessions

`websocketsession.cpp`: a client session over TCP and one over TLS. The two
classes hold the same fields and differ in how they start, so they share one
state. A session has one operation outstanding at a time, and the steps are
its calls and the completions of that operation.

Beast's `async_read` appends one whole message to `m_buffer` and removes
nothing from it; if it fails it may have appended a part of one. `isOpen` is
the stream's own state: `close` of a stream that is not open throws.
-/

namespace ComponentsNetwork.WebSocket

open Buffers Runs

inductive Operation
  | resolve
  | connect
  | handshake
  | read
deriving DecidableEq, Repr

/-- The fields of `Session` and `SecureSession`, the stream's state, and what
the callbacks have been called with. -/
structure Session where
  host : String := ""
  isConnected : Bool := false
  buffer : Bytes := []
  readCallback : Bool := false
  closeCallback : Bool := false
  outstanding : Option Operation := none
  isOpen : Bool := false
  delivered : List Bytes := []
  closeCalls : Nat := 0
deriving DecidableEq, Repr

/-- `throws` is whether `SecureSession::start` does; `Session::start` never
does. `ec` is whether the operation failed. -/
inductive Action
  | setReadCallback (isSet : Bool)
  | setCloseCallback (isSet : Bool)
  | start (host port : String) (throws : Bool)
  | resolved (ec : Bool)
  | connected (ec : Bool) (port : UInt16)
  | handshaken (ec : Bool)
  | read (ec : Bool) (appended : Bytes)
  | close (ok : Bool)
deriving DecidableEq, Repr

namespace Session

def setReadCallback (s : Session) (isSet : Bool) : Session := { s with readCallback := isSet }

def setCloseCallback (s : Session) (isSet : Bool) : Session := { s with closeCallback := isSet }

/-- `if (m_closeCallback) m_closeCallback();` -/
def callClose (s : Session) : Session := if s.closeCallback then { s with closeCalls := s.closeCalls + 1 } else s

def start (s : Session) (host : String) : Session := { s with host, outstanding := some .resolve }

def onResolve (s : Session) (ec : Bool) : Session := if ec then s else { s with outstanding := some .connect }

def onConnect (s : Session) (ec : Bool) (port : UInt16) : Session :=
  if ec then { s with isConnected := false }.callClose
  else { s with host := s.host ++ ":" ++ port.toNat.repr, outstanding := some .handshake, isConnected := true }

def onHandshake (s : Session) (ec : Bool) : Session :=
  if ec then s else { s with isOpen := true, isConnected := true, outstanding := some .read }

/-- `on_read`, after `async_read` has appended to `m_buffer`. -/
def onRead (s : Session) (ec : Bool) (appended : Bytes) : Session :=
  let s := { s with buffer := s.buffer ++ appended }
  if ec then { s with isOpen := false }.callClose
  else
    let s := if s.readCallback then { s with delivered := s.delivered ++ [s.buffer] } else s
    { s with outstanding := some .read }

/-- `close`, and whether it returns: `ok` is what closing an open stream comes
to. -/
def close (s : Session) (ok : Bool) : Bool × Session :=
  if !s.isConnected then (true, s) else (s.isOpen && ok, { s with isOpen := false })

/-- `~Session`, and whether it returns. -/
def destroy (s : Session) (ok : Bool) : Bool := (s.close ok).1

/-- The handler of an operation runs when the operation has completed. -/
def complete (s : Session) (op : Operation) (handler : Session → Session) : Option Session :=
  if s.outstanding = some op then some (handler { s with outstanding := none }) else none

def step (s : Session) : Action → Option Session
  | .setReadCallback isSet => some (s.setReadCallback isSet)
  | .setCloseCallback isSet => some (s.setCloseCallback isSet)
  | .start host _ throws => if throws ∨ s.outstanding ≠ none then none else some (s.start host)
  | .resolved ec => s.complete .resolve fun s => s.onResolve ec
  | .connected ec port => s.complete .connect fun s => s.onConnect ec port
  | .handshaken ec => s.complete .handshake fun s => s.onHandshake ec
  | .read ec appended => s.complete .read fun s => s.onRead ec appended
  | .close ok => some (s.close ok).2

end Session

namespace SecureSession

/-- Resolves, connects and handshakes before it returns, or throws. -/
def start (s : Session) (host : String) (throws : Bool) : Session :=
  if throws then { s with host } else { s with host, outstanding := some .handshake }

def onHandshake (s : Session) (ec : Bool) : Session :=
  if ec then s else { s with isOpen := true, isConnected := true, outstanding := some .read }

def onRead (s : Session) (ec : Bool) (appended : Bytes) : Session := s.onRead ec appended

def close (s : Session) (ok : Bool) : Bool × Session := s.close ok

/-- `~SecureSession`. -/
def destroy (s : Session) (ok : Bool) : Bool := (close s ok).1

def step (s : Session) : Action → Option Session
  | .setReadCallback isSet => some (s.setReadCallback isSet)
  | .setCloseCallback isSet => some (s.setCloseCallback isSet)
  | .start host _ throws => if s.outstanding ≠ none then none else some (start s host throws)
  | .resolved _ | .connected .. => none
  | .handshaken ec => s.complete .handshake fun s => onHandshake s ec
  | .read ec appended => s.complete .read fun s => onRead s ec appended
  | .close ok => some (close s ok).2

end SecureSession

end ComponentsNetwork.WebSocket
