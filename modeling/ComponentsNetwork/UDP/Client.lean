import ComponentsNetwork.Lib.Asio
import ComponentsNetwork.Lib.Buffers
/-!
# The UDP client

`UDP/client.cpp`. `setHost` stores the host before it knows whether it resolves.
-/

namespace ComponentsNetwork.UDP

open Buffers Asio

inductive ErrorType
  | NoError
  | ConnectionError
  | SendError
  | ReceiveError
  | BindingError
  | ResolutionError
deriving DecidableEq, Repr

/-- What a call of Asio comes to: a value, or an exception with its text. -/
abbrev Result (α : Type) := Except String α

/-- `Client::Impl`. `errors` are the calls of the error callback, `sent` what
`send_to` was called with, and `resolved` the endpoint of the last `setHost`
that returned true. -/
structure Client where
  host : String × UInt16 := ("", 0)
  socketOpen : Bool := true
  serverEndpoint : Endpoint := {}
  errorCallback : Bool := true
  errors : List (ErrorType × String) := []
  sent : List (Bytes × Endpoint) := []
  resolved : Option Endpoint := none
deriving DecidableEq, Repr

namespace Client

def handleError (c : Client) (errorType : ErrorType) (message : String) : Client :=
  if c.errorCallback then { c with errors := c.errors ++ [(errorType, message)] } else c

/-- `Impl::sendData`, which all four functions that send call; `result` is the
number of bytes `send_to` reports. -/
def sendData (c : Client) (data : Bytes) (result : Result Nat) : Bool × Client :=
  if !c.socketOpen then (false, c.handleError .SendError "Socket is closed")
  else if c.host.2 = 0 then (false, c.handleError .SendError "Host did not set")
  else
    let c := { c with sent := c.sent ++ [(data, c.serverEndpoint)] }
    match result with
    | .ok bytesSent => (bytesSent = data.length, c)
    | .error what => (false, c.handleError .SendError what)

/-- `endpoints` is what the resolver returns. -/
def setHost (c : Client) (host : String) (port : UInt16) (endpoints : Result (List Endpoint)) : Bool × Client :=
  let c := { c with host := (host, port) }
  match endpoints with
  | .ok [] => (false, c.handleError .ResolutionError ("Failed to resolve host: " ++ host))
  | .ok (first :: _) => (true, { c with serverEndpoint := first, resolved := some first })
  | .error what => (false, c.handleError .ResolutionError what)

def enableBroadcast (c : Client) (result : Result Unit) : Bool × Client :=
  match result with
  | .ok () => (true, c)
  | .error what => (false, c.handleError .ConnectionError ("Failed to set broadcast option: " ++ what))

def setErrorCallback (c : Client) (isSet : Bool) : Client := { c with errorCallback := isSet }

inductive Action
  | setHost (host : String) (port : UInt16) (endpoints : Result (List Endpoint))
  | sendData (data : Bytes) (result : Result Nat)
  | enableBroadcast (result : Result Unit)
  | setErrorCallback (isSet : Bool)

def step (c : Client) : Action → Option Client
  | .setHost host port endpoints => some (c.setHost host port endpoints).2
  | .sendData data result => some (c.sendData data result).2
  | .enableBroadcast result => some (c.enableBroadcast result).2
  | .setErrorCallback isSet => some (c.setErrorCallback isSet)

end Client

end ComponentsNetwork.UDP
