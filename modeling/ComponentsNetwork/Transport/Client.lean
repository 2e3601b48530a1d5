import ComponentsNetwork.Transport.Packet
import Mathlib.Logic.Function.Basic
/-!
# The transport client

`transportclient.h` and `transportclient.cpp`. `gotResponse` runs when the
socket has data, and takes what `readAll` returns for one packet's text.

What the network and the user's callbacks do comes with the call: whether the
host is reached, what `readAll` returns, and the callback's output, if it
returns true. Left out: the signals, and what only goes to the logger.
-/

namespace ComponentsNetwork.TransportLevel

open Buffers Chunks TransportPacket

/-- `TransportClient::Impl`, and what was done with it. -/
structure TransportClient where
  token : Bytes := []
  serverAddress : String := "127.0.0.1"
  serverPort : UInt16 := 0
  /-- `m_processorCallback` is set. -/
  processorCallback : Bool := false
  /-- The socket is in `ConnectedState`. -/
  connected : Bool := false
  subpacketVectors : Bytes → List TransportPacket := fun _ => []
  /-- What `error` was called with. -/
  errors : List String := []
  /-- The packets decoded and dispatched. -/
  dispatched : List TransportPacket := []
  /-- The calls of `m_processorCallback`. -/
  calls : List Bytes := []
  /-- What was written to the socket. -/
  sent : List Bytes := []

namespace TransportClient

variable (c : Codec) (σ : Sorter TransportPacket subPacketNo)

def error (cl : TransportClient) (errorMsg : String) : TransportClient := { cl with errors := cl.errors ++ [errorMsg] }

def setToken (cl : TransportClient) (token : Bytes) : TransportClient := { cl with token }

def setAddress (cl : TransportClient) (hostname : String) (port : UInt16) : TransportClient :=
  if cl.connected then cl.error "Can not set address: in connected state"
  else { cl with serverAddress := hostname, serverPort := port }

/-- `set`: the callback is not empty. -/
def setProcessor (cl : TransportClient) (set : Bool) : TransportClient :=
  if cl.connected then cl.error "Can not set processor: in connected state"
  else { cl with processorCallback := set }

/-- `reached`: the socket is connected once the wait for it ends. -/
def connectToHost (cl : TransportClient) (reached : Bool) : Bool × TransportClient :=
  if cl.token = [] then (false, cl.error "Token not set")
  else if cl.serverPort = 0 then (false, cl.error "Port not set")
  else if !cl.processorCallback then (false, cl.error "Callback for response packets not set")
  else (reached, { cl with connected := reached })

/-- `send(str.c_str())`: the array made of it ends at the first zero byte. -/
def send (cl : TransportClient) (str : Bytes) : TransportClient :=
  { cl with sent := cl.sent ++ [str.takeWhile (· ≠ 0)] }

/-- The packet of a request; `key` is what `generateKey` returns. -/
def requestPacket (cl : TransportClient) (key requestData : Bytes) : TransportPacket :=
  { token := cl.token, guid := generateGuid c key, payload := requestData }

/-- The strings a request is sent as. -/
def requestStrings (reqp : TransportPacket) : List Bytes :=
  if reqp.mustBeSeparated then reqp.toSubpackets c else [reqp.toString c]

def request (cl : TransportClient) (requestData key : Bytes) (reached : Bool) : TransportClient :=
  match cl.connectToHost reached with
  | (false, cl) => cl.error "Cannot request: connection error"
  | (true, cl) => (requestStrings c (cl.requestPacket c key requestData)).foldl send cl

def processSubpacket (cl : TransportClient) (subp : TransportPacket) (reply : Option Bytes) : TransportClient :=
  let vector := cl.subpacketVectors subp.guid ++ [subp]
  if vector.length = subp.subPacketTotalCount then
    -- The vector stays, sorted; whether the subpackets decode is not looked at.
    let x := subp.fromSubpackets c σ vector
    let cl := { cl with
      subpacketVectors := Function.update cl.subpacketVectors subp.guid x.2
      calls := cl.calls ++ [x.1.2.payload] }
    match reply with
    | none => cl
    | some output => cl.send (TransportPacket.toString c { payload := output })
  else { cl with subpacketVectors := Function.update cl.subpacketVectors subp.guid vector }

/-- `responseData` is what `readAll` returned. -/
def gotResponse (cl : TransportClient) (responseData : Bytes) (reply : Option Bytes) : TransportClient :=
  match fromString c {} responseData with
  | (false, _) => cl.error "Failed to deserialize response"
  | (true, respp) =>
    let cl := { cl with dispatched := cl.dispatched ++ [respp] }
    if respp.subPacketTotalCount ≠ 0 then cl.processSubpacket c σ respp reply
    else
      let cl := { cl with calls := cl.calls ++ [respp.payload] }
      match reply with
      | none => cl
      | some output => cl.send output

/-- The client once `readAll` has returned each piece, with what the callback
would return for each. -/
def gotAll (cl : TransportClient) (pieces : List (Bytes × Option Bytes)) : TransportClient :=
  pieces.foldl (fun cl x => cl.gotResponse c σ x.1 x.2) cl

end TransportClient

end ComponentsNetwork.TransportLevel
