import ComponentsNetwork.HTTP.Types
import ComponentsNetwork.Lib.Asio
import ComponentsNetwork.Lib.Runs
/-!
# The HTTP client

`client.cpp`. A client holds one stream, plain or TLS, and connects it when a
call needs it. What the network, the TLS library and the peer do during a call
is an `Attempt` (the steps of `connectToHost`) and an `Exchange` (the write
and the read after it). `log` records what was done to the stream; the client
itself never reads it.

Left out: what only goes to the logger, `maxFileSize`, which nothing reads,
and the certificate settings, which decide nothing but whether a handshake
succeeds.
-/

namespace ComponentsNetwork.HTTP

open Buffers Runs Asio

/-- How a call of the C++ code ends. -/
inductive Outcome (α : Type)
  | returns (a : α)
  | throws
deriving DecidableEq, Repr

/-! ## The stream -/

/-- How a TCP connect ends. A connect that fails may leave the socket open. -/
inductive Connect
  | succeeds
  | fails (leavesOpen : Bool)
deriving DecidableEq, Repr

def Connect.ok : Connect → Bool
  | .succeeds => true
  | .fails _ => false

def Connect.opens : Connect → Bool
  | .succeeds => true
  | .fails leavesOpen => leavesOpen

/-- What `connectToHost` meets: the peek in `isConnected`, the resolver's
answer (at least one endpoint, or an exception), `SSL_set_tlsext_host_name`,
`connect` to one endpoint and to a whole list of them, and the handshake. -/
structure Attempt where
  peek : Bool := false
  resolved : Option (Endpoint × List Endpoint)
  sni : Bool := true
  connect : Endpoint → Connect := fun _ => .succeeds
  connectAny : List Endpoint → Connect := fun _ => .succeeds
  handshake : Bool := true

/-- The write and the read of a call. `res` is what the response object holds
once the read has ended: the response itself if the read succeeded. -/
structure Exchange where
  write : Bool := true
  read : Bool := true
  res : Response := {}

inductive StreamEvent
  | connect (ok : Bool)
  | handshake (ok : Bool)
  | write (req : Request)
deriving DecidableEq, Repr

/-- `Client::Impl`. `secure` tells which alternative `socket` holds. -/
structure Client where
  secure : Bool
  socketOpen : Bool := false
  host : String := ""
  port : String := ""
  clientName : String := "TestApp"
  log : List StreamEvent := []
deriving DecidableEq, Repr

namespace Client

def setClientName (c : Client) (clientName : String) : Client := { c with clientName }

def setHost (c : Client) (host : String) (port : UInt16) : Client := { c with host, port := port.toNat.repr }

def isConnected (c : Client) (a : Attempt) : Bool := c.socketOpen && a.peek

/-- A TCP connect of the stream's socket. -/
def connected (c : Client) (result : Connect) : Client :=
  { c with socketOpen := result.opens, log := c.log ++ [.connect result.ok] }

/-- A TLS handshake; the socket stays as it is, whatever comes of it. -/
def handshaken (c : Client) (ok : Bool) : Client := { c with log := c.log ++ [.handshake ok] }

def connectToHost (c : Client) (a : Attempt) : Outcome Bool × Client :=
  if c.isConnected a then (.returns true, c)
  else match a.resolved with
    | none => (.throws, c)
    | some (first, others) =>
      if c.secure then
        if a.sni then
          -- One `ec` for both: the handshake's result replaces the connect's.
          (.returns a.handshake, (c.connected (a.connect first)).handshaken a.handshake)
        else
          -- The error goes into an `ec` declared in this branch.
          (.returns true, c)
      else
        let result := a.connectAny (first :: others)
        (.returns result.ok, c.connected result)

/-- `http::write` or `http::async_write` of `req` on the stream. -/
def write (c : Client) (req : Request) : Client := { c with log := c.log ++ [.write req] }

/-! ## Requests and responses -/

/-- The `switch` over the method. -/
def requestMethod : MethodType → Option Verb
  | .Get => some .get
  | .Put => some .put
  | .Post => some .post
  | .Delete => some .delete_
  | .Other .. => none

def newRequest (c : Client) (verb : Verb) (target : String) : Request :=
  { method := verb, target, fields := (Fields.set [] .user_agent c.clientName).set .host c.host }

def buildRequest (c : Client) (verb : Verb) (pkt : Packet) : Request :=
  let req := c.newRequest verb pkt.target
  let req := { req with fields := req.fields.set .content_type (Packet.toString pkt.bodyType) }
  let req := { req with body := req.body ++ pkt.body }
  let req := { req with fields := req.fields.set .accept (Packet.toString pkt.acceptableType) }
  req.preparePayload

def downloadRequest (c : Client) (target : String) : Request :=
  let req := c.newRequest .get target
  let req := { req with fields := req.fields.set .accept (Packet.toString .Bytes) }
  req.preparePayload

def uploadRequest (c : Client) (target : String) (content : Bytes) : Request :=
  let req := c.newRequest .post target
  let req := { req with fields := req.fields.set .content_type (Packet.toString .Bytes) }
  let req := { req with body := content }
  req.preparePayload

/-- The packet the second `request` and `requestAsync` build of a response. -/
def responsePacket (pkt : Packet) (res : Response) : Packet :=
  { target := pkt.target
    acceptableType := pkt.acceptableType
    statusCode := res.result
    bodyType := res.fields.bodyType
    body := res.body.octets }

/-! ## The calls -/

/-- `request(MethodType, Packet&&)`: the caller's packet, filled in. -/
def request (c : Client) (method : MethodType) (pkt : Packet) (a : Attempt) (x : Exchange) : Outcome Packet × Client :=
  match requestMethod method with
  | none => (.returns {}, c)
  | some verb =>
    let req := c.buildRequest verb pkt
    match c.connectToHost a with
    | (.throws, c) => (.throws, c)
    | (.returns false, c) => (.returns {}, c)
    | (.returns true, c) =>
      let c := c.write req
      if x.write && x.read then
        let pkt := { pkt with statusCode := x.res.result }
        let pkt := match x.res.fields.value .content_type with
          | some v => { pkt with bodyType := Packet.fromString v }
          | none => pkt
        (.returns { pkt with body := x.res.body.octets }, c)
      else (.returns {}, c)

/-- `request(MethodType, const Packet&)`: its write and read throw. -/
def requestConst (c : Client) (method : MethodType) (pkt : Packet) (a : Attempt) (x : Exchange) :
    Outcome Packet × Client :=
  match requestMethod method with
  | none => (.returns {}, c)
  | some verb =>
    let req := c.buildRequest verb pkt
    match c.connectToHost a with
    | (.throws, c) => (.throws, c)
    | (.returns false, c) => (.returns {}, c)
    | (.returns true, c) =>
      let c := c.write req
      if x.write && x.read then (.returns (responsePacket pkt x.res), c) else (.throws, c)

/-- The calls of `requestAsync`'s callback, in order; there are none if it is
empty (`cbk` is false). -/
def invoke (cbk : Bool) (p : Option Packet) : List (Option Packet) := if cbk then [p] else []

/-- The handler of `http::async_read`. A failed read does not end it. -/
def readHandler (pkt : Packet) (cbk : Bool) (x : Exchange) : List (Option Packet) :=
  (if x.read then [] else invoke cbk none) ++ invoke cbk (some (responsePacket pkt x.res))

/-- The handler of `http::async_write`, with the read it starts. -/
def writeHandler (pkt : Packet) (cbk : Bool) (x : Exchange) : List (Option Packet) :=
  if x.write then readHandler pkt cbk x else invoke cbk none

/-- The calls are those made by the time both operations have ended. -/
def requestAsync (c : Client) (method : MethodType) (pkt : Packet) (cbk : Bool) (a : Attempt) (x : Exchange) :
    Outcome Unit × List (Option Packet) × Client :=
  match requestMethod method with
  | none => (.returns (), [], c)
  | some verb =>
    let req := c.buildRequest verb pkt
    match c.connectToHost a with
    | (.throws, c) => (.throws, [], c)
    | (.returns false, c) => (.returns (), [], c)
    | (.returns true, c) => (.returns (), writeHandler pkt cbk x, c.write req)

/-- The file a download is saved to: what it holds, whether it can be opened,
and what reaches it of the octets written. -/
structure SaveFile where
  content : Option Bytes := none
  opens : Bool := true
  keeps : Bytes → Bytes := id

/-- The result and the file's content afterwards. -/
def downloadFile (c : Client) (target : String) (file : SaveFile) (a : Attempt) (x : Exchange) :
    Outcome Bool × Option Bytes × Client :=
  let req := c.downloadRequest target
  match c.connectToHost a with
  | (.throws, c) => (.throws, file.content, c)
  | (.returns false, c) => (.returns false, file.content, c)
  | (.returns true, c) =>
    let c := c.write req
    if x.write && x.read then
      if file.opens then (.returns (x.res.result = 200), some (file.keeps x.res.body.octets), c)
      else (.returns false, file.content, c)
    else (.throws, file.content, c)

/-- `content` is the file's, or `none` if it cannot be opened. -/
def uploadFile (c : Client) (target : String) (content : Option Bytes) (a : Attempt) (x : Exchange) :
    Outcome Bool × Client :=
  match content with
  | none => (.returns false, c)
  | some content =>
    let req := c.uploadRequest target content
    match c.connectToHost a with
    | (.throws, c) => (.throws, c)
    | (.returns false, c) => (.returns false, c)
    | (.returns true, c) =>
      let c := c.write req
      if x.write && x.read then (.returns (x.res.result = 200), c) else (.throws, c)

inductive Call
  | setClientName (clientName : String)
  | setHost (host : String) (port : UInt16)
  | request (method : MethodType) (pkt : Packet)
  | requestConst (method : MethodType) (pkt : Packet)
  | requestAsync (method : MethodType) (pkt : Packet) (cbk : Bool)
  | downloadFile (target : String) (file : SaveFile)
  | uploadFile (target : String) (content : Option Bytes)

structure Action where
  call : Call
  attempt : Attempt
  exchange : Exchange

/-- What a call leaves of the client. -/
def step (c : Client) : Action → Option Client
  | ⟨.setClientName clientName, _, _⟩ => some (c.setClientName clientName)
  | ⟨.setHost host port, _, _⟩ => some (c.setHost host port)
  | ⟨.request method pkt, a, x⟩ => some (c.request method pkt a x).2
  | ⟨.requestConst method pkt, a, x⟩ => some (c.requestConst method pkt a x).2
  | ⟨.requestAsync method pkt cbk, a, x⟩ => some (c.requestAsync method pkt cbk a x).2.2
  | ⟨.downloadFile target file, a, x⟩ => some (c.downloadFile target file a x).2.2
  | ⟨.uploadFile target content, a, x⟩ => some (c.uploadFile target content a x).2

end Client

end ComponentsNetwork.HTTP
