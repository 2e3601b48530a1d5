import ComponentsNetwork.HTTP.ConnectionSession
/-!
# The legacy HTTP server

`Legacy/Implementation/HTTP`. A session takes one request, calls the processor
of its method and writes one response. The handlers of all sessions and of the
accepts are run by the `ioc.run()` that `start` calls, and an exception that
leaves one of them ends it.

The peer's address, if the socket still has a peer, and what the processor
makes of the packet come with the read. An accept that has got its connection
runs its handler later, and puts the connection into the server's `socket`
right before it. Left out: the deadline, which nothing waits on
(`restartTimeout` is not called), `keep_alive(false)`, which every response
has, and what only goes to the logger.
-/

namespace ComponentsNetwork.HTTPOld

open Buffers HTTP

/-! ## Packets -/

inductive ResponseType
  | ErrorText
  | PlainText
  | HTML
  | JSON
deriving DecidableEq, Repr

inductive ResponseResult
  | Ok
  | NotFound
  | BadRequest
  | NotImplemented
  | NoContent
  | Unauthorized
deriving DecidableEq, Repr

structure PacketMeta where
  responseResult : ResponseResult := .BadRequest
  responseType : ResponseType := .PlainText
  sessionId : Bytes := []
  target : String := ""
  body : Bytes := []
deriving DecidableEq, Repr

def ResponseType.contentType : ResponseType → String
  | .ErrorText => "text/plain"
  | .PlainText => "text/plain"
  | .HTML => "text/html"
  | .JSON => "application/json"

def ResponseResult.status : ResponseResult → Nat
  | .Ok => 200
  | .BadRequest => 400
  | .NotFound => 404
  | .NotImplemented => 501
  | .NoContent => 204
  | .Unauthorized => 401

/-- `m_requestGet` and the three others, with `H` for what they can be set to. -/
structure Processors (H : Type) where
  requestGet : Option H := none
  requestPost : Option H := none
  requestPut : Option H := none
  requestDelete : Option H := none
deriving DecidableEq

variable {H : Type}

/-- All four are set. -/
def Processors.complete (ps : Processors H) : Bool :=
  ps.requestGet.isSome && ps.requestPost.isSome && ps.requestPut.isSome && ps.requestDelete.isSome

/-- The function a method is switched to; `none` is the default. -/
def Processors.ofMethod (ps : Processors H) : Verb → Option (Option H)
  | .get => some ps.requestGet
  | .post => some ps.requestPost
  | .put => some ps.requestPut
  | .delete_ => some ps.requestDelete
  | .other _ => none

def methodString : Verb → String
  | .get => "GET"
  | .post => "POST"
  | .put => "PUT"
  | .delete_ => "DELETE"
  | .other name => name

/-! ## A session -/

inductive Phase
  | reading
  | writing
  /-- No handler holds the session. -/
  | closed
deriving DecidableEq, Repr

/-- What happened on a connection so far. -/
structure SessionLog (H : Type) where
  requests : List Request := []
  /-- The processors called, with what they were given. -/
  calls : List (H × PacketMeta) := []
  written : List Response := []
deriving DecidableEq

structure ClientSession (H : Type) where
  /-- `m_socket` is open: the server's socket was, when it was moved from. -/
  socketOpen : Bool
  processors : Processors H := {}
  response : Response := {}
  phase : Phase := .reading
  log : SessionLog H := {}
deriving DecidableEq

namespace ClientSession

/-- The last handler that holds the session has ended, and it is destroyed. -/
def destroyed (s : ClientSession H) : ClientSession H := { s with socketOpen := false, phase := .closed }

def readRequest (s : ClientSession H) : ClientSession H × Exit :=
  if s.processors.complete then (s, .returns) else (s.destroyed, .throws)

/-- `http::async_write` of `m_response`. -/
def write (s : ClientSession H) (response : Response) : ClientSession H :=
  { s with response, phase := .writing, log := { s.log with written := s.log.written ++ [response] } }

/-- The start of `m_response` for a request of HTTP version `version`. -/
def prepare (m_response : Response) (version : Nat) : Response :=
  { m_response with version, fields := m_response.fields.set .server "ManagementServer" }

/-- The closing brace is missing. -/
def unknownText (method : Verb) : Bytes := octets ("\x7b\"info\":\"Unknown method: " ++ methodString method ++ "\"")

/-- The response to a method that has no processor. -/
def unknownMethod (m_response : Response) (method : Verb) : Response :=
  { m_response with
    result := 400
    fields := m_response.fields.set .content_type "text/plain"
    body := .dynamic (m_response.body.octets ++ unknownText method) }

/-- The response that a processor has left in the packet. -/
def respond (m_response : Response) (response : PacketMeta) : Response :=
  let fields := m_response.fields.set .content_type response.responseType.contentType
  let body := m_response.body.octets ++ response.body
  { m_response with
    result := response.responseResult.status
    fields := fields.set .content_length body.length.repr
    body := .dynamic body }

/-- `peer` is the address of `remote_endpoint`, which throws without one. The
processor leaves `left` in the packet, or throws. -/
def processRequest (s : ClientSession H) (sha256 : String → Bytes) (version : Nat) (request : Request)
    (peer : Option String) (left : Option PacketMeta) : ClientSession H × Exit :=
  let s := { s with
    response := prepare s.response version, log := { s.log with requests := s.log.requests ++ [request] } }
  match peer with
  | none => (s.destroyed, .throws)
  | some address =>
    let response : PacketMeta := { sessionId := sha256 address, target := request.target, body := request.body }
    match s.processors.ofMethod request.method with
    | none => (s.write (unknownMethod s.response request.method), .returns)
    | some none => (s.destroyed, .throws)
    | some (some process) =>
      let s := { s with log := { s.log with calls := s.log.calls ++ [(process, response)] } }
      match left with
      | none => (s.destroyed, .throws)
      | some response => (s.write (respond s.response response), .returns)

end ClientSession

/-! ## The server -/

structure Server (H : Type) where
  processors : Processors H := {}
  port : UInt16 := 9001
  /-- `acceptor.is_open()`. -/
  acceptorOpen : Bool := false
  /-- `socket.is_open()`. -/
  socketOpen : Bool := false
  /-- The accepts whose handler has not run. -/
  accepts : Nat := 0
  /-- Those of them that have got their connection. -/
  accepted : Nat := 0
  /-- `ioc.run()` is executing. -/
  running : Bool := false
  /-- `ioc.stopped()`. -/
  stopped : Bool := false
  sessions : List (ClientSession H) := []

namespace Server

def setProcessorGet (s : Server H) (proc : Option H) : Server H :=
  { s with processors := { s.processors with requestGet := proc } }

def setProcessorPost (s : Server H) (proc : Option H) : Server H :=
  { s with processors := { s.processors with requestPost := proc } }

def setProcessorPut (s : Server H) (proc : Option H) : Server H :=
  { s with processors := { s.processors with requestPut := proc } }

def setProcessorDelete (s : Server H) (proc : Option H) : Server H :=
  { s with processors := { s.processors with requestDelete := proc } }

def acceptConnections (s : Server H) : Server H := { s with accepts := s.accepts + 1 }

/-- Whether the acceptor can be opened, bound and set to listen. -/
inductive Listening
  | refused (opened : Bool)
  | listens

/-- Up to the `ioc.run()`, which returns at once if `ioc` is stopped. -/
def start (s : Server H) (port : UInt16) : Listening → Server H × Exit
  | .refused opened => ({ s with port, acceptorOpen := opened }, .throws)
  | .listens => (acceptConnections { s with port, acceptorOpen := true, running := !s.stopped }, .returns)

/-- `cancel` throws where there is nothing open. -/
def stop (s : Server H) : Server H × Exit :=
  if !s.acceptorOpen then (s, .throws)
  else
    let s := { s with acceptorOpen := false }
    if !s.socketOpen then (s, .throws) else ({ s with socketOpen := false, stopped := true, running := false }, .returns)

/-- The operations outstanding: an accept, or the read or the write of a
session. -/
def outstanding (s : Server H) : Nat := s.accepts + s.sessions.countP fun session => session.phase ≠ .closed

/-- A handler ends. `run()` ends with the exception that leaves one, and `ioc`
stops once nothing is outstanding, whichever way the last one ends. -/
def leave (s : Server H) (exit : Exit) : Server H :=
  let s := if exit = .throws then { s with running := false } else s
  if s.outstanding = 0 then { s with running := false, stopped := true } else s

/-- An accept ends with a connection, which is put into `socket`. -/
def connection (s : Server H) : Server H :=
  { s with accepts := s.accepts - 1, accepted := s.accepted - 1, socketOpen := true }

/-- `connected`: no error, and the connection is in `socket`. -/
def acceptHandler (s : Server H) (connected : Bool) : Server H × Exit :=
  if connected then
    let pCon : ClientSession H := { socketOpen := s.socketOpen, processors := s.processors }
    -- `socket` is moved from.
    let s := { s with socketOpen := false }
    match pCon.readRequest with
    | (pCon, .returns) => (acceptConnections { s with sessions := s.sessions ++ [pCon] }, .returns)
    | (pCon, .throws) => ({ s with sessions := s.sessions ++ [pCon] }, .throws)
  else (acceptConnections s, .returns)

inductive Action (H : Type)
  | setProcessorGet (proc : Option H)
  | setProcessorPost (proc : Option H)
  | setProcessorPut (proc : Option H)
  | setProcessorDelete (proc : Option H)
  | start (port : UInt16) (o : Listening)
  | stop
  /-- An accept gets a connection. -/
  | connects
  /-- The handler of an accept. -/
  | accept (connected : Bool)
  /-- Session `i` has read a request. -/
  | reads (i version : Nat) (request : Request) (peer : Option String) (left : Option PacketMeta)
  | readFails (i : Nat)
  /-- The write of session `i` has ended, with an error or not. -/
  | written (i : Nat)

/-- Session `i`, in the phase in which it can act. -/
def session (s : Server H) (i : Nat) (phase : Phase) : Option (ClientSession H) :=
  if s.running then s.sessions[i]?.filter fun session => session.socketOpen && session.phase = phase else none

def step (sha256 : String → Bytes) (s : Server H) : Action H → Option (Server H)
  | .setProcessorGet proc => some (s.setProcessorGet proc)
  | .setProcessorPost proc => some (s.setProcessorPost proc)
  | .setProcessorPut proc => some (s.setProcessorPut proc)
  | .setProcessorDelete proc => some (s.setProcessorDelete proc)
  | .start port o => if s.running then none else some (s.start port o).1
  | .stop => some s.stop.1
  | .connects => if s.acceptorOpen && s.accepted < s.accepts then some { s with accepted := s.accepted + 1 } else none
  | .accept true =>
    if s.running && 0 < s.accepted then
      let x := s.connection.acceptHandler true
      some (x.1.leave x.2)
    else none
  | .accept false =>
    if s.running && s.accepted < s.accepts then
      let x := { s with accepts := s.accepts - 1 }.acceptHandler false
      some (x.1.leave x.2)
    else none
  | .reads i version request peer left =>
    (s.session i .reading).map fun session =>
      let x := session.processRequest sha256 version request peer left
      { s with sessions := s.sessions.set i x.1 }.leave x.2
  | .readFails i =>
    (s.session i .reading).map fun session => { s with sessions := s.sessions.set i session.destroyed }.leave .returns
  | .written i =>
    (s.session i .writing).map fun session => { s with sessions := s.sessions.set i session.destroyed }.leave .returns

end Server

end ComponentsNetwork.HTTPOld
