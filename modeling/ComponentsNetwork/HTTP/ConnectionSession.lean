import ComponentsNetwork.Lib.Runs
import ComponentsNetwork.Lib.Asio
import ComponentsNetwork.HTTP.Types
/-!
# A connection of the HTTP server

`connectionsession.cpp`, and the part of `Server::Impl::handleConnections`
that a session's `m_processors` call. `step` is one handler run by the
server's `io_context`, or one call from user code; the actions say what the
environment chose.

Handlers run one at a time: `Server::start` calls `run()` once. While a user
processor runs (`Phase.dispatching`) no other handler does, but reply
functions may be called. `log` is for the reader: what was received, handed to
the processors and written, in order.
-/

namespace ComponentsNetwork.HTTP

open Buffers Asio

/-- How a call ends. -/
inductive Exit
  | returns
  | throws
deriving DecidableEq, Repr

/-- The outcome of a server-side TLS handshake; the peer of a failed one may
be gone already. -/
inductive Handshake
  | succeeds
  | fails (peerConnected : Bool)
deriving DecidableEq, Repr

/-- What the session answers with a response: the reply of a request's
processor, an error it chose for a request, or (the deadline, with every
request answered) nothing. Requests are numbered from 0 in the order read. -/
inductive Origin
  | reply (k : Nat)
  | error (k : Nat)
  | deadline
deriving DecidableEq, Repr

/-- The request a response answers. -/
def Origin.request : Origin → Option Nat
  | .reply k => some k
  | .error k => some k
  | .deadline => none

/-- What the session's read loop is doing. -/
inductive Phase
  | reading
  | dispatching
  | ended
deriving DecidableEq, Repr

/-- `Server::m_processors`, for user processors of type `H`. -/
abbrev Processors (H : Type) := String → Option (MethodType → Option H)

namespace Processors
variable {H : Type}

/-- `m_processors[target][method] = cbk`. -/
def setHandler (ps : Processors H) (target : String) (method : MethodType) (cbk : H) : Processors H := fun t =>
  if t = target then
    some fun m => if m = method then some cbk else (ps target).bind fun methods => methods m
  else ps t

def setGetHandler (ps : Processors H) (target : String) (cbk : H) := ps.setHandler target .Get cbk
def setPostHandler (ps : Processors H) (target : String) (cbk : H) := ps.setHandler target .Post cbk
def setPutHandler (ps : Processors H) (target : String) (cbk : H) := ps.setHandler target .Put cbk
def setDeleteHandler (ps : Processors H) (target : String) (cbk : H) := ps.setHandler target .Delete cbk

end Processors

/-- What happened on a connection so far. -/
structure Log (H : Type) where
  /-- The requests read. -/
  received : List Request := []
  /-- The calls of the functions in the session's `m_processors`. -/
  handed : List (MethodType × Packet) := []
  /-- The calls of user processors. -/
  called : List (H × Packet) := []
  /-- The `async_write`s started, with the response each refers to. -/
  started : List (Origin × Response) := []
  /-- `m_response` was assigned while a write referred to it. -/
  overwritten : Bool := false

structure ConnectionSession (H : Type) where
  serverProcessors : Processors H
  processors : List MethodType := []
  /-- `m_socket` holds the `ssl::stream`. -/
  secure : Bool
  socketOpen : Bool := true
  request : Request := {}
  response : Response := {}
  responseErrorPacket : Packet := {}
  selfServerName : String := "Unknown server"
  deadlineTimer : SteadyTimer
  phase : Phase := .ended
  /-- The requests whose reply function has not been called. -/
  pending : List Nat := []
  /-- The `async_write`s outstanding. -/
  inFlight : Nat := 0
  /-- `m_ioc.run()` is executing. -/
  running : Bool := true
  now : Nat
  log : Log H := {}

namespace ConnectionSession
variable {H : Type} (reason : Nat → String)

/-- An exception that leaves a handler leaves `m_ioc.run()`. -/
def leave : ConnectionSession H × Exit → ConnectionSession H
  | (s, .returns) => s
  | (s, .throws) => { s with running := false, phase := .ended }

/-! ## Sending -/

/-- `m_response = r`. -/
def assignResponse (s : ConnectionSession H) (r : Response) : ConnectionSession H :=
  { s with response := r, log := { s.log with overwritten := s.log.overwritten || s.inFlight != 0 } }

/-- The settings every response gets before its result. -/
def settings (s : ConnectionSession H) (pkt : Packet) : Response :=
  { s.response with
    version := 11
    fields := (s.response.fields.set .server s.selfServerName).set .content_type (Packet.toString pkt.bodyType) }

/-- The two `std::visit`s that end `sendResponse`: the settings and the write.
`result` throws above 999. -/
def writeResponse (s : ConnectionSession H) (pkt : Packet) (o : Origin) : ConnectionSession H × Exit :=
  if pkt.statusCode ≤ 999 then
    let resp := { s.settings pkt with result := pkt.statusCode }
    ({ s with
        response := resp
        inFlight := s.inFlight + 1
        log := { s.log with started := s.log.started ++ [(o, resp)] } }, .returns)
  else ({ s with response := s.settings pkt }, .throws)

/-- `sendResponse` for a packet that is not a file. -/
def sendBody (s : ConnectionSession H) (pkt : Packet) (o : Origin) : ConnectionSession H × Exit :=
  let s := s.assignResponse {}
  let r := { s.response with body := .dynamic pkt.body }
  let r := { r with fields := r.fields.set .content_length r.body.octets.length.repr }
  writeResponse { s with response := r.preparePayload } pkt o

def sendErrorResponse (s : ConnectionSession H) (status : Nat) (o : Origin) : ConnectionSession H × Exit :=
  let s := { s with responseErrorPacket := createErrorPacket reason status }
  sendBody s s.responseErrorPacket o

/-- `opened` is the content of the file `pkt.target`, if it opens. -/
def sendResponse (s : ConnectionSession H) (pkt : Packet) (opened : Option Bytes) (o : Origin) :
    ConnectionSession H × Exit :=
  if pkt.isFile then
    let s := s.assignResponse { body := .file none }
    match opened with
    | none => sendErrorResponse reason s 400 o
    | some content =>
      let r := { s.response with body := .file (some content) }
      writeResponse { s with response := r.preparePayload } pkt o
  else sendBody s pkt o

/-- An error packet is not a file, so `sendErrorResponse` is a `sendResponse`
of it, as in the source. -/
theorem sendErrorResponse_eq (s : ConnectionSession H) (status : Nat) (opened : Option Bytes) (o : Origin) :
    sendErrorResponse reason s status o =
      let s' := { s with responseErrorPacket := createErrorPacket reason status }
      sendResponse reason s' s'.responseErrorPacket opened o := rfl

/-! ## The deadline -/

def checkDeadline (s : ConnectionSession H) : ConnectionSession H :=
  { s with deadlineTimer := s.deadlineTimer.cancel.asyncWait }

/-- `closes`: no error of `shutdown` keeps the socket from being closed. -/
def closeConnection (s : ConnectionSession H) (closes : Bool) : ConnectionSession H :=
  let s := { s with deadlineTimer := s.deadlineTimer.cancel }
  if s.socketOpen && closes then { s with socketOpen := false } else s

/-- The request that has waited longest for an answer, if one has, is what a
504 answers. -/
def oldestUnanswered (s : ConnectionSession H) : Origin :=
  if s.log.started.length < s.log.received.length then .error s.log.started.length else .deadline

/-- The handler of an elapsed deadline. -/
def deadlineHandler (s : ConnectionSession H) (closes : Bool) : ConnectionSession H :=
  let s := { s with responseErrorPacket := { s.responseErrorPacket with statusCode := 504 } }
  match sendResponse reason s s.responseErrorPacket none s.oldestUnanswered with
  | (s, .returns) => closeConnection s closes
  | (s, .throws) => leave (s, .throws)

/-! ## The read loop -/

/-- How a handshake ends, with what the peer makes of it. On a socket that is
closed it fails, and there is no peer for the `shutdown` after it. -/
def handshake (s : ConnectionSession H) (hs : Handshake) : Handshake := if s.socketOpen then hs else .fails false

/-- `handleRequests`. A secure session handshakes before every read; the
`shutdown` after a failed handshake throws if the peer is gone. -/
def handleRequests (s : ConnectionSession H) (hs : Handshake) : ConnectionSession H × Exit :=
  match s.secure, s.handshake hs with
  | true, .fails true => ({ s with phase := .ended }, .returns)
  | true, .fails false => ({ s with phase := .ended }, .throws)
  | _, _ => (checkDeadline { s with phase := .reading }, .returns)

/-- The `switch` of `readHandler`. It leaves `targetMethodType` as it was
created for every other method: `garbage` is what the variable holds then. -/
def targetMethodType (method : Verb) (garbage : Int) : MethodType :=
  match method with
  | .get => .Get
  | .put => .Put
  | .post => .Post
  | .delete_ => .Delete
  | .other _ => MethodType.ofInt garbage

/-- `handleMethod` of `handleConnections`, for request `k`. A user processor
it calls is left running. -/
def handleMethod (s : ConnectionSession H) (pkt : Packet) (methType : MethodType) (k : Nat) :
    ConnectionSession H × Exit :=
  match s.serverProcessors pkt.target with
  | none => sendErrorResponse reason s 501 (.error k)
  | some methods =>
    match methods methType with
    | none => sendErrorResponse reason s 404 (.error k)
    | some targetMethodProcessor =>
      ({ s with
          phase := .dispatching
          pending := s.pending ++ [k]
          log := { s.log with called := s.log.called ++ [(targetMethodProcessor, pkt)] } }, .returns)

/-- The packet `readHandler` builds from `m_request`. -/
def requestPacket (r : Request) : Packet :=
  { target := r.target, body := r.body, bodyType := r.fields.bodyType }

/-- The dispatch in `readHandler`, with the request just read in `m_request`. -/
def dispatch (s : ConnectionSession H) (garbage : Int) (k : Nat) : ConnectionSession H × Exit :=
  let request := requestPacket s.request
  let m := targetMethodType s.request.method garbage
  if m ∈ s.processors then
    handleMethod reason { s with log := { s.log with handed := s.log.handed ++ [(m, request)] } } request m k
  else sendErrorResponse reason s 405 (.error k)

/-- `readHandler` after a read without error. While a user processor runs the
handler has not returned: `Action.processorReturns` is the rest of it. -/
def readHandler (s : ConnectionSession H) (incoming : Request) (garbage : Int) (hs : Handshake) :
    ConnectionSession H :=
  let received : ConnectionSession H := { s with
    request := s.request.readInto incoming
    log := { s.log with received := s.log.received ++ [incoming] } }
  match dispatch reason received garbage s.log.received.length with
  | (s, .throws) => leave (s, .throws)
  | (s, .returns) => if s.phase = .dispatching then s else leave (handleRequests s hs)

/-- `addMethod` of `handleConnections`. -/
def addMethod (s : ConnectionSession H) (methType : MethodType) : ConnectionSession H :=
  { s with processors := s.processors ++ [methType] }

/-- A session as `handleConnections` creates it at time `now`, before its
first `handleRequests`. -/
def accept (processors : Processors H) (selfServerName : String) (secure : Bool) (now : Nat) : ConnectionSession H :=
  let s : ConnectionSession H := {
    serverProcessors := processors, secure, selfServerName, now, deadlineTimer := { expiry := now + seconds 10 }
    -- `emplace` destroys the `tcp_stream`, which closes its socket, before
    -- the `ssl::stream` is made of that socket.
    socketOpen := !secure }
  (((s.addMethod .Get).addMethod .Put).addMethod .Post).addMethod .Delete

/-! ## Steps -/

inductive Action (H : Type)
  /-- One of the `set…Handler` calls. -/
  | setHandler (target : String) (method : MethodType) (cbk : H)
  | readCompletes (incoming : Request) (garbage : Int) (hs : Handshake)
  /-- `quiet`: the error is one the handler returns on without closing. -/
  | readFails (quiet closes : Bool)
  /-- The reply function of request `k` is called. -/
  | reply (k : Nat) (pkt : Packet) (opened : Option Bytes)
  | processorReturns (hs : Handshake)
  | processorThrows
  | tick (d : Nat)
  | deadlineElapses
  | deadlineExpires (closes : Bool)
  | writeCompletes

/-- `m_ioc` is free to run a handler. -/
def idle (s : ConnectionSession H) : Bool := s.running && s.phase ≠ .dispatching

def step (s : ConnectionSession H) : Action H → Option (ConnectionSession H)
  | .setHandler target method cbk =>
    some { s with serverProcessors := s.serverProcessors.setHandler target method cbk }
  | .readCompletes incoming garbage hs =>
    if s.idle && s.phase = .reading then some (readHandler reason s incoming garbage hs) else none
  | .readFails quiet closes =>
    if s.idle && s.phase = .reading then
      let s := { s with phase := .ended }
      some (if quiet then s else closeConnection s closes)
    else none
  | .reply k pkt opened =>
    if k ∈ s.pending then
      -- An exception goes to the caller, which is user code.
      some (sendResponse reason { s with pending := s.pending.erase k } pkt opened (.reply k)).1
    else none
  | .processorReturns hs =>
    if s.running && s.phase = .dispatching then some (leave (handleRequests s hs)) else none
  | .processorThrows =>
    if s.running && s.phase = .dispatching then some (leave (s, .throws)) else none
  | .tick d => some { s with now := s.now + d }
  | .deadlineElapses => (s.deadlineTimer.elapse s.now).map fun t => { s with deadlineTimer := t }
  | .deadlineExpires closes =>
    if s.idle then
      s.deadlineTimer.runHandler.map fun t => deadlineHandler reason { s with deadlineTimer := t } closes
    else none
  | .writeCompletes =>
    if s.idle && 0 < s.inFlight then some { s with inFlight := s.inFlight - 1 } else none

/-- The session once the accept handler has called `handleRequests`. -/
def start (processors : Processors H) (selfServerName : String) (secure : Bool) (now : Nat) (hs : Handshake) :
    ConnectionSession H :=
  leave (handleRequests (accept processors selfServerName secure now) hs)

end ConnectionSession

end ComponentsNetwork.HTTP
