import ComponentsNetwork.HTTP.ClientAnswers
import ComponentsNetwork.HTTP.ClientTheorems
import ComponentsNetwork.HTTP.ConnectionSession
import ComponentsNetwork.Lib.Streams
/-!
# A client and the session that serves it

One `Client` without TLS, the `ConnectionSession` that the server makes for the
connection of its first call, and the octets between them. The client makes one
call at a time (`requestAsync` lasts until its handlers have run). A call
writes its request and reads a response, and both may fail or be interrupted:
a write may then have sent a part of the request, a read may have taken
responses off the connection. Which response a call reads decides `Client.lean`
alone, by taking the next one. The session takes its own steps in between, in
any order; its handlers know nothing of calls.

Every call after the first finds the socket open, and its peek waits until
there is something to read. A call whose peek fails makes a new connection, and
is not part of the conversation.
-/

namespace ComponentsNetwork.HTTP

open Buffers Asio Runs

/-! ## Calls and their results -/

namespace Client

/-- What a call hands to its caller. -/
inductive Result
  | nothing
  | packet (p : Outcome Packet)
  | callbacks (calls : List (Option Packet))
  | downloaded (ok : Outcome Bool) (content : Option Bytes)
  | uploaded (ok : Outcome Bool)
deriving DecidableEq

def result (c : Client) (call : Call) (a : Attempt) (x : Exchange) : Result :=
  match call with
  | .setClientName _ | .setHost .. => .nothing
  | .request method pkt => .packet (c.request method pkt a x).1
  | .requestConst method pkt => .packet (c.requestConst method pkt a x).1
  | .requestAsync method pkt cbk => .callbacks (c.requestAsync method pkt cbk a x).2.1
  | .downloadFile target file => .downloaded (c.downloadFile target file a x).1 (c.downloadFile target file a x).2.1
  | .uploadFile target content => .uploaded (c.uploadFile target content a x).1

/-- A call of the conversation connects, if the socket is not open, or finds
the server's octets with its peek. -/
def reaches : Attempt := { peek := true, resolved := some ({}, []) }

end Client

/-- A response of the status has no body for the one who reads it. -/
def bodiless (status : Nat) : Bool := status / 100 = 1 || status = 204 || status = 304

/-- What a reader makes of a response: it does not know where the body came
from, and does not read one that the status rules out. -/
def Response.onWire (res : Response) : Response :=
  { res with body := .dynamic (if bodiless res.result then [] else res.body.octets) }

/-! ## The conversation -/

/-- A call that makes a request. -/
structure Asking where
  call : Client.Call
  /-- It makes the connection. -/
  connects : Bool
  /-- The requests written before it, in whole or in part. -/
  number : Nat
  /-- The responses that the session had started by then. -/
  before : Nat

/-- A call that has ended. -/
structure Ended extends Asking where
  /-- The response it has read, as the session counts those it starts; none if
  it has not read one as the session meant it. -/
  source : Option Nat
  result : Client.Result

/-- What a write has sent when it ends, without an error only if it is the
whole request. -/
inductive Sent
  | whole
  | part
  | nothing
deriving DecidableEq

structure Conversation (H : Type) where
  client : Client
  session : ConnectionSession H
  /-- The call whose request is written and whose read has not ended. -/
  waiting : Option Asking := none
  /-- What the client wrote and the session has not read. -/
  toServer : List (Option Request) := []
  /-- The responses the client has not read, as the session counts those it
  starts. One read in part is `none`. -/
  toClient : List (Option Nat) := []
  /-- Every request the client wrote, with its call. -/
  written : List (Option (Client.Call × Request)) := []
  ended : List Ended := []

namespace Conversation
variable {H : Type} (reason : Nat → String)

inductive Action (H : Type)
  /-- The caller calls the client. -/
  | call (call : Client.Call) (sent : Sent)
  /-- The session's side: a handler, or a call from the server's user code. -/
  | session (a : ConnectionSession.Action H)
  /-- The client's read ends, with an error unless `ok`. It takes `gone`
  responses off the connection and, if `torn`, a part of one more. `res` is
  what the response object then holds, if it is no response of the session. -/
  | reads (ok : Bool) (gone : Nat) (torn : Bool) (res : Response)

/-- The call, as it begins. -/
def asking (s : Conversation H) (call : Client.Call) : Asking :=
  { call, connects := !s.client.socketOpen, number := s.written.length, before := s.session.log.started.length }

/-- The call ends. -/
def ends (s : Conversation H) (asking : Asking) (x : Exchange) (source : Option Nat) : Option (Conversation H) :=
  (s.client.step ⟨asking.call, Client.reaches, x⟩).map fun client =>
    { s with
      client, waiting := none
      ended := s.ended ++ [{ asking with source, result := s.client.result asking.call Client.reaches x }] }

/-- The response of the session that the client reads next; none if a part of
it is gone. -/
def next (s : Conversation H) : Option (Nat × Response) :=
  s.toClient.head?.join.bind fun j => s.session.log.started[j]?.map fun x => (j, x.2.onWire)

/-- A read that ends with the next response takes it off the connection, but
for a body that is not read. -/
def complete (s : Conversation H) (gone : Nat) (torn : Bool) : Bool :=
  !s.toClient.isEmpty && (0 < gone || torn && s.next.all fun x => bodiless x.2.result)

/-- The response a read that ends hands over, as the session meant it. One that
was assigned while a write referred to it may have become anything. -/
def found (s : Conversation H) (ok : Bool) : Option (Nat × Response) :=
  if ok && !s.session.log.overwritten then s.next else none

/-- What a handler of the session sends. On a closed socket nothing arrives. -/
def sends (s : Conversation H) (session : ConnectionSession H) : List (Option Nat) :=
  if s.session.socketOpen && s.session.log.started.length < session.log.started.length then
    [some s.session.log.started.length]
  else []

/-- What a handler of the session leaves of the octets from the client. -/
def takes (s : Conversation H) : ConnectionSession.Action H → Option (List (Option Request))
  | .readCompletes incoming _ _ => Streams.read incoming s.toServer
  | _ => some s.toServer

def step (s : Conversation H) : Action H → Option (Conversation H)
  | .call call sent =>
    match s.client.message call with
    -- Nothing is written: the call ends at once.
    | none =>
      if s.waiting.isSome then none
      else (s.client.step ⟨call, Client.reaches, {}⟩).map fun client => { s with client }
    | some req =>
      if s.waiting.isSome || s.client.socketOpen && s.toClient.isEmpty then none
      else match sent with
        | .whole =>
          some { s with
            waiting := some (s.asking call)
            toServer := s.toServer ++ [some req]
            written := s.written ++ [some (call, req)] }
        | .part =>
          { s with toServer := s.toServer ++ [none], written := s.written ++ [none] }.ends (s.asking call)
            { write := false } none
        | .nothing => s.ends (s.asking call) { write := false } none
  | .session a =>
    (s.session.step reason a).bind fun session =>
      (s.takes a).map fun toServer => { s with session, toServer, toClient := s.toClient ++ s.sends session }
  | .reads ok gone torn res =>
    match s.waiting with
    | none => none
    | some asking =>
      if ok && !s.complete gone torn then none
      else
        { s with toClient := Client.Link.leftOf s.toClient gone torn }.ends asking
          { read := ok, res := ((s.found ok).map Prod.snd).getD res } ((s.found ok).map Prod.fst)

/-- A client without TLS that is not connected, and the session that a
connection at time `now` is given. -/
def start (client : Client) (processors : Processors H) (selfServerName : String) (now : Nat) : Conversation H :=
  { client := { client with secure := false, socketOpen := false }
    session := ConnectionSession.start processors selfServerName false now .succeeds }

end Conversation

end ComponentsNetwork.HTTP
