import ComponentsNetwork.Lib.Asio
import ComponentsNetwork.Lib.Buffers
import ComponentsNetwork.Lib.Runs
import Mathlib.Algebra.Group.Nat.Defs
/-!
# The websocketpp client

`WebSockets/client.cpp`. Connections are numbered in the order `connect`
creates them, pings in the order they are issued. The steps are the calls of
the client and the handlers of its io thread, each as long as it holds a
mutex; the frame of a ping is sent between two of them.

Not part of the state: what only goes to the logger, how long a timer runs,
the data processors, which nothing sets or calls, and the functions without a
body.
-/

namespace ComponentsNetwork.WebSockets

open Buffers Asio

inductive DisconnectReason
  | Normal
  | ServerClosed
  | ConnectionLost
  | ProtocolError
deriving DecidableEq, Repr

/-- The close code `disconnect` sends. -/
def DisconnectReason.code : DisconnectReason → Nat
  | .Normal => 1000
  | .ServerClosed => 1001
  | .ProtocolError => 1002
  | .ConnectionLost => 1006

/-- What happened to a connection: its open event, its close or fail event,
and the code the client closed it with. -/
structure Connection where
  uri : String
  opened : Bool := false
  ended : Bool := false
  closedWith : Option Nat := none
deriving DecidableEq, Repr

/-- Why the promise of a ping was set. -/
inductive Cause
  | pong (payload : Bytes)
  | timeout (id : Nat)
  | sendError (ping : Nat)
deriving DecidableEq, Repr

/-- A call of `ping` between its two uses of `pingMutex`: `id` is the local
variable, `ping` the number of the ping. -/
structure Sending where
  ping : Nat
  id : Nat
  payload : Bytes
deriving DecidableEq, Repr

/-- `Client::Impl`, its connections and what became of its pings.
`pendingPings` maps an id to the ping whose promise is stored under it, and
`timers` are the waits outstanding, each by the id its handler captured. -/
structure Client where
  connection : Option Nat := none
  connected : Bool := false
  ioThread : IoThread := .absent
  connections : List Connection := []
  messages : List (Nat × String) := []
  pendingPings : List (Nat × Nat) := []
  nextPingId : Nat := 0
  timers : List Nat := []
  sending : List Sending := []
  issued : Nat := 0
  resolved : List (Nat × Cause × Int) := []
deriving DecidableEq, Repr

namespace Client

/-! ## The connection -/

/-- `connect`; `ec` is whether `get_connection` fails. -/
def connect (c : Client) (host : String) (port : UInt16) (ec : Bool) : Client :=
  let uri := "ws://" ++ host ++ ":" ++ port.toNat.repr
  if ec then c
  else
    let c := { c with connections := c.connections ++ [{ uri }] }
    if c.ioThread = .absent then { c with ioThread := .running } else c

def isConnected (c : Client) : Bool := c.connected

/-- What the open handler sends, text and JSON. -/
def initialMessages : List String := ["hello", "\x7b\"test\":\"hello\"\x7d"]

/-- The open handler; the `sends`-th of its messages fails, if it has one. -/
def openHandler (c : Client) (hdl sends : Nat) : Client :=
  { c with
    connection := some hdl
    connected := true
    messages := c.messages ++ (initialMessages.take sends).map fun m => (hdl, m) }

/-- The close handler and the fail handler. -/
def closeHandler (c : Client) : Client := { c with connected := false }

/-- `client.close` of the stored connection. -/
def close (c : Client) (code : Nat) : Client :=
  match c.connection with
  | some hdl => { c with connections := c.connections.modify hdl fun con => { con with closedWith := some code } }
  | none => c

/-- `disconnect`; `ok` is whether `client.close` returns. -/
def disconnect (c : Client) (reason : DisconnectReason) (ok : Bool) : Client :=
  if !c.connected then c
  else
    let c := if ok then c.close reason.code else c
    { c with connected := false }

/-! ## Pings -/

/-- Sets the promise stored under `id`, if there is one, and erases it. -/
def settle (c : Client) (id : Nat) (cause : Cause) (value : Int) : Client :=
  match c.pendingPings.find? fun e => e.1 = id with
  | none => c
  | some (_, ping) =>
    { c with
      resolved := c.resolved ++ [(ping, cause, value)]
      pendingPings := c.pendingPings.filter fun e => e.1 ≠ id }

/-- How a call of `ping` goes on. -/
inductive PingResult
  | notConnected
  | invalidArgument
  | pending (ping : Nat)
deriving DecidableEq, Repr

/-- `std::copy_n(&payload[0], sizeof(id), &id)` copies from the payload: what
it leaves in `id` is the first character (of an empty string, its final zero). -/
def copy_n (payload : Bytes) : Nat := (payload.headD 0).toNat

/-- `ping` up to the sending of its frame. -/
def ping (c : Client) (bytes : Nat) : PingResult × Client :=
  if !c.isConnected then (.notConnected, c)
  else if bytes ≥ 8 then (.invalidArgument, c)
  else
    let id := c.nextPingId
    let payload := List.replicate bytes 0
    (.pending c.issued,
      { c with
        nextPingId := (c.nextPingId + 1) % 2 ^ 64
        pendingPings := c.pendingPings.filter (fun e => e.1 ≠ id) ++ [(id, c.issued)]
        timers := c.timers ++ [id]
        sending := c.sending ++ [{ ping := c.issued, id := copy_n payload, payload }]
        issued := c.issued + 1 })

/-- The rest of `ping`, once `client.ping` has returned. -/
def pingSent (c : Client) (s : Sending) (ec : Bool) : Client :=
  let c := { c with sending := c.sending.erase s }
  if ec then c.settle s.id (.sendError s.ping) (-1) else c

def timerHandler (c : Client) (id : Nat) (ec : Bool) : Client :=
  let c := { c with timers := c.timers.erase id }
  if ec then c else c.settle id (.timeout id) (-1)

/-- `std::memcpy(&id, payload.data(), sizeof(id))`, of a payload that is long
enough: its first eight octets, the lowest first. -/
def memcpy (payload : Bytes) : Nat := (payload.take 8).foldr (fun b n => b.toNat + 256 * n) 0

def pongHandler (c : Client) (payload : Bytes) : Client :=
  if payload.length ≥ 8 then c.settle (memcpy payload) (.pong payload) 1 else c

/-! ## Steps -/

inductive Action
  | connect (host : String) (port : UInt16) (ec : Bool)
  | opened (hdl sends : Nat)
  | closed (hdl : Nat)
  | failed (hdl : Nat)
  | disconnect (reason : DisconnectReason) (ok : Bool)
  | ping (bytes : Nat)
  | pingSent (s : Sending) (ec : Bool)
  | pong (payload : Bytes)
  | timer (id : Nat) (ec : Bool)
  | runReturns
deriving DecidableEq, Repr

/-- A connection opens at most once and ends at most once: it closes after it
was opened, or fails at any time. -/
def step (c : Client) : Action → Option Client
  | .connect host port ec => some (c.connect host port ec)
  | .opened hdl sends => do
    let con ← c.connections[hdl]?
    if con.opened ∨ con.ended then none
    else some ({ c with connections := c.connections.set hdl { con with opened := true } }.openHandler hdl sends)
  | .closed hdl => do
    let con ← c.connections[hdl]?
    if ¬con.opened ∨ con.ended then none
    else some { c with connections := c.connections.set hdl { con with ended := true } }.closeHandler
  | .failed hdl => do
    let con ← c.connections[hdl]?
    if con.ended then none
    else some { c with connections := c.connections.set hdl { con with ended := true } }.closeHandler
  | .disconnect reason ok => some (c.disconnect reason ok)
  | .ping bytes => some (c.ping bytes).2
  | .pingSent s ec => if s ∈ c.sending then some (c.pingSent s ec) else none
  | .pong payload => some (c.pongHandler payload)
  | .timer id ec => if id ∈ c.timers then some (c.timerHandler id ec) else none
  -- `run` returns once no connection and no timer is left to wait for.
  | .runReturns =>
    if c.ioThread = .running ∧ c.timers = [] ∧ ∀ con ∈ c.connections, con.ended then
      some { c with ioThread := .returned }
    else none

/-- What a step comes to, with what it found. -/
inductive Taken (c : Client) : Action → Client → Prop
  | connect {host : String} {port : UInt16} {ec : Bool} : Taken c (.connect host port ec) (c.connect host port ec)
  | opened {hdl sends : Nat} {con : Connection} (found : c.connections[hdl]? = some con)
      (fresh : con.opened = false ∧ con.ended = false) :
      Taken c (.opened hdl sends)
        (openHandler { c with connections := c.connections.set hdl { con with opened := true } } hdl sends)
  | ended {a : Action} {hdl : Nat} {con : Connection} (event : a = .closed hdl ∨ a = .failed hdl)
      (found : c.connections[hdl]? = some con) :
      Taken c a (closeHandler { c with connections := c.connections.set hdl { con with ended := true } })
  | disconnect {reason : DisconnectReason} {ok : Bool} : Taken c (.disconnect reason ok) (c.disconnect reason ok)
  | ping {bytes : Nat} : Taken c (.ping bytes) (c.ping bytes).2
  | pingSent {s : Sending} {ec : Bool} (sending : s ∈ c.sending) : Taken c (.pingSent s ec) (c.pingSent s ec)
  | pong {payload : Bytes} : Taken c (.pong payload) (c.pongHandler payload)
  | timer {id : Nat} {ec : Bool} (armed : id ∈ c.timers) : Taken c (.timer id ec) (c.timerHandler id ec)
  | runReturns (running : c.ioThread = .running) (ended : ∀ con ∈ c.connections, con.ended = true) :
      Taken c .runReturns { c with ioThread := .returned }

theorem step_taken {c c' : Client} {a : Action} (h : step c a = some c') : Taken c a c' := by
  cases a with
  | connect host port ec => cases h; exact .connect
  | opened hdl sends =>
    obtain ⟨con, hcon, h⟩ := Option.bind_eq_some_iff.1 h
    obtain ⟨hfresh, h⟩ := Option.ite_none_left_eq_some.1 h
    cases h
    exact .opened hcon (by simpa using hfresh)
  | closed hdl =>
    obtain ⟨con, hcon, h⟩ := Option.bind_eq_some_iff.1 h
    obtain ⟨-, h⟩ := Option.ite_none_left_eq_some.1 h
    cases h
    exact .ended (.inl rfl) hcon
  | failed hdl =>
    obtain ⟨con, hcon, h⟩ := Option.bind_eq_some_iff.1 h
    obtain ⟨-, h⟩ := Option.ite_none_left_eq_some.1 h
    cases h
    exact .ended (.inr rfl) hcon
  | disconnect reason ok => cases h; exact .disconnect
  | ping bytes => cases h; exact .ping
  | pingSent s ec =>
    obtain ⟨hs, h⟩ := Option.ite_none_right_eq_some.1 h
    cases h
    exact .pingSent hs
  | pong payload => cases h; exact .pong
  | timer id ec =>
    obtain ⟨hid, h⟩ := Option.ite_none_right_eq_some.1 h
    cases h
    exact .timer hid
  | runReturns =>
    obtain ⟨⟨hrunning, -, hended⟩, h⟩ := Option.ite_none_right_eq_some.1 h
    cases h
    exact .runReturns hrunning hended

end Client

end ComponentsNetwork.WebSockets
