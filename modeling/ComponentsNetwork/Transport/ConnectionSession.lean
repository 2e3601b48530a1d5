import ComponentsNetwork.Lib.Runs
import ComponentsNetwork.Transport.Packet
import Mathlib.Logic.Function.Basic
/-!
# A connection of the transport server

`connectionsession.h` and `connectionsession.cpp` of `TransportServer`. The
handler of a read posts a task that decodes and processes the packet, and
starts the next read. `tmpBuffer = data_` in the task's captures makes a
pointer of the array, not a copy of it: a task finds in the buffer what is
there when it runs, and takes it up to the first zero byte.

`ProcessCallbackT` is user code: whether it returns true, and with what
output, comes with the step that calls it. `log` is for the reader. Left out:
`m_currentPacketNo`, `writeSocketAsync`, which nothing uses, and what only
goes to the logger.
-/

namespace ComponentsNetwork.TransportLevel

open Buffers Chunks TransportPacket

def dataBufferSize_ : Nat := 65535

/-- What happened on a connection so far. -/
structure SessionLog where
  /-- What each read delivered. -/
  reads : List Bytes := []
  /-- The strings passed to `fromString`, each with the read its task was
  posted for; `none` where the buffer has no end. -/
  passed : List (Nat × Option Bytes) := []
  /-- The calls of `m_packetProcessCallback`. -/
  calls : List Bytes := []
  /-- The strings written to the socket. -/
  written : List Bytes := []
deriving DecidableEq

structure ConnectionSession where
  tokenList : List Bytes
  /-- `data_`. What it holds before the first read is not set. -/
  data : Bytes
  /-- The subpackets that the closures in `m_subPacketsMap` hold. -/
  subPacketsMap : Bytes → Option (List TransportPacket) := fun _ => none
  /-- A read is outstanding. -/
  reading : Bool := true
  /-- The tasks posted that have not run, by the number of their read. -/
  posted : List Nat := []
  log : SessionLog := {}

namespace ConnectionSession

variable (c : Codec) (σ : Sorter TransportPacket subPacketNo)

def writeSocket (s : ConnectionSession) (dataStr : Bytes) : ConnectionSession :=
  { s with log := { s.log with written := s.log.written ++ [dataStr] } }

/-- The result, the packet afterwards, and the session. -/
def processSubpacket (s : ConnectionSession) (p : TransportPacket) : (Bool × TransportPacket) × ConnectionSession :=
  let subpackets := (s.subPacketsMap p.guid).getD [] ++ [p]
  if subpackets.length < p.subPacketTotalCount then
    ((false, p), { s with subPacketsMap := Function.update s.subPacketsMap p.guid (some subpackets) })
  else
    -- Whether the subpackets decode makes no difference to the closure.
    let x := p.fromSubpackets c σ subpackets
    ((true, x.1.2), { s with subPacketsMap := Function.update s.subPacketsMap p.guid (some x.2) })

/-- The strings a response is sent as. -/
def responseStrings (output : Bytes) : List Bytes :=
  let responsePacket : TransportPacket := { payload := output }
  if responsePacket.mustBeSeparated then responsePacket.toSubpackets c else [responsePacket.toString c]

/-- The callback and the answer; `reply` is the callback's output, if it
returns true. -/
def answer (s : ConnectionSession) (requestPacket : TransportPacket) (reply : Option Bytes) : ConnectionSession :=
  let s := { s with log := { s.log with calls := s.log.calls ++ [requestPacket.payload] } }
  match reply with
  | none => s
  | some output => (responseStrings c output).foldl writeSocket s

/-- The task, once `fromString` has returned true. -/
def process (s : ConnectionSession) (requestPacket : TransportPacket) (reply : Option Bytes) : ConnectionSession :=
  if requestPacket.token ∉ s.tokenList then
    let responsePacket := { requestPacket with token := [] }
    s.writeSocket (responsePacket.toString c)
  else if 0 < requestPacket.subPacketTotalCount then
    match s.processSubpacket c σ requestPacket with
    | ((false, _), s) => s
    | ((true, requestPacket), s) =>
      let s := { s with subPacketsMap := Function.update s.subPacketsMap requestPacket.guid none }
      s.answer c requestPacket reply
  else s.answer c requestPacket reply

/-- The task, from `fromString` on. -/
def processString (s : ConnectionSession) (input : Bytes) (reply : Option Bytes) : ConnectionSession :=
  match fromString c {} input with
  | (false, _) => s
  | (true, requestPacket) => s.process c σ requestPacket reply

/-- The task posted for read `k`. -/
def runTask (s : ConnectionSession) (k : Nat) (reply : Option Bytes) : ConnectionSession :=
  let input := cString s.data
  let s := { s with posted := s.posted.erase k, log := { s.log with passed := s.log.passed ++ [(k, input)] } }
  match input with
  | none => s
  | some input => s.processString c σ input reply

inductive Action
  /-- A read delivers bytes. -/
  | readCompletes (received : Bytes)
  /-- A read fails; `eof` is the error with value 2. -/
  | readFails (eof : Bool)
  | runTask (k : Nat) (reply : Option Bytes)

def step (s : ConnectionSession) : Action → Option ConnectionSession
  | .readCompletes received =>
    if s.reading && received.length ≤ dataBufferSize_ then
      some { s with
        data := overlay s.data received
        posted := s.posted ++ [s.log.reads.length]
        log := { s.log with reads := s.log.reads ++ [received] } }
    else none
  | .readFails eof =>
    if s.reading then
      if eof then some { s with reading := false }
      else some { s with
        posted := s.posted ++ [s.log.reads.length], log := { s.log with reads := s.log.reads ++ [[]] } }
    else none
  | .runTask k reply => if k ∈ s.posted then some (s.runTask c σ k reply) else none

/-- A session whose first read is started. -/
def start (tokenList : List Bytes) (data : Bytes) : ConnectionSession := { tokenList, data }

end ConnectionSession

end ComponentsNetwork.TransportLevel
