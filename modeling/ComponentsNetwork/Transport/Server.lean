import ComponentsNetwork.Transport.ConnectionSession
/-!
# The transport server

`transportserver.h` and `transportserver.cpp`. `init` opens the acceptor and
starts an accept, and each accept's handler starts the next one. The handlers
run in the threads of `start`. A session has a reference to `tokenList`: it
looks a token up in the list of the server as it is then.

Left out: the callback, whose result comes with the task that calls it, and
what only goes to the logger.
-/

namespace ComponentsNetwork.TransportLevel

open Buffers Chunks

/-- `TransportServerInstance::Impl`. -/
structure TransportServerInstance where
  port : UInt16 := 9020
  tokenList : List Bytes := []
  threadCount : UInt64 := 1
  /-- The port of `pAcceptor`. -/
  acceptor : Option UInt16 := none
  /-- The accepts outstanding. -/
  accepts : Nat := 0
  /-- Some thread runs the handlers. -/
  running : Bool := false
  sessions : List ConnectionSession := []

namespace TransportServerInstance

variable (c : Codec) (σ : Sorter TransportPacket TransportPacket.subPacketNo)

def setPort (s : TransportServerInstance) (portNo : UInt16) : TransportServerInstance := { s with port := portNo }

def setThreadCount (s : TransportServerInstance) (threadCount : UInt64) : TransportServerInstance :=
  { s with threadCount }

/-- The file is not read. -/
def loadTokens (s : TransportServerInstance) (_filePath : String) : TransportServerInstance :=
  { s with tokenList := s.tokenList ++ [octets "DEVELOP_TOKEN"] }

def handleConnections (s : TransportServerInstance) : TransportServerInstance := { s with accepts := s.accepts + 1 }

/-- `opened`: no exception of the acceptor's constructor. -/
def init (s : TransportServerInstance) (opened : Bool) : TransportServerInstance :=
  if opened then { s with acceptor := some s.port }.handleConnections else s

def start (s : TransportServerInstance) : TransportServerInstance :=
  { s with running := s.running || 0 < s.threadCount }

/-- `connection`: no error, and what the buffer of the new session holds. -/
def acceptHandler (s : TransportServerInstance) (connection : Option Bytes) : TransportServerInstance :=
  match connection with
  | some data =>
    { s with sessions := s.sessions ++ [ConnectionSession.start s.tokenList data] }.handleConnections
  | none => s.handleConnections

inductive Action
  | setPort (portNo : UInt16)
  | setThreadCount (threadCount : UInt64)
  | loadTokens (filePath : String)
  | init (opened : Bool)
  | start
  | accept (connection : Option Bytes)
  /-- On the connection of session `i`. -/
  | session (i : Nat) (a : ConnectionSession.Action)

def step (s : TransportServerInstance) : Action → Option TransportServerInstance
  | .setPort portNo => some (s.setPort portNo)
  | .setThreadCount threadCount => some (s.setThreadCount threadCount)
  | .loadTokens filePath => some (s.loadTokens filePath)
  | .init opened => some (s.init opened)
  | .start => some s.start
  | .accept connection =>
    if s.running && 0 < s.accepts then some ({ s with accepts := s.accepts - 1 }.acceptHandler connection) else none
  | .session i a =>
    if s.running then
      s.sessions[i]?.bind fun session =>
        ({ session with tokenList := s.tokenList }.step c σ a).map fun session =>
          { s with sessions := s.sessions.set i session }
    else none

end TransportServerInstance

end ComponentsNetwork.TransportLevel
