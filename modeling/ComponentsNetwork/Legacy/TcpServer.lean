import ComponentsNetwork.Legacy.Exchange
import ComponentsNetwork.Legacy.ThreadManager
/-!
# The legacy TCP servers of a process

`Legacy/tcpserverinstance.cpp` over `threadmanager.cpp`, with the workers of
`connectionworker.cpp` and the client at the other end of each connection. All
`TcpServerInstanceQ` share the one `ThreadManager` of `getInstance`, and all
workers refer to its processors.

Left out: `listen`, the functions `initer` and `deiniter`, and the clients of
connections that were rejected. A worker whose connection is not set, or that
has finished, gets no signals of its socket.
-/

namespace ComponentsNetwork.Legacy

open Exchange

/-- `Impl`: the processors that were set through this server. -/
structure TcpServerInstanceQ where
  processors : Processors := {}

/-- The servers and what they share. The connections are by the number of
their workers; `rejected` is for the reader. -/
structure Servers where
  instances : List TcpServerInstanceQ := []
  manager : ThreadManager
  /-- `m_infoProcessor`, `m_actionProcessor`, `m_errorProcessor` of the manager. -/
  processors : Processors := {}
  links : List Link := []
  rejected : Nat := 0

namespace ThreadManager

/-- Worker `k` has its connection, and has not reported its end. -/
def isWorking (s : ThreadManager) (k : Nat) : Bool := s.made[k]?.any fun w => w.queued = none && !w.finished

end ThreadManager

namespace Servers

/-- The first constructor makes the manager. -/
def start (idealThreadCount : Int32) : Servers :=
  { instances := [{}], manager := ThreadManager.construct idealThreadCount }

/-- Each of them keeps its own copy and hands it to the manager. -/
def setProcessor (s : Servers) (i : Nat) (set : Processors → Processors) : Option Servers := do
  let server ← s.instances[i]?
  some { s with
    instances := s.instances.set i { server with processors := set server.processors }
    processors := set s.processors }

def setInfoProcessor (s : Servers) (i : Nat) (infoProcessor : Option (Packet → Packet → Packet)) : Option Servers :=
  s.setProcessor i fun ps => { ps with infoProcessor }

def setActionProcessor (s : Servers) (i : Nat) (actionProcessor : Option (Packet → Packet → Packet)) : Option Servers :=
  s.setProcessor i fun ps => { ps with actionProcessor }

def setErrorProcessor (s : Servers) (i : Nat) (errorProcessor : Bool) : Option Servers :=
  s.setProcessor i fun ps => { ps with errorProcessor }

/-- `incomingConnection` of a server. -/
def incomingConnection (s : Servers) (i : Nat) (draws : List UInt64) : Option Servers := do
  let _ ← s.instances[i]?
  let (created, manager) ← s.manager.createConnection draws
  if created then some { s with manager, links := s.links ++ [{}] }
  else some { s with manager, rejected := s.rejected + 1 }

/-- A step of connection `k`. Its worker processes with the functions of the
manager. -/
def exchange (c : Codec) (s : Servers) (k : Nat) (a : Exchange.Action) : Option Servers := do
  let link ← s.links[k]?
  let link ← Link.step c { link with processors := s.processors } a
  some { s with links := s.links.set k link }

inductive Action
  /-- Another server is constructed; `getInstance` answers with the manager there is. -/
  | construct
  | setInfoProcessor (i : Nat) (infoProcessor : Option (Packet → Packet → Packet))
  | setActionProcessor (i : Nat) (actionProcessor : Option (Packet → Packet → Packet))
  | setErrorProcessor (i : Nat) (errorProcessor : Bool)
  | incomingConnection (i : Nat) (draws : List UInt64)
  /-- The client's side of connection `k`. -/
  | sendMessage (k : Nat) (sendPacket : Packet) (wrote : Bool)
  | clientReads (k : Nat) (count : Nat)
  | clientDisconnects (k : Nat)
  /-- The worker's side. -/
  | setConnection (k : Nat)
  | workerReads (k : Nat) (count : Nat) (wrote : Bool)
  | workerCloses (k : Nat)
  /-- `onDisconnect` of the worker, and `onFinished` of the manager after it. -/
  | onDisconnect (k : Nat)
  | setThreadCount (newCount : Int32)

def step (c : Codec) (s : Servers) : Action → Option Servers
  | .construct => some { s with instances := s.instances ++ [{}] }
  | .setInfoProcessor i infoProcessor => s.setInfoProcessor i infoProcessor
  | .setActionProcessor i actionProcessor => s.setActionProcessor i actionProcessor
  | .setErrorProcessor i errorProcessor => s.setErrorProcessor i errorProcessor
  | .incomingConnection i draws => s.incomingConnection i draws
  | .sendMessage k sendPacket wrote => s.exchange c k (.sendMessage sendPacket wrote)
  | .clientReads k count => s.exchange c k (.clientReads count)
  | .clientDisconnects k => s.exchange c k .clientDisconnects
  | .setConnection k => (ThreadManager.step s.manager (.setConnection k)).map fun manager => { s with manager }
  | .workerReads k count wrote =>
    if s.manager.isWorking k then s.exchange c k (.workerReads count wrote) else none
  | .workerCloses k => if s.manager.isWorking k then s.exchange c k .workerCloses else none
  | .onDisconnect k => (ThreadManager.step s.manager (.onFinished k)).map fun manager => { s with manager }
  | .setThreadCount newCount => some { s with manager := (s.manager.setThreadCount newCount).2 }

end Servers

end ComponentsNetwork.Legacy
