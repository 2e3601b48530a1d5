import ComponentsNetwork.Lib.Runs
import Mathlib.Data.List.AList
/-!
# The legacy thread manager

`Legacy/threadmanager.cpp` and the part of `Legacy/connectionworker.cpp` it
relies on. Workers and their threads are numbered in the order they are
created. `createConnection` queues the call that tells a worker its id, which
its own thread runs later, and `finished` of a worker is handled by the thread
of the manager, so the steps are the calls of the manager and these two.

Not part of the state: the processors, the sockets, and what becomes of a
worker and its thread once the tables have forgotten them.
-/

namespace ComponentsNetwork.Legacy

/-- `m_workerId`, and the queued call of `setConnection` by the id it passes. -/
structure ConnectionWorker where
  workerId : UInt64 := 0
  queued : Option UInt64 := none
  /-- `finished` was sent. -/
  finished : Bool := false
deriving DecidableEq, Repr

namespace ConnectionWorker

def getId (w : ConnectionWorker) : UInt64 := w.workerId

/-- A worker gets its connection once, so its socket is not connected yet. -/
def setConnection (w : ConnectionWorker) (workerId : UInt64) : ConnectionWorker :=
  { w with workerId, queued := none }

end ConnectionWorker

/-- A `QHash` by worker id. -/
abbrev Table := AList fun _ : UInt64 => Nat

def Table.size (t : Table) : Int := t.keys.length

/-- The tables hold the numbers of workers and threads; `made` has every
worker there was. -/
structure ThreadManager where
  workers : Table := ∅
  threads : Table := ∅
  maximumThreadCount : Int32 := 1
  made : List ConnectionWorker := []
deriving DecidableEq

namespace ThreadManager

def availableThreads (s : ThreadManager) : Int := s.maximumThreadCount.toInt - s.workers.size

def setThreadCount (s : ThreadManager) (newCount : Int32) : Bool × ThreadManager :=
  if s.workers.size > 0 ∨ newCount.toInt < 0 then (false, s) else (true, { s with maximumThreadCount := newCount })

/-- The constructor; `idealThreadCount` is what `QThread` answers. -/
def construct (idealThreadCount : Int32) : ThreadManager := (({} : ThreadManager).setThreadCount idealThreadCount).2

/-- `std::rand() * std::rand()` until it is no key; `none` where these draws
do not suffice. -/
def drawId (workers : Table) : List UInt64 → Option UInt64
  | [] => none
  | workerId :: draws => if workerId ∈ workers then drawId workers draws else some workerId

/-- `createConnection`, once it has returned, and whether it made a worker
rather than rejecting the connection. -/
def createConnection (s : ThreadManager) (draws : List UInt64) : Option (Bool × ThreadManager) :=
  if s.workers.size ≥ s.maximumThreadCount.toInt then some (false, s)
  else
    (drawId s.workers draws).map fun workerId =>
      (true,
        { s with
          workers := s.workers.insert workerId s.made.length
          threads := s.threads.insert workerId s.made.length
          made := s.made ++ [{ queued := some workerId }] })

/-- `onFinished`, sent by worker `k`. `none` is a look-up that finds no entry
and is followed all the same. -/
def onFinished (s : ThreadManager) (k : Nat) : Option ThreadManager := do
  let pWorker ← s.made[k]?
  let _ ← s.threads.lookup pWorker.getId
  let s := { s with threads := s.threads.erase pWorker.getId }
  let _ ← s.workers.lookup pWorker.getId
  some { s with workers := s.workers.erase pWorker.getId }

inductive Action
  | createConnection (draws : List UInt64)
  /-- The queued call of worker `k` runs. -/
  | setConnection (k : Nat)
  | onFinished (k : Nat)
  | setThreadCount (newCount : Int32)
deriving DecidableEq

/-- Worker `k` has its connection, and has not reported its end. -/
def Working (s : ThreadManager) (k : Nat) : Prop :=
  ∃ w, s.made[k]? = some w ∧ w.queued = none ∧ w.finished = false

def step (s : ThreadManager) : Action → Option ThreadManager
  | .createConnection draws => (s.createConnection draws).map Prod.snd
  | .setConnection k => do
    let w ← s.made[k]?
    let workerId ← w.queued
    some { s with made := s.made.set k (w.setConnection workerId) }
  -- A worker sends `finished` once, after its connection was set.
  | .onFinished k => do
    let w ← s.made[k]?
    if w.queued = none ∧ w.finished = false then
      onFinished { s with made := s.made.set k { w with finished := true } } k
    else none
  | .setThreadCount newCount => some (s.setThreadCount newCount).2

end ThreadManager

end ComponentsNetwork.Legacy
