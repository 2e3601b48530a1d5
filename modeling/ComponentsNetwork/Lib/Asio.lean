import Mathlib.Data.List.Basic
/-!
# Asio

What the components use of Boost.Asio and have in common.

A `SteadyTimer` is a `steady_timer` on an explicit clock. Waiting on a timer
past its expiry ends at once, and `cancel` ends the waits that have not
elapsed but keeps the expiry. A wait that ended by a cancel runs its handler
with an error code; a wait that elapsed leaves a handler that no cancel takes
back.
-/

namespace ComponentsNetwork.Asio

/-- A resolved address and its port. -/
structure Endpoint where
  address : String := "0.0.0.0"
  port : Nat := 0
deriving DecidableEq, Repr

/-- The family of an address. -/
inductive Protocol
  | v4
  | v6
deriving DecidableEq, Repr

/-- An IPv6 address is written with colons. -/
def Endpoint.protocol (e : Endpoint) : Protocol := if ':' ∈ e.address.toList then .v6 else .v4

/-- A thread whose only work is `io_context::run()`. -/
inductive IoThread
  | absent
  | running
  | returned
deriving DecidableEq, Repr

/-! ## Timers -/

/-- Seconds on the nanosecond clock. -/
def seconds (n : Nat) : Nat := n * 1000000000

structure SteadyTimer where
  expiry : Nat
  /-- Waits that have neither elapsed nor been cancelled. -/
  waiting : Nat := 0
  /-- Handlers of elapsed waits that have not run. -/
  due : Nat := 0
deriving DecidableEq, Repr

namespace SteadyTimer

def cancel (t : SteadyTimer) : SteadyTimer := { t with waiting := 0 }

def asyncWait (t : SteadyTimer) : SteadyTimer := { t with waiting := t.waiting + 1 }

/-- The waits elapse, once the clock has reached the expiry. -/
def elapse (now : Nat) (t : SteadyTimer) : Option SteadyTimer :=
  if t.expiry ≤ now ∧ 0 < t.waiting then some { t with waiting := 0, due := t.due + t.waiting } else none

/-- The handler of an elapsed wait runs. -/
def runHandler (t : SteadyTimer) : Option SteadyTimer :=
  if 0 < t.due then some { t with due := t.due - 1 } else none

end SteadyTimer

end ComponentsNetwork.Asio
