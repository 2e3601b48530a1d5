import ComponentsNetwork.Lib.Runs
import ComponentsNetwork.UDP.Client
/-!
# Where the UDP client sends

`sends_to_last_set_iff`: a client sends only to the host that was set last, if
and only if every host that does not resolve is the one already stored.
-/

namespace ComponentsNetwork.UDP.Client

open Buffers Runs Asio

/-- The datagrams of the step go to the endpoint of the last `setHost` that
returned true, so there is one; a `setHost` that returns false leaves host and
endpoint alone. -/
structure SendsToLastSet (c : Client) (a : Action) (c' : Client) : Prop where
  sent : ∃ new, c'.sent = c.sent ++ new ∧ ∀ x ∈ new, c.resolved = some x.2
  failed : ∀ host port endpoints, a = .setHost host port endpoints → (c.setHost host port endpoints).1 = false →
    c'.host = c.host ∧ c'.serverEndpoint = c.serverEndpoint

/-- The endpoint the resolver's answer offers, if any. -/
def resolvedTo : Result (List Endpoint) → Option Endpoint
  | .ok (first :: _) => some first
  | .ok [] | .error _ => none

/-- A host that does not resolve is the one already stored. -/
def UnresolvedStored (c : Client) : Action → Prop
  | .setHost host port endpoints => resolvedTo endpoints = none → c.host = (host, port)
  | _ => True

/-- A port is stored only with the endpoint of the last host set. -/
def StoredResolved (c : Client) : Prop := c.host.2 ≠ 0 → c.resolved = some c.serverEndpoint

/-- The parts of the state that decide where datagrams go, and those sent. -/
def route (c : Client) : (String × UInt16) × Endpoint × Option Endpoint × List (Bytes × Endpoint) :=
  (c.host, c.serverEndpoint, c.resolved, c.sent)

@[simp] theorem handleError_route (c : Client) (errorType : ErrorType) (message : String) :
    (c.handleError errorType message).route = c.route := by
  unfold handleError
  split <;> rfl

theorem setHost_route (c : Client) (host : String) (port : UInt16) (endpoints : Result (List Endpoint)) :
    (c.setHost host port endpoints).1 = (resolvedTo endpoints).isSome ∧
      (c.setHost host port endpoints).2.route = match resolvedTo endpoints with
        | some first => ((host, port), first, some first, c.sent)
        | none => ((host, port), c.serverEndpoint, c.resolved, c.sent) := by
  unfold setHost
  rcases endpoints with what | _ | ⟨first, others⟩
  · exact ⟨rfl, handleError_route _ _ _⟩
  · exact ⟨rfl, handleError_route _ _ _⟩
  · exact ⟨rfl, rfl⟩

/-- `sendData` gives `send_to` at most one datagram, for the stored endpoint
and only with a port set. -/
theorem sendData_route (c : Client) (data : Bytes) (result : Result Nat) :
    ∃ new, (c.sendData data result).2.route = (c.host, c.serverEndpoint, c.resolved, c.sent ++ new) ∧
      ∀ x ∈ new, c.host.2 ≠ 0 ∧ x.2 = c.serverEndpoint := by
  have hnone : ∀ c' : Client, c'.route = c.route →
      ∃ new, c'.route = (c.host, c.serverEndpoint, c.resolved, c.sent ++ new) ∧
        ∀ x ∈ new, c.host.2 ≠ 0 ∧ x.2 = c.serverEndpoint := by
    intro c' h
    exact ⟨[], by rw [h]; simp [route], by simp⟩
  unfold sendData
  split
  · exact hnone _ (handleError_route _ _ _)
  · split
    · exact hnone _ (handleError_route _ _ _)
    · next hport =>
      refine ⟨[(data, c.serverEndpoint)], ?_, by simp [hport]⟩
      cases result with
      | ok => rfl
      | error what => exact handleError_route _ _ _

/-- A step that sends nothing. -/
theorem sends_nothing {c c' : Client} {a : Action} (ha : ∀ host port endpoints, a ≠ .setHost host port endpoints)
    (h : c'.route = c.route) : SendsToLastSet c a c' := by
  simp only [route, Prod.mk.injEq] at h
  exact ⟨⟨[], by simp [h.2.2.2], by simp⟩, fun host port endpoints he _ => absurd he (ha host port endpoints)⟩

theorem sendsToLastSet_setHost (c : Client) (host : String) (port : UInt16) (endpoints : Result (List Endpoint)) :
    SendsToLastSet c (.setHost host port endpoints) (c.setHost host port endpoints).2 ↔
      UnresolvedStored c (.setHost host port endpoints) := by
  obtain ⟨hresult, hroute⟩ := setHost_route c host port endpoints
  unfold UnresolvedStored
  constructor
  · intro h hnone
    have hfailed := h.failed host port endpoints rfl (by rw [hresult, hnone]; rfl)
    rw [hnone] at hroute
    simp only [route, Prod.mk.injEq] at hroute
    rw [← hfailed.1, hroute.1]
  · intro hstored
    refine ⟨⟨[], ?_, by simp⟩, ?_⟩
    · rcases hres : resolvedTo endpoints with _ | first <;> rw [hres] at hroute <;>
        simp only [route, Prod.mk.injEq] at hroute <;> simp [hroute.2.2.2]
    · intro host' port' endpoints' he hfalse
      cases he
      have hnone : resolvedTo endpoints = none := by
        rw [hresult] at hfalse
        exact Option.isNone_iff_eq_none.1 (Option.isSome_eq_false_iff.1 hfalse)
      rw [hnone] at hroute
      simp only [route, Prod.mk.injEq] at hroute
      exact ⟨by rw [hroute.1, hstored hnone], hroute.2.1⟩

theorem step_sends {c c' : Client} {a : Action} (hc : StoredResolved c) (h : step c a = some c') :
    SendsToLastSet c a c' ↔ UnresolvedStored c a := by
  cases a with
  | setHost host port endpoints => cases h; exact sendsToLastSet_setHost c host port endpoints
  | sendData data result =>
    cases h
    refine iff_of_true ⟨?_, fun _ _ _ he => nomatch he⟩ trivial
    obtain ⟨new, hroute, hnew⟩ := sendData_route c data result
    simp only [route, Prod.mk.injEq] at hroute
    refine ⟨new, hroute.2.2.2, fun x hx => ?_⟩
    obtain ⟨hport, hx⟩ := hnew x hx
    rw [hx, hc hport]
  | enableBroadcast result =>
    cases h
    refine iff_of_true (sends_nothing (by simp) ?_) trivial
    cases result with
    | ok => rfl
    | error what => exact handleError_route _ _ _
  | setErrorCallback isSet => cases h; exact iff_of_true (sends_nothing (by simp) rfl) trivial

theorem storedResolved_route {c c' : Client} (hc : StoredResolved c)
    (h : c'.host = c.host ∧ c'.serverEndpoint = c.serverEndpoint ∧ c'.resolved = c.resolved) : StoredResolved c' := by
  obtain ⟨hhost, hendpoint, hresolved⟩ := h
  unfold StoredResolved
  rw [hhost, hendpoint, hresolved]
  exact hc

theorem step_storedResolved {c c' : Client} {a : Action} (hc : StoredResolved c) (ha : UnresolvedStored c a)
    (h : step c a = some c') : StoredResolved c' := by
  cases a with
  | setHost host port endpoints =>
    cases h
    obtain ⟨-, hroute⟩ := setHost_route c host port endpoints
    rcases hres : resolvedTo endpoints with _ | first
    · rw [hres] at hroute
      simp only [route, Prod.mk.injEq] at hroute
      exact storedResolved_route hc ⟨by rw [hroute.1, ha hres], hroute.2.1, hroute.2.2.1⟩
    · rw [hres] at hroute
      simp only [route, Prod.mk.injEq] at hroute
      intro _
      rw [hroute.2.1, hroute.2.2.1]
  | sendData data result =>
    cases h
    obtain ⟨new, hroute, -⟩ := sendData_route c data result
    simp only [route, Prod.mk.injEq] at hroute
    exact storedResolved_route hc ⟨hroute.1, hroute.2.1, hroute.2.2.1⟩
  | enableBroadcast result =>
    cases h
    have hroute : (c.enableBroadcast result).2.route = c.route := by
      cases result with
      | ok => rfl
      | error what => exact handleError_route _ _ _
    simp only [route, Prod.mk.injEq] at hroute
    exact storedResolved_route hc ⟨hroute.1, hroute.2.1, hroute.2.2.1⟩
  | setErrorCallback isSet => cases h; exact hc

/-- In every run, every step sends only to the host set last and no failed
`setHost` changes anything if and only if every host that does not resolve is
the one already stored. -/
theorem sends_to_last_set_iff (acts : List Action) :
    EachStep step SendsToLastSet {} acts ↔ Meets step UnresolvedStored {} acts := by
  apply eachStep_iff (J := StoredResolved)
  · intro c a c' hc h
    exact step_sends hc h
  · intro c a c' hc ha h
    exact step_storedResolved hc ha h
  · intro hport
    exact absurd rfl hport

/-- A failed `setHost` before any other makes the client send to the address
its endpoint starts with. -/
theorem unset_host_sends :
    ∃ acts c, run step {} acts = some c ∧ c.sent = [([104, 105], {})] ∧ c.resolved = none ∧ c.host = ("nowhere", 9) ∧
      ¬ EachStep step SendsToLastSet {} acts := by
  refine ⟨[.setHost "nowhere" 9 (.error "Host not found"), .sendData [104, 105] (.ok 2)], _, rfl, rfl, rfl, rfl, ?_⟩
  intro h
  exact absurd ((h _ rfl).1.failed _ _ _ rfl rfl).1 (by decide)

end ComponentsNetwork.UDP.Client
