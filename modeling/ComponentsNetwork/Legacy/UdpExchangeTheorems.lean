import ComponentsNetwork.Legacy.ExchangeTheorems
import ComponentsNetwork.Legacy.UdpExchange
/-!
# What becomes of packets sent over the legacy UDP exchange

- `never_received`: clients are told that every valid packet was sent, and the
  server emits none. Of all the datagrams it takes from its socket it keeps
  the last.
-/

namespace ComponentsNetwork.Legacy.UdpExchange

open Buffers Runs Exchange Datagrams Simulation

variable {c : Codec}

namespace UdpServerInstance

/-! ## A server without threads -/

/-- No entry is a thread, so no packet has been made. The first input is the
last datagram taken, and the others were never set. -/
structure Inert (s : UdpServerInstance) : Prop where
  processThreads : s.processThreads = List.replicate s.threadCount.toNat none
  threadsToRemove : s.threadsToRemove = List.replicate s.threadCount.toNat false
  resultVect : s.resultVect = []
  packetReceived : s.packetReceived = []
  socket : s.socket ≠ .listening
  threadInputs : s.threadInputs = (List.replicate s.threadCount.toNat []).set 0 (s.taken.getLast?.getD [])

theorem inert_construct (threadCount : UInt16) : Inert (construct threadCount) := by
  refine ⟨rfl, rfl, rfl, rfl, by simp [construct], ?_⟩
  cases h : threadCount.toNat <;> simp [construct, h, List.replicate_succ]

theorem freeThread_inert {s : UdpServerInstance} (hs : Inert s) :
    s.freeThread = if s.threadCount.toNat = 0 then none else some 0 := by
  unfold freeThread
  rw [hs.processThreads]
  cases s.threadCount.toNat with
  | zero => rfl
  | succ n => simp [List.range_succ_eq_map]

/-- The socket is where it was, and what was pending was taken or still is. -/
structure Drained (s t : UdpServerInstance) (pending : List Bytes) : Prop where
  inert : Inert t
  threadCount : t.threadCount = s.threadCount
  socket : t.socket = s.socket
  done : t.done = s.done
  taken : t.taken ++ t.pending = s.taken ++ pending

theorem drain_inert {s : UdpServerInstance} (hs : Inert s) (pending : List Bytes) :
    Drained s (s.drain pending) pending := by
  induction pending generalizing s with
  | nil => exact ⟨{ hs with }, rfl, rfl, rfl, rfl⟩
  | cons message pending ih =>
    have hfree : freeThread { s with taken := s.taken ++ [message] } = s.freeThread := rfl
    unfold drain
    dsimp only
    rw [hfree, freeThread_inert hs]
    split_ifs with hcount
    · refine ⟨{ hs with threadInputs := ?_ }, rfl, rfl, rfl, by simp⟩
      have hinputs := hs.threadInputs
      rw [hcount] at hinputs
      simpa [hcount] using hinputs
    · have hset : Inert { s with taken := s.taken ++ [message], threadInputs := s.threadInputs.set 0 message } := by
        refine { hs with threadInputs := ?_ }
        show s.threadInputs.set 0 message = _
        rw [hs.threadInputs, List.set_set]
        simp
      obtain ⟨hinert, hthreads, hsocket, hdone, htaken⟩ := ih hset
      exact ⟨hinert, hthreads, hsocket, hdone, by simpa using htaken⟩

theorem not_thread {s : UdpServerInstance} (hs : Inert s) (i : Nat) (t : ProcessThread) :
    s.processThreads[i]? ≠ some (some t) := by
  rw [hs.processThreads, List.getElem?_replicate]
  split <;> simp

theorem pushResult_inert {s : UdpServerInstance} (hs : Inert s) (i : Nat) : s.pushResult c i = none := by
  unfold pushResult
  rw [if_neg (not_thread hs i .started)]

theorem takeResult_inert {s : UdpServerInstance} (hs : Inert s) (i : Nat) : s.takeResult i = none := by
  unfold takeResult
  rw [if_neg (not_thread hs i .pushed)]

theorem removeThreads_inert {s s' : UdpServerInstance} (hs : Inert s) (h : s.removeThreads = some s') :
    s' = { s with threadFinished := false } := by
  unfold removeThreads at h
  obtain ⟨-, h⟩ := Option.ite_none_right_eq_some.1 h
  cases h
  have hthreads : List.zipWith (fun thread remove => if remove then none else thread) s.processThreads
      s.threadsToRemove = s.processThreads := by
    rw [hs.processThreads, hs.threadsToRemove]
    simp
  have hremove : s.threadsToRemove.map (fun _ => false) = s.threadsToRemove := by
    rw [hs.threadsToRemove]
    simp
  rw [hthreads, hremove]

theorem stop_inert {s : UdpServerInstance} (hs : Inert s) :
    Inert s.stop ∧ s.stop.done = true ∧ s.stop.taken = s.taken ∧ (s.done = false → s.stop.socket = .unconnected) := by
  unfold stop threadFinishedSignal
  split
  · next hdone => exact ⟨hs, hdone, rfl, fun h => absurd (hdone.symm.trans h) (by decide)⟩
  · refine ⟨{ hs with socket := ?_ }, rfl, rfl, fun _ => rfl⟩
    simp

end UdpServerInstance

/-! ## What is reported and what arrives -/

/-- The one datagram not reported as sent is the empty one, where it has been. -/
theorem sendPacket_eq_false {u : UdpClientInstance} {data : Packet} {ok : Bool} (h : c.Lawful) :
    (u.sendPacket c data ok).1 = false ↔ ok = true ∧ data.isValid = false := by
  have hempty : (PacketConverter.convert c data).length = 0 ↔ data.isValid = false := by
    cases hvalid : data.isValid with
    | false => simp [PacketConverter.convert, hvalid]
    | true =>
      have hlength := length_encode h data.serialized
      rw [convert_eq hvalid]
      simp only [Bool.true_eq_false, iff_false]
      omega
  rw [← hempty]
  unfold UdpClientInstance.sendPacket UdpClientInstance.sendMessage
  cases ok with
  | false => simp
  | true =>
    by_cases hzero : (PacketConverter.convert c data).length = 0 <;> simp [hzero]

namespace Network

theorem step_eq_some {s s' : Network} {a : Action} (h : s.step c a = some s') :
    ∃ t net, s.parties c a = some t ∧ run Datagrams.step s.net (s.events c a) = some net ∧ s' = { t with net } := by
  obtain ⟨t, ht, h⟩ := Option.bind_eq_some_iff.1 h
  obtain ⟨net, hnet, rfl⟩ := Option.map_eq_some_iff.1 h
  exact ⟨t, net, ht, hnet, rfl⟩

/-- The network of a run is one that goes through the run's events. -/
theorem follows : Follows (step c) Datagrams.step (events c) fun s n => s.net = n := by
  intro s n a s' hn hs
  obtain ⟨t, net, -, hnet, rfl⟩ := step_eq_some hs
  exact ⟨net, hn ▸ hnet, rfl⟩

/-- What an action makes arrive. -/
def arrivals (s : Network) : Action → List Datagram
  | .arrive k => s.net.flight[k]?.toList
  | _ => []

theorem events_arrived {s : Network} {a : Action} {net : Net Datagram}
    (h : run Datagrams.step s.net (s.events c a) = some net) : net.arrived = s.net.arrived ++ s.arrivals a := by
  cases a with
  | sendPacket i data ok =>
    cases ok with
    | false =>
      cases h
      simp [arrivals]
    | true =>
      simp only [events] at h
      cases hi : s.clients[i]? with
      | none =>
        simp only [hi] at h
        cases h
        simp [arrivals]
      | some u =>
        simp only [hi] at h
        cases h
        simp [arrivals]
  | lose k =>
    obtain ⟨n, hn, h⟩ := Option.bind_eq_some_iff.1 h
    obtain ⟨-, hn⟩ := Option.ite_none_right_eq_some.1 hn
    cases hn
    cases h
    simp [arrivals]
  | copy k =>
    obtain ⟨n, hn, h⟩ := Option.bind_eq_some_iff.1 h
    obtain ⟨d, -, rfl⟩ := Option.map_eq_some_iff.1 hn
    cases h
    simp [arrivals]
  | arrive k =>
    obtain ⟨n, hn, h⟩ := Option.bind_eq_some_iff.1 h
    obtain ⟨d, hd, rfl⟩ := Option.map_eq_some_iff.1 hn
    cases h
    simp [arrivals, hd]
  | setup | start | onMessage | pushResult | takeResult | removeThreads | stop =>
    cases h
    simp [arrivals]

/-! ## Runs -/

/-- Any clients, and a server that is not started. -/
def init (clients : List UdpClientInstance) (threadCount : UInt16) (address : String) : Network :=
  { clients, server := .construct threadCount, address }

/-- The data of what has arrived. -/
def arrived (s : Network) : List Bytes := s.net.arrived.map (·.data)

/-- What the server took is the beginning of what arrived; while it is not
stopped the rest is pending. -/
structure Sound (s : Network) : Prop where
  inert : s.server.Inert
  started : s.server.socket = .bound → s.server.done = false
  waiting : s.server.done = false → s.server.taken ++ s.server.pending = s.arrived
  taken : s.server.taken <+: s.arrived
  reported : ∀ x ∈ s.reported, x.1.isValid = true → x.2 = true

theorem sound_init (clients : List UdpClientInstance) (threadCount : UInt16) (address : String) :
    Sound (init clients threadCount address) := by
  refine ⟨UdpServerInstance.inert_construct threadCount, ?_, fun _ => rfl, List.prefix_refl _, ?_⟩
  · simp [init, UdpServerInstance.construct]
  · simp [init]

/-- A step that leaves the server's record of datagrams, and brings nothing. -/
theorem Sound.of_server {s t : Network} (hs : Sound s) (hinert : t.server.Inert) (htaken : t.server.taken = s.server.taken)
    (hbound : t.server.socket = .bound → t.server.done = false)
    (hwaiting : t.server.done = false → t.server.pending = s.server.pending ∧ s.server.done = false)
    (harrived : t.arrived = s.arrived) (hreported : t.reported = s.reported) : Sound t := by
  refine ⟨hinert, hbound, fun hdone => ?_, ?_, ?_⟩
  · obtain ⟨hpending, hbefore⟩ := hwaiting hdone
    rw [htaken, hpending, harrived, hs.waiting hbefore]
  · rw [htaken, harrived]
    exact hs.taken
  · rw [hreported]
    exact hs.reported

theorem sound_step (h : c.Lawful) (s : Network) (a : Action) (s' : Network) (hs : Sound s) (hstep : step c s a = some s') :
    Sound s' := by
  obtain ⟨t, net, ht, hnet, rfl⟩ := step_eq_some hstep
  have hnew := congrArg (List.map Datagram.data) (events_arrived hnet)
  rw [List.map_append] at hnew
  cases a with
  | setup i hostAddress port =>
    obtain ⟨u, -, ht⟩ := Option.bind_eq_some_iff.1 ht
    cases ht
    exact hs.of_server hs.inert rfl hs.started (fun hdone => ⟨rfl, hdone⟩) (hnew.trans (List.append_nil _)) rfl
  | sendPacket i data ok =>
    obtain ⟨u, -, ht⟩ := Option.bind_eq_some_iff.1 ht
    cases ht
    have hsame : net.arrived.map Datagram.data = s.arrived := hnew.trans (List.append_nil _)
    refine ⟨hs.inert, hs.started, fun hdone => ?_, ?_, ?_⟩
    · exact (hs.waiting hdone).trans hsame.symm
    · show s.server.taken <+: net.arrived.map Datagram.data
      rw [hsame]
      exact hs.taken
    · intro x hx hvalid
      rcases List.mem_append.1 hx with hx | hx
      · exact hs.reported x hx hvalid
      · cases List.mem_singleton.1 hx
        by_contra hfalse
        obtain ⟨-, hinvalid⟩ := (sendPacket_eq_false h).1 (Bool.eq_false_iff.2 hfalse)
        exact absurd (hvalid.symm.trans hinvalid) (by decide)
  | lose | copy =>
    cases ht
    exact hs.of_server hs.inert rfl hs.started (fun hdone => ⟨rfl, hdone⟩) (hnew.trans (List.append_nil _)) rfl
  | arrive k =>
    obtain ⟨d, hd, ht⟩ := Option.bind_eq_some_iff.1 ht
    obtain ⟨⟨-, -, hbound⟩, ht⟩ := Option.ite_none_right_eq_some.1 ht
    cases ht
    have hone : net.arrived.map Datagram.data = s.arrived ++ [d.data] := by
      rw [hnew, arrivals, hd]
      rfl
    refine ⟨{ hs.inert with }, hs.started, fun hdone => ?_, ?_, hs.reported⟩
    · show s.server.taken ++ (s.server.pending ++ [d.data]) = net.arrived.map Datagram.data
      rw [hone, ← hs.waiting hdone, List.append_assoc]
    · show s.server.taken <+: net.arrived.map Datagram.data
      rw [hone]
      exact hs.taken.trans (List.prefix_append _ _)
  | start ok =>
    obtain ⟨hdone, ht⟩ := Option.ite_none_left_eq_some.1 ht
    cases ht
    have hdone : s.server.done = false := Bool.eq_false_iff.2 hdone
    cases ok with
    | false => exact hs.of_server hs.inert rfl hs.started (fun _ => ⟨rfl, hdone⟩) (hnew.trans (List.append_nil _)) rfl
    | true =>
      refine hs.of_server { hs.inert with socket := ?_ } rfl (fun _ => hdone) (fun _ => ⟨rfl, hdone⟩)
        (hnew.trans (List.append_nil _)) rfl
      simp [UdpServerInstance.start]
  | onMessage =>
    obtain ⟨hdone, ht⟩ := Option.ite_none_left_eq_some.1 ht
    cases ht
    have hdone : s.server.done = false := Bool.eq_false_iff.2 hdone
    have hsame : net.arrived.map Datagram.data = s.arrived := hnew.trans (List.append_nil _)
    obtain ⟨hinert, -, hsocket, hkept, htaken⟩ := UdpServerInstance.drain_inert hs.inert s.server.pending
    have hall : s.server.onMessage.taken ++ s.server.onMessage.pending = net.arrived.map Datagram.data := by
      rw [hsame, ← hs.waiting hdone]
      exact htaken
    exact ⟨hinert, fun _ => hkept.trans hdone, fun _ => hall, ⟨_, hall⟩, hs.reported⟩
  | pushResult i =>
    obtain ⟨server, hserver, -⟩ := Option.map_eq_some_iff.1 ht
    cases (UdpServerInstance.pushResult_inert hs.inert i).symm.trans hserver
  | takeResult i =>
    obtain ⟨server, hserver, -⟩ := Option.map_eq_some_iff.1 ht
    cases (UdpServerInstance.takeResult_inert hs.inert i).symm.trans hserver
  | removeThreads =>
    obtain ⟨server, hserver, rfl⟩ := Option.map_eq_some_iff.1 ht
    cases UdpServerInstance.removeThreads_inert hs.inert hserver
    exact hs.of_server { hs.inert with } rfl hs.started (fun hdone => ⟨rfl, hdone⟩) (hnew.trans (List.append_nil _)) rfl
  | stop =>
    cases ht
    obtain ⟨hinert, hdone, htaken, hclosed⟩ := UdpServerInstance.stop_inert hs.inert
    refine hs.of_server hinert htaken (fun hbound => ?_) (fun hnot => absurd (hdone.symm.trans hnot) (by decide))
      (hnew.trans (List.append_nil _)) rfl
    cases hbefore : s.server.done with
    | false => exact absurd ((hclosed hbefore).symm.trans hbound) (by decide)
    | true =>
      have hsame : s.server.stop = s.server := if_pos hbefore
      have hbound : s.server.socket = .bound := hsame ▸ hbound
      exact absurd ((hs.started hbound).symm.trans hbefore) (by decide)

/-- In every run of clients and a server on a network that may lose, copy and
reorder datagrams: `sendPacket` returns true for every valid packet, also for
one that was not sent, and the server emits no packet. It takes what arrived
at it, in order; with threads to give it to, the last datagram is the first
input and there is no other. It never reports that it is running. -/
theorem never_received (h : c.Lawful) (clients : List UdpClientInstance) (threadCount : UInt16) (address : String)
    (as : List Action) (s : Network) (hs : run (step c) (init clients threadCount address) as = some s) :
    Conserved s.net ∧ s.server.taken <+: s.net.arrived.map (·.data) ∧ s.server.packetReceived = [] ∧
      s.server.threadInputs = (List.replicate s.server.threadCount.toNat []).set 0 (s.server.taken.getLast?.getD []) ∧
      s.server.isRunning = false ∧ ∀ x ∈ s.reported, x.1.isValid = true → x.2 = true := by
  obtain ⟨net, hnet, rfl⟩ := follows.run rfl hs
  have hsound := run_inv (sound_step h) (sound_init clients threadCount address) hs
  refine ⟨conserved hnet, hsound.taken, hsound.inert.packetReceived, hsound.inert.threadInputs, ?_, hsound.reported⟩
  simpa [UdpServerInstance.isRunning] using hsound.inert.socket

/-- Two packets that arrive and one that could not be written. -/
def three : List Action :=
  [.setup 0 "10.0.0.1" 8000, .start true, .sendPacket 0 (Link.ask [97]) true, .sendPacket 0 (Link.ask [98]) true,
    .sendPacket 0 (Link.ask [99]) false, .arrive 1, .arrive 0, .onMessage]

theorem never_received_three :
    ∃ s, run (step archiveCodec) (init [{}] 2 "10.0.0.1") three = some s ∧ s.server.taken.length = 2 ∧
      s.reported.length = 3 ∧ s.server.packetReceived = [] ∧ ∀ x ∈ s.reported, x.1.isValid = true → x.2 = true := by
  have hcounts : (run (step archiveCodec) (init [{}] 2 "10.0.0.1") three).map
      (fun s => (s.server.taken.length, s.reported.length)) = some (2, 3) := by decide +kernel
  obtain ⟨s, hs, he⟩ := Option.map_eq_some_iff.1 hcounts
  obtain ⟨htaken, hreported⟩ := Prod.mk.inj he
  obtain ⟨-, -, hnone, -, -, htold⟩ := never_received archiveCodec_lawful [{}] 2 "10.0.0.1" three s hs
  exact ⟨s, hs, htaken, hreported, hnone, htold⟩

end Network

end ComponentsNetwork.Legacy.UdpExchange
