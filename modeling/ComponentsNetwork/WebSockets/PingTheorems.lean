import ComponentsNetwork.Lib.Tickets
import ComponentsNetwork.WebSockets.Client
/-!
# Theorems about pings

A ping is a ticket: `ping` issues it, and a pong, a timer or a failed send
settles it. As long as ids do not wrap around, `step_desk` says which of the
two, if any, a step does. `ping_not_documented` is about the payload: no call
of `ping` does what it is documented to do.
-/

namespace ComponentsNetwork.WebSockets.Client

open Buffers Runs Tickets

/-- The pings as tickets: those issued, those in `pendingPings`, and those
whose promise was set, with the cause. -/
def desk (c : Client) : Desk Cause :=
  ⟨c.issued, c.pendingPings.map Prod.fst, c.resolved.map fun x => (x.1, x.2.1)⟩

/-- A cause of the ping's own: a pong that starts with its id, its timer, the
sending of its frame. -/
def Own (ping : Nat) : Cause → Prop
  | .pong payload => 8 ≤ payload.length ∧ memcpy payload = ping
  | .timeout id => id = ping
  | .sendError k => k = ping

/-- While ids have not wrapped around, a ping's id is its number, except that
a call of `ping` forgets it before it sends. -/
structure Numbered (c : Client) : Prop where
  next : c.nextPingId = c.issued % 2 ^ 64
  key : ∀ e ∈ c.pendingPings, e.2 = e.1 ∧ e.1 < c.issued
  forgotten : ∀ s ∈ c.sending, s.id = 0

theorem copy_n_replicate (bytes : Nat) : copy_n (List.replicate bytes 0) = 0 := by
  cases bytes <;> rfl

theorem settle_sub (c : Client) (id : Nat) (cause : Cause) (value : Int) :
    (c.settle id cause value).nextPingId = c.nextPingId ∧ (c.settle id cause value).issued = c.issued ∧
      (c.settle id cause value).sending = c.sending ∧
      ∀ e ∈ (c.settle id cause value).pendingPings, e ∈ c.pendingPings := by
  unfold settle
  split
  · exact ⟨rfl, rfl, rfl, fun _ he => he⟩
  · exact ⟨rfl, rfl, rfl, fun _ he => List.mem_of_mem_filter he⟩

theorem numbered_settle {c : Client} (hc : Numbered c) (id : Nat) (cause : Cause) (value : Int) :
    Numbered (c.settle id cause value) := by
  obtain ⟨hnext, hissued, hsending, hpending⟩ := settle_sub c id cause value
  refine ⟨by rw [hnext, hissued, hc.next], fun e he => ?_, by rw [hsending]; exact hc.forgotten⟩
  rw [hissued]
  exact hc.key e (hpending e he)

theorem desk_settle {c : Client} (hc : Numbered c) (id : Nat) (cause : Cause) (value : Int) :
    (c.settle id cause value).desk = c.desk.settle id cause := by
  rcases hfind : c.pendingPings.find? fun e => e.1 = id with _ | ⟨k, ping⟩
  · have hnot : id ∉ c.desk.waiting := by
      intro hin
      obtain ⟨e, he, hid⟩ := List.mem_map.1 hin
      exact absurd (List.find?_eq_none.1 hfind e he) (by simp [hid])
    simp only [settle, hfind, Desk.settle, hnot, if_false]
  · have hmem := List.mem_of_find?_eq_some hfind
    have hk : k = id := by simpa using List.find?_some hfind
    have hping : ping = k := (hc.key _ hmem).1
    subst hping hk
    have hin : ping ∈ c.desk.waiting := List.mem_map_of_mem hmem
    simp only [settle, hfind, Desk.settle, hin, if_true]
    simp [desk, List.filter_map, Function.comp_def]

/-- The parts of the state that make up the pings. -/
def pings (c : Client) : List (Nat × Nat) × Nat × List Sending × Nat × List (Nat × Cause × Int) :=
  (c.pendingPings, c.nextPingId, c.sending, c.issued, c.resolved)

theorem desk_pings {c c' : Client} (h : c'.pings = c.pings) : c'.desk = c.desk ∧ (Numbered c → Numbered c') := by
  simp only [pings, Prod.mk.injEq] at h
  obtain ⟨hpending, hnext, hsending, hissued, hresolved⟩ := h
  refine ⟨by simp only [desk, hpending, hissued, hresolved], fun hc => ⟨?_, ?_, ?_⟩⟩
  · rw [hnext, hissued, hc.next]
  · rw [hpending, hissued]; exact hc.key
  · rw [hsending]; exact hc.forgotten

theorem desk_ping {c c' : Client} {bytes : Nat} (hc : Numbered c) (hlt : c'.issued < 2 ^ 64)
    (h : (c.ping bytes).2 = c') : c' = c ∨ (c'.desk = c.desk.issue ∧ Numbered c') := by
  unfold ping at h
  split at h
  · exact .inl h.symm
  · split at h
    · exact .inl h.symm
    · right
      have hlt : c.issued + 1 < 2 ^ 64 := by rw [← h] at hlt; exact hlt
      have hid : c.nextPingId = c.issued := by rw [hc.next, Nat.mod_eq_of_lt (Nat.lt_of_succ_lt hlt)]
      have hfresh : c.pendingPings.filter (fun e => e.1 ≠ c.nextPingId) = c.pendingPings := by
        rw [List.filter_eq_self]
        intro e he
        have := (hc.key e he).2
        simp only [hid, ne_eq, decide_eq_true_eq]
        omega
      subst h
      dsimp only
      rw [hfresh, hid]
      refine ⟨by simp [desk, Desk.issue], rfl, fun e he => ?_, fun s hs => ?_⟩
      · rcases List.mem_append.1 he with he | he
        · obtain ⟨hping, hkey⟩ := hc.key e he
          exact ⟨hping, Nat.lt_succ_of_lt hkey⟩
        · cases List.mem_singleton.1 he
          exact ⟨rfl, Nat.lt_succ_self _⟩
      · rcases List.mem_append.1 hs with hs | hs
        · exact hc.forgotten s hs
        · cases List.mem_singleton.1 hs
          exact copy_n_replicate bytes

/-- What a step does to the pings. Only a failed send settles a ticket without
a look at the ping it sent. -/
inductive DeskStep (d : Desk Cause) : Action → Desk Cause → Prop
  | same {a : Action} (send : ∀ s, a ≠ .pingSent s true) : DeskStep d a d
  | issued {bytes : Nat} : DeskStep d (.ping bytes) d.issue
  | settled {a : Action} (k : Nat) (cause : Cause) (send : ∀ s, a ≠ .pingSent s true) (own : Own k cause) :
      DeskStep d a (d.settle k cause)
  | failed (s : Sending) : DeskStep d (.pingSent s true) (d.settle 0 (.sendError s.ping))

theorem numbered_sent {c : Client} (hc : Numbered c) (s : Sending) :
    Numbered { c with sending := c.sending.erase s } :=
  ⟨hc.next, hc.key, fun _ hs => hc.forgotten _ (List.mem_of_mem_erase hs)⟩

theorem step_desk {c c' : Client} {a : Action} (hc : Numbered c) (hlt : c'.issued < 2 ^ 64)
    (h : step c a = some c') : DeskStep c.desk a c'.desk ∧ Numbered c' := by
  have hsame : (∀ s, a ≠ .pingSent s true) → c'.pings = c.pings → DeskStep c.desk a c'.desk ∧ Numbered c' := by
    intro ha hp
    obtain ⟨hdesk, hnum⟩ := desk_pings hp
    rw [hdesk]
    exact ⟨.same ha, hnum hc⟩
  cases step_taken h with
  | @connect host port ec =>
    apply hsame (by simp)
    unfold connect
    cases ec
    · by_cases hio : c.ioThread = .absent <;> simp [hio, pings]
    · rfl
  | opened => exact hsame (by simp) rfl
  | ended event => exact hsame (by rcases event with rfl | rfl <;> simp) rfl
  | @disconnect reason ok =>
    apply hsame (by simp)
    unfold disconnect close
    cases c.connected
    · rfl
    · cases ok
      · rfl
      · rcases c.connection with _ | hdl <;> rfl
  | ping =>
    rcases desk_ping hc hlt rfl with hid | ⟨hdesk, hnum⟩
    · rw [hid]
      exact ⟨.same (by simp), hc⟩
    · rw [hdesk]
      exact ⟨.issued, hnum⟩
  | @pingSent s ec hs =>
    have hsent := numbered_sent hc s
    cases ec
    · exact ⟨.same (by simp), hsent⟩
    · unfold pingSent
      simp only [if_true, desk_settle hsent, hc.forgotten s hs]
      exact ⟨.failed s, numbered_settle hsent _ _ _⟩
  | pong =>
    unfold pongHandler
    split
    · next hlen =>
      rw [desk_settle hc]
      exact ⟨.settled _ _ (by simp) ⟨hlen, rfl⟩, numbered_settle hc _ _ _⟩
    · exact ⟨.same (by simp), hc⟩
  | @timer id ec =>
    have herased : Numbered { c with timers := c.timers.erase id } := ⟨hc.next, hc.key, hc.forgotten⟩
    cases ec
    · unfold timerHandler
      simp only [Bool.false_eq_true, if_false, desk_settle herased]
      exact ⟨.settled _ _ (by simp) rfl, numbered_settle herased _ _ _⟩
    · exact hsame (by simp) rfl
  | runReturns => exact hsame (by simp) rfl

/-- A ping whose send fails is ping 0, or finds ping 0 resolved. -/
def FailsAlone (c : Client) : Action → Prop
  | .pingSent s true => 0 ∈ c.pendingPings.map Prod.fst → s.ping = 0
  | _ => True

instance (c : Client) : (a : Action) → Decidable (FailsAlone c a)
  | .pingSent _ true => inferInstanceAs (Decidable (_ → _))
  | .pingSent _ false | .connect .. | .opened .. | .closed .. | .failed .. | .disconnect .. | .ping .. | .pong ..
  | .timer .. | .runReturns => .isTrue trivial

theorem settles_step {c : Client} {d : Desk Cause} {a : Action} (hc : Settles Own c.desk) (h : DeskStep c.desk a d) :
    Settles Own d ↔ FailsAlone c a := by
  have htrue : (∀ s, a ≠ .pingSent s true) → FailsAlone c a := by
    intro ha
    unfold FailsAlone
    split
    · next s => exact absurd rfl (ha s)
    · trivial
  cases h with
  | same send => exact iff_of_true hc (htrue send)
  | issued => exact iff_of_true (settles_issue hc) trivial
  | settled k cause send own => exact iff_of_true ((settles_settle_iff hc k cause).2 fun _ => own) (htrue send)
  | failed s => exact settles_settle_iff hc 0 (.sendError s.ping)

/-- In every run of fewer than 2^64 pings, the pings are settled properly in
every state if and only if no send fails while ping 0 is pending, but that of
ping 0. -/
theorem settles_iff (acts : List Action) (hlt : Always step (fun c => c.issued < 2 ^ 64) {} acts) :
    Always step (fun c => Settles Own c.desk) {} acts ↔ Meets step FailsAlone {} acts := by
  apply always_iff_of (J := Numbered) (E := fun _ _ c' => c'.issued < 2 ^ 64)
  · intro c a c' hc hlt _ h
    exact (step_desk hc hlt h).2
  · intro c a c' hc hs hlt h
    exact settles_step hs (step_desk hc hlt h).1
  · exact ⟨rfl, by simp, by simp⟩
  · exact settles_nil
  · exact hlt.2

/-- Two pings at once: the second is answered, the first runs out of time. -/
theorem settles_two_pings :
    Always step (fun c => Settles Own c.desk) {}
      [.connect "10.0.0.1" 80 false, .opened 0 2, .ping 0, .ping 4, .pong [1, 0, 0, 0, 0, 0, 0, 0],
        .pingSent ⟨1, 0, [0, 0, 0, 0]⟩ false, .timer 0 false] :=
  (settles_iff _ (by decide)).2 (by decide)

/-- The frame of the second ping is not sent; the first is told so. -/
theorem send_error_resolves_first_ping :
    ∃ c, run step {}
        [.connect "10.0.0.1" 80 false, .opened 0 2, .ping 0, .ping 0, .pingSent ⟨1, 0, []⟩ true] = some c ∧
      c.resolved = [(0, .sendError 1, -1)] ∧ c.pendingPings = [(1, 1)] ∧ ¬ Settles Own c.desk := by
  refine ⟨_, rfl, rfl, rfl, fun h => ?_⟩
  cases h.own (0, .sendError 1) (by decide)

/-! ## The payload -/

/-- `std::copy_n(&payload[0], sizeof(id), &id)` copies eight elements, octets of
the payload to elements of the size of `id`. -/
def copyReads : Nat := 8

def copyWrites : Nat := copyReads * 8

/-- The copy stays within the payload and within `id`. -/
def CopyInBounds (payload : Bytes) : Prop := copyReads ≤ payload.length ∧ copyWrites ≤ 8

/-- The echo of the payload, while the ping is pending, finds the entry of the
ping and gives its future a value that is not a failure. -/
def EchoAnswers (c : Client) (ping : Nat) (payload : Bytes) : Prop :=
  ∀ acts d, run step c acts = some d → (∃ e ∈ d.pendingPings, e.2 = ping) →
    ∃ v, v ≠ -1 ∧ (d.pongHandler payload).resolved = d.resolved ++ [(ping, .pong payload, v)]

/-- What a call with at least eight bytes is to come to. -/
structure Sends (c : Client) (bytes : Nat) : Prop where
  pending : (c.ping bytes).1 = .pending c.issued
  payload : ∃ s ∈ (c.ping bytes).2.sending, s.ping = c.issued ∧ s.payload.length = bytes ∧ CopyInBounds s.payload ∧
    EchoAnswers (c.ping bytes).2 c.issued s.payload

/-- A call of `ping` is as it is documented: fewer than eight bytes are
refused, more are sent and can be answered. -/
def Documented (c : Client) (bytes : Nat) : Prop :=
  if bytes < 8 then c.ping bytes = (.invalidArgument, c) else Sends c bytes

/-- The size check lets through exactly the sizes that are too small. -/
theorem ping_invalidArgument_iff {c : Client} (h : c.connected = true) (bytes : Nat) :
    (c.ping bytes).1 = .invalidArgument ↔ 8 ≤ bytes := by
  unfold ping isConnected
  rw [h]
  by_cases hb : bytes ≥ 8
  · simp [hb]
  · simp only [Bool.not_true, Bool.false_eq_true, if_false, hb]
    exact iff_of_false (by simp) id

/-- No copy stays in bounds. -/
theorem not_copyInBounds (payload : Bytes) : ¬ CopyInBounds payload := by
  rintro ⟨-, hwrites⟩
  exact absurd hwrites (by decide)

/-- The pong handler ignores the echo of every payload that is sent. -/
theorem pongHandler_echo {c : Client} {bytes : Nat} {s : Sending} (hs : s ∈ (c.ping bytes).2.sending)
    (hnew : s ∉ c.sending) (d : Client) : d.pongHandler s.payload = d := by
  have hshort : s.payload.length < 8 := by
    unfold ping at hs
    split at hs
    · exact absurd hs hnew
    · split at hs
      · exact absurd hs hnew
      · next hb =>
        rcases List.mem_append.1 hs with hs | hs
        · exact absurd hs hnew
        · rw [List.mem_singleton.1 hs, List.length_replicate]
          omega
  unfold pongHandler
  rw [if_neg (Nat.not_le.2 hshort)]

/-- No call of `ping` on a connected client is as documented, whatever the
number of bytes and the timeout: the sizes that are refused are those of eight
bytes and more, and what is sent was copied out of bounds and is ignored by
the pong handler. -/
theorem ping_not_documented (c : Client) (h : c.connected = true) (bytes : Nat) :
    ¬ Documented c bytes ∧ ((c.ping bytes).1 = .invalidArgument ↔ 8 ≤ bytes) ∧
      ∀ s ∈ (c.ping bytes).2.sending, s ∉ c.sending → ¬ CopyInBounds s.payload ∧ ∀ d, pongHandler d s.payload = d := by
  refine ⟨?_, ping_invalidArgument_iff h bytes, fun s hs hnew => ⟨not_copyInBounds _, pongHandler_echo hs hnew⟩⟩
  unfold Documented
  split
  · next hb =>
    intro hping
    have hle := (ping_invalidArgument_iff h bytes).1 (by rw [hping])
    omega
  · next hb =>
    intro hsends
    have hrefused := (ping_invalidArgument_iff h bytes).2 (Nat.not_lt.1 hb)
    cases hsends.pending.symm.trans hrefused

/-- A client whose connection has opened. -/
def opening : List Action := [.connect "server" 9002 false, .opened 0 2]

theorem ping_not_documented_five : ∃ c, run step {} opening = some c ∧ ¬ Documented c 5 :=
  ⟨_, rfl, (ping_not_documented _ rfl 5).1⟩

/-- The ping of the default size throws. -/
theorem default_ping_throws : ∃ c, run step {} opening = some c ∧ c.connected = true ∧ ¬ Documented c 8 := by
  refine ⟨_, rfl, rfl, fun hsends => ?_⟩
  have hpending := (show Sends _ 8 from hsends).pending
  cases hpending

end ComponentsNetwork.WebSockets.Client
