import ComponentsNetwork.WebSocket.Session
/-!
# What a session knows of its connection

`Contact` says how far the connection of a session has come, judged by the
events of its run alone. The two classes keep their flag and their stream in
step with it differently (`Tracked`), since only `Session` has events before
the handshake.

- `isConnected_iff`: `Session::isConnected` is true exactly while the WebSocket
  connection stands in the runs without a TCP connection; in any run it is
  right in the states where none was made, or the last one stands open.
-/

namespace ComponentsNetwork.WebSocket

open Runs

/-- How far the connection of a session has come. -/
inductive Contact
  | none
  /-- TCP is connected, and the WebSocket handshake has not succeeded. -/
  | tcp
  /-- The handshake has succeeded, and since then no read failed and `close`
  was not called. -/
  | open
  | lost
deriving DecidableEq, Repr

def Contact.after (k : Contact) : Action → Contact
  | .connected ec _ => if ec then .none else .tcp
  | .handshaken ec => if ec then k else .open
  | .read ec _ => if ec then .lost else k
  | .close _ => if k = .open then .lost else k
  | _ => k

/-- A session that is watched from its construction on. -/
def start : Session × Contact := ({}, .none)

/-- A step of the session, seen by who watches its events. -/
def watched (step : Session → Action → Option Session) (x : Session × Contact) (a : Action) :
    Option (Session × Contact) :=
  (step x.1 a).map fun s => (s, x.2.after a)

/-- The flag tells whether the WebSocket connection stands. -/
def Truthful (x : Session × Contact) : Prop := x.1.isConnected = true ↔ x.2 = .open

/-- No TCP connection is made. -/
def NoTcp (_ : Session × Contact) : Action → Prop
  | .connected ec _ => ec = true
  | _ => True

/-! ## What holds in every state -/

/-- The flag is set by the first contact, and only the stream knows whether it
stands. An open connection is read from. -/
structure Tracked (x : Session × Contact) : Prop where
  flag : x.1.isConnected = true ↔ x.2 ≠ .none
  stream : x.1.isOpen = true ↔ x.2 = .open
  open_reads : x.2 = .open → x.1.outstanding = some .read
  reads_made : x.1.outstanding = some .read → x.2 ≠ .none

theorem tracked_start : Tracked start := by
  constructor <;> simp [start]

theorem tracked_same {s t : Session} {k : Contact} (h : Tracked (s, k)) (hflag : t.isConnected = s.isConnected)
    (hopen : t.isOpen = s.isOpen) (hop : t.outstanding = s.outstanding) : Tracked (t, k) := by
  constructor
  · rw [hflag]
    exact h.flag
  · rw [hopen]
    exact h.stream
  · rw [hop]
    exact h.open_reads
  · rw [hop]
    exact h.reads_made

/-- While something else than a read is outstanding, the stream is not open. -/
theorem tracked_pending {s t : Session} {k : Contact} (h : Tracked (s, k)) (hnot : s.outstanding ≠ some .read)
    (hflag : t.isConnected = s.isConnected) (hopen : t.isOpen = s.isOpen) (hop : t.outstanding ≠ some .read) :
    Tracked (t, k) := by
  constructor
  · rw [hflag]
    exact h.flag
  · rw [hopen]
    exact h.stream
  · intro hk
    exact absurd (h.open_reads hk) hnot
  · intro hread
    exact absurd hread hop

theorem callClose_same (s : Session) :
    s.callClose.isConnected = s.isConnected ∧ s.callClose.isOpen = s.isOpen ∧
      s.callClose.outstanding = s.outstanding := by
  unfold Session.callClose
  split <;> exact ⟨rfl, rfl, rfl⟩

theorem tracked_callClose {s : Session} {k : Contact} (h : Tracked (s, k)) : Tracked (s.callClose, k) := by
  obtain ⟨hflag, hopen, hop⟩ := callClose_same s
  exact tracked_same h hflag hopen hop

theorem tracked_connected {s : Session} {k : Contact} (h : Tracked (s, k)) (hop : s.outstanding = some .connect)
    (ec : Bool) (port : UInt16) :
    Tracked (({ s with outstanding := none }).onConnect ec port, k.after (.connected ec port)) := by
  have hclosed : s.isOpen ≠ true := by
    intro hopen
    have hread := h.open_reads (h.stream.1 hopen)
    rw [hop] at hread
    cases hread
  cases ec with
  | false =>
    constructor
    · exact iff_of_true rfl Contact.noConfusion
    · exact iff_of_false hclosed Contact.noConfusion
    · intro hk
      cases hk
    · intro hread
      cases hread
  | true =>
    apply tracked_callClose
    constructor
    · exact iff_of_false Bool.false_ne_true (fun hno => hno rfl)
    · exact iff_of_false hclosed Contact.noConfusion
    · intro hk
      cases hk
    · intro hread
      cases hread

theorem tracked_handshaken {s : Session} {k : Contact} (h : Tracked (s, k)) (hop : s.outstanding = some .handshake)
    (ec : Bool) : Tracked (({ s with outstanding := none }).onHandshake ec, k.after (.handshaken ec)) := by
  cases ec with
  | false =>
    constructor
    · exact iff_of_true rfl Contact.noConfusion
    · exact iff_of_true rfl rfl
    · intro _
      rfl
    · intro _
      exact Contact.noConfusion
  | true =>
    refine tracked_pending h ?_ rfl rfl ?_
    · rw [hop]
      simp
    · simp [Session.onHandshake]

theorem tracked_read {s : Session} {k : Contact} (h : Tracked (s, k)) (hop : s.outstanding = some .read)
    (ec : Bool) (appended : Buffers.Bytes) :
    Tracked (({ s with outstanding := none }).onRead ec appended, k.after (.read ec appended)) := by
  cases ec with
  | false =>
    refine tracked_same h ?_ ?_ ?_
    · unfold Session.onRead
      cases s.readCallback <;> rfl
    · unfold Session.onRead
      cases s.readCallback <;> rfl
    · rw [hop]
      rfl
  | true =>
    apply tracked_callClose
    constructor
    · exact iff_of_true (h.flag.2 (h.reads_made hop)) Contact.noConfusion
    · exact iff_of_false Bool.false_ne_true Contact.noConfusion
    · intro hk
      cases hk
    · intro hread
      cases hread

theorem close_same (s : Session) (ok : Bool) :
    (s.close ok).2.isConnected = s.isConnected ∧ (s.close ok).2.outstanding = s.outstanding := by
  unfold Session.close
  split <;> exact ⟨rfl, rfl⟩

theorem after_close {k : Contact} (hk : k ≠ .none) (ok : Bool) :
    k.after (.close ok) ≠ .none ∧ k.after (.close ok) ≠ .open := by
  cases k <;> simp [Contact.after] at hk ⊢

theorem tracked_close {s : Session} {k : Contact} (h : Tracked (s, k)) (ok : Bool) :
    Tracked ((s.close ok).2, k.after (.close ok)) := by
  cases hflag : s.isConnected with
  | false =>
    have hk : k = .none := by
      by_contra hk
      have hset := h.flag.2 hk
      rw [hflag] at hset
      cases hset
    subst hk
    rw [Session.close, hflag]
    exact h
  | true =>
    obtain ⟨hmade, hnot⟩ := after_close (h.flag.1 hflag) ok
    constructor
    · exact iff_of_true ((close_same s ok).1.trans hflag) hmade
    · refine iff_of_false ?_ hnot
      simp [Session.close, hflag]
    · intro hk
      exact absurd hk hnot
    · intro _
      exact hmade

/-- The handler of an operation runs in the state its completion finds. -/
theorem complete_inv {P : Session → Prop} {s s' : Session} {op : Operation} {handler : Session → Session}
    (hhandler : s.outstanding = some op → P (handler { s with outstanding := none }))
    (hs : s.complete op handler = some s') : P s' := by
  unfold Session.complete at hs
  split at hs
  · next hop =>
    cases hs
    exact hhandler hop
  · cases hs

theorem Session.tracked_step (x : Session × Contact) (a : Action) (x' : Session × Contact) (h : Tracked x)
    (hs : watched Session.step x a = some x') : Tracked x' := by
  obtain ⟨s, k⟩ := x
  obtain ⟨s', hstep, rfl⟩ := Option.map_eq_some_iff.1 hs
  cases a <;> simp only [Session.step] at hstep
  case setReadCallback isSet =>
    cases hstep
    exact tracked_same h rfl rfl rfl
  case setCloseCallback isSet =>
    cases hstep
    exact tracked_same h rfl rfl rfl
  case start host port throws =>
    simp only [Option.ite_none_left_eq_some, Option.some.injEq, not_or, not_not] at hstep
    obtain ⟨⟨-, hop⟩, rfl⟩ := hstep
    refine tracked_pending h ?_ rfl rfl ?_
    · simp [hop]
    · simp [Session.start]
  case resolved ec =>
    refine complete_inv (P := fun s' => Tracked (s', k)) ?_ hstep
    intro hop
    refine tracked_pending h ?_ ?_ ?_ ?_
    · simp [hop]
    all_goals cases ec <;> simp [Session.onResolve]
  case connected ec port =>
    refine complete_inv (P := fun s' => Tracked (s', _)) ?_ hstep
    intro hop
    exact tracked_connected h hop ec port
  case handshaken ec =>
    refine complete_inv (P := fun s' => Tracked (s', _)) ?_ hstep
    intro hop
    exact tracked_handshaken h hop ec
  case read ec appended =>
    refine complete_inv (P := fun s' => Tracked (s', _)) ?_ hstep
    intro hop
    exact tracked_read h hop ec appended
  case close ok =>
    cases hstep
    exact tracked_close h ok

theorem SecureSession.tracked_step (x : Session × Contact) (a : Action) (x' : Session × Contact) (h : Tracked x)
    (hs : watched step x a = some x') : Tracked x' := by
  obtain ⟨s, k⟩ := x
  obtain ⟨s', hstep, rfl⟩ := Option.map_eq_some_iff.1 hs
  cases a <;> simp only [step] at hstep
  case setReadCallback isSet =>
    cases hstep
    exact tracked_same h rfl rfl rfl
  case setCloseCallback isSet =>
    cases hstep
    exact tracked_same h rfl rfl rfl
  case start host port throws =>
    simp only [Option.ite_none_left_eq_some, Option.some.injEq, not_not] at hstep
    obtain ⟨hop, rfl⟩ := hstep
    cases throws
    · refine tracked_pending h ?_ rfl rfl ?_
      · simp [hop]
      · simp [start]
    · exact tracked_same h rfl rfl rfl
  case resolved ec => cases hstep
  case connected ec port => cases hstep
  case handshaken ec =>
    refine complete_inv (P := fun s' => Tracked (s', _)) ?_ hstep
    intro hop
    exact tracked_handshaken h hop ec
  case read ec appended =>
    refine complete_inv (P := fun s' => Tracked (s', _)) ?_ hstep
    intro hop
    exact tracked_read h hop ec appended
  case close ok =>
    cases hstep
    exact tracked_close h ok

/-! ## `isConnected` -/

theorem truthful_iff {x : Session × Contact} (h : Tracked x) : Truthful x ↔ x.2 = .none ∨ x.2 = .open := by
  unfold Truthful
  rw [h.flag]
  cases x.2 <;> simp

/-- Without a TCP connection there is no handshake either. -/
structure Unmade (x : Session × Contact) : Prop where
  contact : x.2 = .none
  waiting : x.1.outstanding ≠ some .handshake

theorem unmade_step {x x' : Session × Contact} {a : Action} (h : Tracked x) (hu : Unmade x) (hc : NoTcp x a)
    (hs : watched Session.step x a = some x') : Unmade x' := by
  obtain ⟨s, k⟩ := x
  obtain ⟨s', hstep, rfl⟩ := Option.map_eq_some_iff.1 hs
  obtain ⟨hk, hwaiting⟩ := hu
  cases a <;> simp only [Session.step] at hstep
  case setReadCallback isSet =>
    cases hstep
    exact ⟨hk, hwaiting⟩
  case setCloseCallback isSet =>
    cases hstep
    exact ⟨hk, hwaiting⟩
  case start host port throws =>
    simp only [Option.ite_none_left_eq_some, Option.some.injEq] at hstep
    obtain ⟨-, rfl⟩ := hstep
    exact ⟨hk, by simp [Session.start]⟩
  case resolved ec =>
    refine complete_inv (P := fun s' => Unmade (s', k)) ?_ hstep
    intro _
    exact ⟨hk, by cases ec <;> simp [Session.onResolve]⟩
  case connected ec port =>
    cases hc
    refine complete_inv (P := fun s' => Unmade (s', _)) ?_ hstep
    intro _
    refine ⟨rfl, ?_⟩
    show (Session.callClose _).outstanding ≠ _
    rw [(callClose_same _).2.2]
    simp
  case handshaken ec =>
    -- A handshake follows a TCP connect.
    refine complete_inv (P := fun s' => Unmade (s', _)) ?_ hstep
    intro hop
    exact absurd hop hwaiting
  case read ec appended =>
    refine complete_inv (P := fun s' => Unmade (s', _)) ?_ hstep
    intro hop
    exact absurd hk (h.reads_made hop)
  case close ok =>
    cases hstep
    cases hk
    refine ⟨rfl, ?_⟩
    rw [(close_same s ok).2]
    exact hwaiting

theorem truthful_step_iff {x x' : Session × Contact} {a : Action} (h : Tracked x) (hu : Unmade x)
    (hs : watched Session.step x a = some x') : Truthful x' ↔ NoTcp x a := by
  rw [truthful_iff (Session.tracked_step x a x' h hs)]
  have hkept : NoTcp x a → x'.2 = .none := fun hc => (unmade_step h hu hc hs).contact
  refine ⟨?_, fun hc => .inl (hkept hc)⟩
  intro hk
  cases a with
  | connected ec port =>
    cases ec with
    | false =>
      obtain ⟨s', -, rfl⟩ := Option.map_eq_some_iff.1 hs
      rcases hk with hk | hk <;> cases hk
    | true => rfl
  | _ => trivial

/-- In every run of a `Session`, `isConnected` tells in every state whether the
handshake has succeeded with no failed read and no `close` since, if and only
if no TCP connection is made; and in each state of any run it does exactly if
no connection was made, or the last one stands open. -/
theorem isConnected_iff (acts : List Action) :
    (Always (watched Session.step) Truthful start acts ↔ Meets (watched Session.step) NoTcp start acts) ∧
      ∀ x, run (watched Session.step) start acts = some x → (Truthful x ↔ x.2 = .none ∨ x.2 = .open) := by
  constructor
  · apply always_iff (J := fun x => Tracked x ∧ Unmade x)
    · intro x a x' h hc hs
      exact ⟨Session.tracked_step x a x' h.1 hs, unmade_step h.1 h.2 hc hs⟩
    · intro x a x' h _ hs
      exact truthful_step_iff h.1 h.2 hs
    · exact ⟨tracked_start, rfl, by simp [start]⟩
    · exact (truthful_iff tracked_start).2 (.inl rfl)
  · intro x hx
    exact truthful_iff (run_inv Session.tracked_step tracked_start hx)

/-- The flag is set while the handshake goes on, stays set after it has
failed, and after the peer of an open connection is gone. -/
theorem connected_without_handshake :
    (∃ x, run (watched Session.step) start
        [.start "host" "80" false, .resolved false, .connected false 80, .handshaken true] = some x ∧
        x.1.isConnected = true ∧ x.2 = .tcp ∧ ¬ Truthful x) ∧
      ∃ x, run (watched Session.step) start
        [.start "host" "80" false, .resolved false, .connected false 80, .handshaken false, .read true []] = some x ∧
        x.1.isConnected = true ∧ x.2 = .lost ∧ ¬ Truthful x := by
  refine ⟨⟨_, rfl, rfl, rfl, ?_⟩, ⟨_, rfl, rfl, rfl, ?_⟩⟩
  · intro htrue
    cases htrue.1 rfl
  · intro htrue
    cases htrue.1 rfl

end ComponentsNetwork.WebSocket
