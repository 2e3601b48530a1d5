import ComponentsNetwork.HTTP.ClientTheorems
/-!
# Plain and TLS clients on one network

What `connectToHost` meets depends on what became of the sockets before. Here
a client has a TCP socket, whose `connect` follows its contract: that of
`beast::tcp_stream` closes the socket and tries endpoint after endpoint, that
of `tcp::socket` tries one, on the socket as it is: it fails on one that was
connected, and on one opened for addresses of the other family.

- `secure_connects_iff`: where a plain client makes a new connection, a TLS
  client with the same history does if and only if the first endpoint accepts,
  its socket was not opened for another family, and it made none before.
-/

namespace ComponentsNetwork.HTTP.Client

open Runs Asio

/-! ## Sockets -/

inductive Tcp
  | closed
  /-- Open for addresses of one family, and never connected. -/
  | opened (protocol : Protocol)
  | connected
  /-- The peer has closed the connection. -/
  | lost
deriving DecidableEq, Repr

/-- `tcp::socket::connect`, to an endpoint that accepts or not. A socket that
is closed is opened for the endpoint's family; one left open by a connect that
failed keeps its own. -/
def Tcp.connectOne (t : Tcp) (e : Endpoint) (accepted : Bool) : Connect × Tcp :=
  match t with
  | .closed => if accepted then (.succeeds, .connected) else (.fails true, .opened e.protocol)
  | .opened protocol =>
    if protocol = e.protocol && accepted then (.succeeds, .connected) else (.fails true, .opened protocol)
  | .connected | .lost => (.fails true, t)

/-- `beast::tcp_stream::connect`: every endpoint is tried on a socket closed
before, up to one that accepts. -/
def Tcp.connectAny (accepts : Endpoint → Bool) : List Endpoint → Connect × Tcp
  | [] => (.fails false, .closed)
  | e :: es =>
    if accepts e || es.isEmpty then Tcp.closed.connectOne e (accepts e) else connectAny accepts es

/-- What `tcp::socket::connect` comes to. -/
theorem Tcp.connectOne_cases (t : Tcp) (e : Endpoint) (accepted : Bool) :
    (∃ p, (t = .closed ∧ p = e.protocol ∨ t = .opened p) ∧
      ((p = e.protocol ∧ accepted = true) ∧ t.connectOne e accepted = (.succeeds, .connected) ∨
        ¬ (p = e.protocol ∧ accepted = true) ∧ t.connectOne e accepted = (.fails true, .opened p))) ∨
      (t = .connected ∨ t = .lost) ∧ t.connectOne e accepted = (.fails true, t) := by
  cases t with
  | closed =>
    refine .inl ⟨e.protocol, .inl ⟨rfl, rfl⟩, ?_⟩
    cases accepted <;> simp [Tcp.connectOne]
  | opened p =>
    refine .inl ⟨p, .inr rfl, ?_⟩
    unfold Tcp.connectOne
    by_cases hp : p = e.protocol <;> cases accepted <;> simp [hp]
  | connected => exact .inr ⟨.inl rfl, rfl⟩
  | lost => exact .inr ⟨.inr rfl, rfl⟩

theorem Tcp.connectOne_opens (t : Tcp) (e : Endpoint) (accepted : Bool) :
    (t.connectOne e accepted).1.opens = true ∧ (t.connectOne e accepted).2 ≠ .closed := by
  rcases Tcp.connectOne_cases t e accepted with ⟨p, -, ⟨-, h⟩ | ⟨-, h⟩⟩ | ⟨rfl | rfl, h⟩ <;> rw [h] <;>
    exact ⟨rfl, by simp⟩

/-- A list of endpoints connects if one of them accepts. -/
theorem Tcp.connectAny_cases (accepts : Endpoint → Bool) (e : Endpoint) (es : List Endpoint) :
    (e :: es).any accepts = true ∧ Tcp.connectAny accepts (e :: es) = (.succeeds, .connected) ∨
      (e :: es).any accepts = false ∧ ∃ p, Tcp.connectAny accepts (e :: es) = (.fails true, .opened p) := by
  induction es generalizing e with
  | nil => cases h : accepts e <;> simp [Tcp.connectAny, Tcp.connectOne, h]
  | cons e' es ih =>
    rw [Tcp.connectAny]
    cases h : accepts e with
    | true => exact .inl ⟨by simp [h], rfl⟩
    | false =>
      rw [List.any_cons, h, Bool.false_or]
      exact ih e'

theorem Tcp.connectAny_opens (accepts : Endpoint → Bool) (e : Endpoint) (es : List Endpoint) :
    (Tcp.connectAny accepts (e :: es)).1.opens = true ∧ (Tcp.connectAny accepts (e :: es)).2 ≠ .closed := by
  rcases Tcp.connectAny_cases accepts e es with ⟨-, h⟩ | ⟨-, p, h⟩ <;> rw [h]
  · decide
  · exact ⟨rfl, by simp⟩

/-- `tcp::socket::connect` to the endpoint succeeds, if the endpoint accepts. -/
def Tcp.Ready (t : Tcp) (e : Endpoint) : Prop := t = .closed ∨ t = .opened e.protocol

theorem Tcp.connectOne_ok_iff (t : Tcp) (e : Endpoint) (accepted : Bool) :
    (t.connectOne e accepted).1.ok = true ↔ accepted = true ∧ Tcp.Ready t e := by
  unfold Tcp.Ready
  rcases Tcp.connectOne_cases t e accepted with ⟨p, ht, ⟨⟨hp, ha⟩, h⟩ | ⟨hno, h⟩⟩ | ⟨ht, h⟩
  · rw [h]
    exact iff_of_true rfl ⟨ha, ht.imp And.left fun hopened => hp ▸ hopened⟩
  · rw [h]
    refine iff_of_false (by simp [Connect.ok]) fun ⟨ha, hready⟩ => hno ⟨?_, ha⟩
    rcases ht with ⟨-, hp⟩ | rfl
    · exact hp
    · rcases hready with hclosed | hopened
      · cases hclosed
      · exact Tcp.opened.inj hopened
  · rw [h]
    refine iff_of_false (by simp [Connect.ok]) fun ⟨_, hready⟩ => ?_
    rcases ht with rfl | rfl <;> rcases hready with h | h <;> cases h

/-- What a call of `connectToHost` meets: the endpoints resolved, those that
accept, `SSL_set_tlsext_host_name`, and a handshake on a connection the call
has made and on any other socket. -/
structure Meeting where
  resolved : Option (Endpoint × List Endpoint)
  accepts : Endpoint → Bool
  sni : Bool := true
  freshHandshake : Bool := true
  staleHandshake : Bool := false

def Meeting.attempt (m : Meeting) (t : Tcp) : Attempt where
  peek := t = .connected
  resolved := m.resolved
  sni := m.sni
  connect e := (t.connectOne e (m.accepts e)).1
  connectAny es := (Tcp.connectAny m.accepts es).1
  handshake :=
    if m.resolved.any fun r => (t.connectOne r.1 (m.accepts r.1)).1.ok then m.freshHandshake else m.staleHandshake

/-- A client and its socket. -/
structure Wired where
  client : Client
  tcp : Tcp := .closed

namespace Wired

/-- The socket after `connectToHost`. -/
def reached (w : Wired) (m : Meeting) : Tcp :=
  if w.client.isConnected (m.attempt w.tcp) then w.tcp
  else match m.resolved with
    | none => w.tcp
    | some (first, others) =>
      if w.client.secure then
        if m.sni then (w.tcp.connectOne first (m.accepts first)).2 else w.tcp
      else (Tcp.connectAny m.accepts (first :: others)).2

def connectToHost (w : Wired) (m : Meeting) : Outcome Bool × Wired :=
  let x := w.client.connectToHost (m.attempt w.tcp)
  (x.1, { client := x.2, tcp := w.reached m })

/-- The call makes a new connection. -/
def Establishes (w : Wired) (m : Meeting) : Prop :=
  ∃ post, (w.connectToHost m).2.client.log = w.client.log ++ .connect true :: post

/-- The call returns true after making a new connection. -/
def Reconnects (w : Wired) (m : Meeting) : Prop := (w.connectToHost m).1 = .returns true ∧ w.Establishes m

inductive Event
  | connect (m : Meeting)
  | peerCloses

def next (w : Wired) : Event → Wired
  | .connect m => (w.connectToHost m).2
  | .peerCloses => { w with tcp := if w.tcp = .connected then .lost else w.tcp }

/-- The client's view of its socket is right. -/
def Coherent (w : Wired) : Prop := w.client.socketOpen = true ↔ w.tcp ≠ .closed

/-- What a call of `connectToHost` comes to. -/
inductive Taken (w : Wired) (m : Meeting) : Outcome Bool → Wired → Prop
  | kept (connected : w.tcp = .connected) : Taken w m (.returns true) w
  | unresolved (away : w.tcp ≠ .connected) (failed : m.resolved = none) : Taken w m .throws w
  | plain {first others} (away : w.tcp ≠ .connected) (found : m.resolved = some (first, others))
      (plain : w.client.secure = false) :
      Taken w m (.returns (Tcp.connectAny m.accepts (first :: others)).1.ok)
        ⟨w.client.connected (Tcp.connectAny m.accepts (first :: others)).1,
          (Tcp.connectAny m.accepts (first :: others)).2⟩
  | unnamed {first others} (away : w.tcp ≠ .connected) (found : m.resolved = some (first, others))
      (secure : w.client.secure = true) (sni : m.sni = false) : Taken w m (.returns true) w
  | secure {first others} {handshake : Bool} (away : w.tcp ≠ .connected) (found : m.resolved = some (first, others))
      (secure : w.client.secure = true) (sni : m.sni = true)
      (result : handshake =
        if (w.tcp.connectOne first (m.accepts first)).1.ok then m.freshHandshake else m.staleHandshake) :
      Taken w m (.returns handshake)
        ⟨(w.client.connected (w.tcp.connectOne first (m.accepts first)).1).handshaken handshake,
          (w.tcp.connectOne first (m.accepts first)).2⟩

theorem connectToHost_taken {w : Wired} (hw : Coherent w) (m : Meeting) :
    Taken w m (w.connectToHost m).1 (w.connectToHost m).2 := by
  have hopen : w.client.isConnected (m.attempt w.tcp) = true ↔ w.tcp = .connected := by
    unfold isConnected Meeting.attempt
    rw [Bool.and_eq_true, decide_eq_true_eq]
    exact ⟨fun h => h.2, fun h => ⟨hw.2 (by rw [h]; decide), h⟩⟩
  unfold connectToHost reached Client.connectToHost
  by_cases hc : w.tcp = .connected
  · rw [if_pos (hopen.2 hc), if_pos (hopen.2 hc)]
    exact .kept hc
  · rw [if_neg (mt hopen.1 hc), if_neg (mt hopen.1 hc)]
    rcases hr : m.resolved with _ | ⟨first, others⟩
    · simp only [Meeting.attempt, hr]
      exact .unresolved hc hr
    · simp only [Meeting.attempt, hr]
      rcases hs : w.client.secure
      · exact .plain hc hr hs
      · rcases hsni : m.sni
        · exact .unnamed hc hr hs hsni
        · exact .secure hc hr hs hsni rfl

theorem next_coherent {w : Wired} (hw : Coherent w) (e : Event) :
    Coherent (w.next e) ∧ (w.next e).client.secure = w.client.secure := by
  cases e with
  | peerCloses =>
    refine ⟨hw.trans (not_congr ?_), rfl⟩
    show _ ↔ (if w.tcp = .connected then Tcp.lost else w.tcp) = .closed
    split
    · next h => simp [h]
    · rfl
  | connect m =>
    have ht := connectToHost_taken hw m
    show Coherent (w.connectToHost m).2 ∧ (w.connectToHost m).2.client.secure = _
    generalize (w.connectToHost m).1 = r, (w.connectToHost m).2 = w' at ht ⊢
    cases ht with
    | kept | unresolved | unnamed => exact ⟨hw, rfl⟩
    | plain =>
      obtain ⟨hopens, hne⟩ := Tcp.connectAny_opens m.accepts _ _
      exact ⟨iff_of_true hopens hne, rfl⟩
    | secure =>
      obtain ⟨hopens, hne⟩ := Tcp.connectOne_opens w.tcp _ (m.accepts _)
      exact ⟨iff_of_true hopens hne, rfl⟩

/-! ## Connections made -/

/-- A TLS client that is not connected makes a connection exactly when the
first endpoint accepts and its socket can connect to it; if the handshake on
the connection succeeds, it returns true. -/
theorem secure_reconnects {w : Wired} (hw : Coherent w) (hs : w.client.secure = true) (hc : w.tcp ≠ .connected)
    {m : Meeting} {first : Endpoint} {others : List Endpoint} (hr : m.resolved = some (first, others))
    (hsni : m.sni = true) (hfresh : m.freshHandshake = true) :
    Reconnects w m ↔ m.accepts first = true ∧ Tcp.Ready w.tcp first := by
  have ht := connectToHost_taken hw m
  rw [← Tcp.connectOne_ok_iff]
  unfold Reconnects Establishes
  generalize (w.connectToHost m).1 = r, (w.connectToHost m).2 = w' at ht ⊢
  cases ht with
  | kept hconnected => exact absurd hconnected hc
  | unresolved _ hnone => cases hnone.symm.trans hr
  | plain _ _ hplain => cases hplain.symm.trans hs
  | unnamed _ _ _ hno => cases hno.symm.trans hsni
  | secure _ hfound _ _ hresult =>
    cases hfound.symm.trans hr
    constructor
    · rintro ⟨-, post, hlog⟩
      simp only [handshaken, connected, List.append_assoc, List.append_cancel_left_eq, List.singleton_append,
        List.cons.injEq, StreamEvent.connect.injEq] at hlog
      exact hlog.1
    · intro hconnect
      rw [if_pos hconnect, hfresh] at hresult
      subst hresult
      refine ⟨rfl, [.handshake true], ?_⟩
      simp [handshaken, connected, hconnect]

/-- A client that makes a connection has none, and has resolved its host. -/
theorem away_of_reconnects {w : Wired} (hw : Coherent w) {m : Meeting} (h : Reconnects w m) :
    w.tcp ≠ .connected ∧ ∃ first others, m.resolved = some (first, others) := by
  have ht := connectToHost_taken hw m
  unfold Reconnects Establishes at h
  generalize (w.connectToHost m).1 = r, (w.connectToHost m).2 = w' at ht h
  cases ht with
  | kept | unnamed =>
    obtain ⟨-, post, hlog⟩ := h
    exact absurd (congrArg List.length hlog) (by simp)
  | unresolved => cases h.1
  | plain haway hfound | secure haway hfound => exact ⟨haway, _, _, hfound⟩

end Wired

/-! ## Two clients with one history -/

open Wired

/-- The endpoint that a TLS client tries in the call, the first alone, and
whether it accepts. -/
def Wired.Event.tries : Event → Option (Endpoint × Bool)
  | .connect m => if m.sni then m.resolved.map fun r => (r.1, m.accepts r.1) else none
  | .peerCloses => none

/-- The endpoints that a TLS client with this history tries when it has no
connection. -/
def tried (h : List Event) : List (Endpoint × Bool) := h.filterMap Event.tries

/-- One of the endpoints accepted, of the family of the first. -/
def Reached (ts : List (Endpoint × Bool)) : Prop :=
  ∃ u ∈ ts.head?, ∃ v ∈ ts, v.1.protocol = u.1.protocol ∧ v.2 = true

/-- The socket of a TLS client that has tried these endpoints. -/
structure Tcp.After (t : Tcp) (ts : List (Endpoint × Bool)) : Prop where
  reached : Reached ts → t = .connected ∨ t = .lost
  opened : ∀ u ∈ ts.head?, ¬ Reached ts → t = .opened u.1.protocol
  closed : ts = [] → t = .closed

theorem reached_concat (ts : List (Endpoint × Bool)) (v : Endpoint × Bool) :
    Reached (ts ++ [v]) ↔
      Reached ts ∨ (∀ u ∈ ts.head?, u.1.protocol = v.1.protocol) ∧ v.2 = true := by
  unfold Reached
  cases ts with
  | nil => simp
  | cons u us =>
    simp only [List.cons_append, List.head?_cons, Option.mem_def, Option.some.injEq, exists_eq_left', forall_eq',
      List.mem_cons, List.mem_append, List.not_mem_nil, or_false]
    constructor
    · rintro ⟨w, rfl | hw | rfl, hp, ha⟩
      · exact .inl ⟨w, .inl rfl, hp, ha⟩
      · exact .inl ⟨w, .inr hw, hp, ha⟩
      · exact .inr ⟨hp.symm, ha⟩
    · rintro (⟨w, hw, hp, ha⟩ | ⟨hp, ha⟩)
      · exact ⟨w, hw.imp_right .inl, hp, ha⟩
      · exact ⟨v, .inr (.inr rfl), hp.symm, ha⟩

/-- A socket that was connected stays what it is. -/
theorem Tcp.After.concat_kept {t t' : Tcp} {ts : List (Endpoint × Bool)} (h : t.After ts) (us : List (Endpoint × Bool))
    (ht : t = .connected ∨ t = .lost) (ht' : t' = .connected ∨ t' = .lost) : t'.After (ts ++ us) := by
  have hreached : Reached ts := by
    by_contra hno
    cases ts with
    | nil =>
      cases h.closed rfl
      rcases ht with ht | ht <;> cases ht
    | cons u ts =>
      cases h.opened u rfl hno
      rcases ht with ht | ht <;> cases ht
  obtain ⟨u, hu, v, hv, hp⟩ := hreached
  have hhead : (ts ++ us).head? = some u := by
    cases ts with
    | nil => cases hu
    | cons => exact hu
  refine ⟨fun _ => ht', fun w hw hno => ?_, fun hnil => ?_⟩
  · exact absurd ⟨u, hhead, v, List.mem_append_left _ hv, hp⟩ hno
  · rw [List.append_eq_nil_iff] at hnil
    cases hnil.1 ▸ hv

/-- One more endpoint is tried. -/
theorem Tcp.After.concat_tried {t : Tcp} {ts : List (Endpoint × Bool)} (h : t.After ts) (e : Endpoint) (accepted : Bool) :
    (t.connectOne e accepted).2.After (ts ++ [(e, accepted)]) := by
  rcases Tcp.connectOne_cases t e accepted with ⟨p, ht, hc⟩ | ⟨ht, hc⟩
  · have hno : ¬ Reached ts := by
      intro hr
      rcases ht with ⟨rfl, -⟩ | rfl <;> rcases h.reached hr with hr | hr <;> cases hr
    -- The family the socket has, or will have.
    have hhead : ∀ u ∈ (ts ++ [(e, accepted)]).head?, u.1.protocol = p := by
      intro u hu
      cases ts with
      | nil =>
        cases hu
        rcases ht with ⟨-, rfl⟩ | rfl
        · rfl
        · cases h.closed rfl
      | cons u' ts =>
        cases hu
        have hopened := h.opened _ rfl hno
        rcases ht with ⟨rfl, -⟩ | rfl <;> cases hopened
        rfl
    have hiff : Reached (ts ++ [(e, accepted)]) ↔ p = e.protocol ∧ accepted = true := by
      rw [reached_concat, or_iff_right hno]
      refine and_congr_left fun _ => ⟨fun hall => ?_, fun hp u hu => ?_⟩
      · cases ts with
        | nil => exact (hhead _ rfl).symm
        | cons u ts => exact (hhead u rfl).symm.trans (hall u rfl)
      · cases ts with
        | nil => cases hu
        | cons u' ts => exact (hhead u hu).trans hp
    have hne : ts ++ [(e, accepted)] ≠ [] := by simp
    rcases hc with ⟨hyes, hc⟩ | ⟨hnot, hc⟩ <;> rw [hc]
    · exact ⟨fun _ => .inl rfl, fun _ _ hr => absurd (hiff.2 hyes) hr, fun hnil => absurd hnil hne⟩
    · refine ⟨fun hr => absurd (hiff.1 hr) hnot, fun u hu _ => ?_, fun hnil => absurd hnil hne⟩
      exact congrArg Tcp.opened (hhead u hu).symm
  · rw [hc]
    exact h.concat_kept _ ht ht

/-- The socket can connect to an endpoint if it was opened for its family, or
not at all, and no endpoint of the family has accepted. -/
theorem Tcp.After.ready_iff {t : Tcp} {ts : List (Endpoint × Bool)} (h : t.After ts) (e : Endpoint) :
    Tcp.Ready t e ↔ (∀ u ∈ ts.head?, u.1.protocol = e.protocol) ∧
      ∀ u ∈ ts, u.1.protocol = e.protocol → u.2 = false := by
  unfold Tcp.Ready
  cases ts with
  | nil => simp [h.closed rfl]
  | cons u ts =>
    by_cases hr : Reached (u :: ts)
    · refine iff_of_false ?_ fun ⟨hhead, hnone⟩ => ?_
      · rcases h.reached hr with rfl | rfl <;> simp
      · obtain ⟨u', hu', v, hv, hp, ha⟩ := hr
        cases hnone v hv (hp.trans (hhead u' hu')) ▸ ha
    · rw [h.opened u rfl hr]
      simp only [reduceCtorEq, false_or, Tcp.opened.injEq, List.head?_cons, Option.mem_def, Option.some.injEq,
        forall_eq']
      refine ⟨fun hp => ⟨hp, fun v hv hpv => ?_⟩, fun hall => hall.1⟩
      rw [Bool.eq_false_iff]
      exact fun ha => hr ⟨u, rfl, v, hv, hpv.trans hp.symm, ha⟩

structure Pair where
  plain : Wired := { client := { secure := false } }
  secure : Wired := { client := { secure := true } }

namespace Pair

def step (p : Pair) (e : Event) : Option Pair := some ⟨p.plain.next e, p.secure.next e⟩

/-- How the two stand to their history. -/
structure Alike (p : Pair) (h : List Event) : Prop where
  plain : Coherent p.plain ∧ p.plain.client.secure = false
  secure : Coherent p.secure ∧ p.secure.client.secure = true
  connected : p.secure.tcp = .connected → p.plain.tcp = .connected
  after : p.secure.tcp.After (tried h)

/-- What a connect does to the socket of a plain client. -/
theorem plain_next {w : Wired} (hw : Coherent w ∧ w.client.secure = false) (m : Meeting) :
    (w.next (.connect m)).tcp = .connected ↔
      w.tcp = .connected ∨ ∃ first others, m.resolved = some (first, others) ∧ (first :: others).any m.accepts = true := by
  have ht := connectToHost_taken hw.1 m
  show (w.connectToHost m).2.tcp = .connected ↔ _
  generalize (w.connectToHost m).1 = r, (w.connectToHost m).2 = w' at ht ⊢
  cases ht with
  | kept hc => exact iff_of_true hc (.inl hc)
  | unresolved hc hnone => simp [hc, hnone]
  | unnamed _ _ hs | secure _ _ hs => cases hw.2.symm.trans hs
  | @plain first others hc hfound =>
    have hany : (Tcp.connectAny m.accepts (first :: others)).2 = .connected ↔
        (first :: others).any m.accepts = true := by
      rcases Tcp.connectAny_cases m.accepts first others with ⟨ha, h⟩ | ⟨ha, p, h⟩ <;> rw [h, ha] <;> simp
    simp only [hany, hc, hfound, false_or, Option.some.injEq, Prod.mk.injEq]
    exact ⟨fun h => ⟨_, _, ⟨rfl, rfl⟩, h⟩, fun ⟨_, _, ⟨hf, ho⟩, h⟩ => by rw [hf, ho]; exact h⟩

/-- What a connect does to the socket of a TLS client. -/
theorem secure_next {w : Wired} (hw : Coherent w ∧ w.client.secure = true) (m : Meeting) :
    (w.next (.connect m)).tcp =
      if w.tcp = .connected then .connected
      else (Event.connect m).tries.elim w.tcp fun t => (w.tcp.connectOne t.1 t.2).2 := by
  have ht := connectToHost_taken hw.1 m
  show (w.connectToHost m).2.tcp = _
  unfold Event.tries
  generalize (w.connectToHost m).1 = r, (w.connectToHost m).2 = w' at ht ⊢
  cases ht with
  | kept hc => rw [if_pos hc, hc]
  | unresolved hc hnone => simp [hc, hnone]
  | unnamed hc _ _ hsni => simp [hc, hsni]
  | plain _ _ hs => cases hs.symm.trans hw.2
  | secure hc hfound _ hsni => simp [hc, hsni, hfound]

theorem peerCloses_after {t : Tcp} {ts : List (Endpoint × Bool)} (h : t.After ts) :
    (if t = .connected then Tcp.lost else t).After ts := by
  split
  · next hc => exact List.append_nil ts ▸ h.concat_kept [] (.inl hc) (.inr rfl)
  · exact h

/-- A TLS client that makes a connection makes it to an endpoint that accepts. -/
theorem accepts_of_connected {w : Wired} (hw : Coherent w ∧ w.client.secure = true) (hc : w.tcp ≠ .connected)
    {m : Meeting} (h : (w.next (.connect m)).tcp = .connected) :
    ∃ first others, m.resolved = some (first, others) ∧ m.accepts first = true := by
  rw [secure_next hw m, if_neg hc] at h
  cases ht : (Event.connect m).tries with
  | none =>
    rw [ht] at h
    exact absurd h hc
  | some t =>
    rw [ht] at h
    simp only [Event.tries, Option.ite_none_right_eq_some, Option.map_eq_some_iff] at ht
    obtain ⟨-, ⟨first, others⟩, hfound, rfl⟩ := ht
    refine ⟨first, others, hfound, ?_⟩
    rcases Tcp.connectOne_cases w.tcp first (m.accepts first) with ⟨q, -, ⟨⟨-, ha⟩, -⟩ | ⟨-, hfails⟩⟩ | ⟨-, hkept⟩
    · exact ha
    · cases (congrArg Prod.snd hfails).symm.trans h
    · exact absurd ((congrArg Prod.snd hkept).symm.trans h) hc

theorem connected_step {p : Pair} {h : List Event} (hp : Alike p h) (e : Event)
    (hc : (p.secure.next e).tcp = .connected) : (p.plain.next e).tcp = .connected := by
  cases e with
  | peerCloses =>
    have hnot : (if p.secure.tcp = .connected then Tcp.lost else p.secure.tcp) ≠ .connected := by
      split
      · decide
      · assumption
    exact absurd hc hnot
  | connect m =>
    rw [plain_next hp.plain m]
    by_cases hconnected : p.secure.tcp = .connected
    · exact .inl (hp.connected hconnected)
    · obtain ⟨first, others, hfound, ha⟩ := accepts_of_connected hp.secure hconnected hc
      exact .inr ⟨first, others, hfound, by rw [List.any_cons, ha, Bool.true_or]⟩

theorem after_step {p : Pair} {h : List Event} (hp : Alike p h) (e : Event) :
    (p.secure.next e).tcp.After (tried (h ++ [e])) := by
  have htried : tried (h ++ [e]) = tried h ++ e.tries.toList := by
    cases he : e.tries <;> simp [tried, he]
  rw [htried]
  cases e with
  | peerCloses => exact (List.append_nil (tried h)).symm ▸ peerCloses_after hp.after
  | connect m =>
    rw [secure_next hp.secure m]
    by_cases hconnected : p.secure.tcp = .connected
    · rw [if_pos hconnected]
      exact hp.after.concat_kept _ (.inl hconnected) (.inl rfl)
    · rw [if_neg hconnected]
      cases (Event.connect m).tries with
      | none => exact (List.append_nil (tried h)).symm ▸ hp.after
      | some t => exact hp.after.concat_tried t.1 t.2

theorem alike_step (p : Pair) (h : List Event) (e : Event) (p' : Pair) (hp : Alike p h) (hs : step p e = some p') :
    Alike p' (h ++ [e]) := by
  cases hs
  obtain ⟨hplain, hplain'⟩ := next_coherent hp.plain.1 e
  obtain ⟨hsecure, hsecure'⟩ := next_coherent hp.secure.1 e
  exact ⟨⟨hplain, hplain'.trans hp.plain.2⟩, ⟨hsecure, hsecure'.trans hp.secure.2⟩, connected_step hp e, after_step hp e⟩

/-- Where a plain client makes a new connection and `connectToHost` returns
true, that of a TLS client with the same history does so, given that the host
name can be set and a handshake on a fresh connection succeeds, if and only if
the first endpoint accepts, the first endpoint the TLS client has ever tried
is of the same family, and none of that family that it tried has accepted. -/
theorem secure_connects_iff (h : List Event) (p : Pair) (hrun : run step {} h = some p) (m : Meeting)
    (hsni : m.sni = true) (hfresh : m.freshHandshake = true) (hplain : p.plain.Reconnects m) :
    p.secure.Reconnects m ↔
      ∃ first others, m.resolved = some (first, others) ∧ m.accepts first = true ∧
        (∀ u ∈ (tried h).head?, u.1.protocol = first.protocol) ∧
        ∀ u ∈ tried h, u.1.protocol = first.protocol → u.2 = false := by
  have hp : Alike p h := by
    refine run_history (R := Alike) ?_ alike_step hrun
    refine ⟨⟨?_, rfl⟩, ⟨?_, rfl⟩, fun hc => ?_, ⟨?_, ?_, fun _ => rfl⟩⟩
    · simp [Coherent]
    · simp [Coherent]
    · cases hc
    · rintro ⟨u, hu, -⟩
      cases hu
    · intro u hu
      cases hu
  obtain ⟨haway, first, others, hfound⟩ := away_of_reconnects hp.plain.1 hplain
  rw [secure_reconnects hp.secure.1 hp.secure.2 (mt hp.connected haway) hfound hsni hfresh, hp.after.ready_iff]
  constructor
  · exact fun hready => ⟨first, others, hfound, hready⟩
  · rintro ⟨first', others', hfound', hready⟩
    cases hfound.symm.trans hfound'
    exact hready

/-- One endpoint, that accepts. -/
def oneEndpoint : Meeting := { resolved := some (⟨"10.0.0.1", 443⟩, []), accepts := fun _ => true }

/-- One endpoint, that accepts only under another port. -/
def wrongPort : Meeting := { resolved := some (⟨"10.0.0.1", 8443⟩, []), accepts := fun e => e.port = 443 }

/-- The first of two endpoints, localhost as IPv6, does not accept. -/
def secondEndpoint : Meeting where
  resolved := some (⟨"::1", 443⟩, [⟨"127.0.0.1", 443⟩])
  accepts e := e.address = "127.0.0.1"

/-- A connect that was refused is no hindrance, in one family of addresses. -/
theorem secure_connects_oneEndpoint :
    ∃ p, run step {} [.connect wrongPort] = some p ∧ p.secure.Reconnects oneEndpoint :=
  ⟨_, rfl, (secure_connects_iff [.connect wrongPort] _ rfl oneEndpoint rfl rfl ⟨rfl, [], rfl⟩).2
    ⟨_, _, rfl, rfl, by decide +kernel, by decide +kernel⟩⟩

/-- The plain client connects to the second endpoint; the TLS client tries the
first alone. After that, its socket takes no address of the other family, even
one that accepts. After the peer has closed a connection, the plain client
makes another; the TLS client's socket is still open. -/
theorem secure_client_fails :
    (({} : Pair).plain.Reconnects secondEndpoint ∧ ¬ ({} : Pair).secure.Reconnects secondEndpoint) ∧
      (∃ p, run step {} [.connect secondEndpoint, .peerCloses] = some p ∧ p.plain.Reconnects oneEndpoint ∧
        ¬ p.secure.Reconnects oneEndpoint) ∧
      ∃ p, run step {} [.connect oneEndpoint, .peerCloses] = some p ∧ p.plain.Reconnects oneEndpoint ∧
        ¬ p.secure.Reconnects oneEndpoint := by
  refine ⟨⟨⟨rfl, [], rfl⟩, ?_⟩, ⟨_, rfl, ⟨rfl, [], rfl⟩, ?_⟩, _, rfl, ⟨rfl, [], rfl⟩, ?_⟩
  · rintro ⟨-, post, hlog⟩
    cases hlog
  · rintro ⟨-, post, hlog⟩
    cases hlog
  · rintro ⟨-, post, hlog⟩
    cases hlog

end Pair

end ComponentsNetwork.HTTP.Client
