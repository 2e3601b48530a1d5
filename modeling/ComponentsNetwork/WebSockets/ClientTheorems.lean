import ComponentsNetwork.WebSockets.Client
/-!
# Theorems about the connected flag

The pings only read the flag, so `step_link` sums up what each step does to
the connection, and the theorems are case analyses over it.
-/

namespace ComponentsNetwork.WebSockets.Client

open Buffers Runs

/-! ## What a step does to the connection -/

/-- The parts of the state that make up the connection. -/
structure Link where
  connection : Option Nat
  connected : Bool
  connections : List Connection

def link (c : Client) : Link := ⟨c.connection, c.connected, c.connections⟩

/-- What the flag needs to stay truthful: a close or fail event that finds it
set is of the stored connection, and a disconnect that finds it set closes it. -/
def OfCurrent (l : Link) : Action → Prop
  | .closed hdl | .failed hdl => l.connected = true → l.connection = some hdl
  | .disconnect _ ok => l.connected = true → ok = true
  | _ => True

def Link.close (l : Link) (code : Nat) : Link :=
  match l.connection with
  | some hdl => { l with connections := l.connections.modify hdl fun con => { con with closedWith := some code } }
  | none => l

inductive LinkStep (l : Link) : Action → Link → Prop
  | same {a : Action} (harmless : OfCurrent l a) : LinkStep l a l
  | new {host : String} {port : UInt16} (uri : String) :
      LinkStep l (.connect host port false) { l with connections := l.connections ++ [{ uri := uri }] }
  | opened {hdl sends : Nat} {con : Connection} (found : l.connections[hdl]? = some con)
      (fresh : con.opened = false ∧ con.ended = false) :
      LinkStep l (.opened hdl sends) ⟨some hdl, true, l.connections.set hdl { con with opened := true }⟩
  | ended {a : Action} {hdl : Nat} {con : Connection} (event : a = .closed hdl ∨ a = .failed hdl)
      (found : l.connections[hdl]? = some con) :
      LinkStep l a ⟨l.connection, false, l.connections.set hdl { con with ended := true }⟩
  | disconnected {reason : DisconnectReason} {ok : Bool} (connected : l.connected = true) :
      LinkStep l (.disconnect reason ok) { (if ok then l.close reason.code else l) with connected := false }

@[simp] theorem link_close (c : Client) (code : Nat) : (c.close code).link = c.link.close code := by
  unfold close Link.close
  rcases hcon : c.connection with _ | hdl <;> simp [link, hcon]

@[simp] theorem link_settle (c : Client) (id : Nat) (cause : Cause) (value : Int) :
    (c.settle id cause value).link = c.link := by
  unfold settle
  split <;> rfl

@[simp] theorem link_ping (c : Client) (bytes : Nat) : (c.ping bytes).2.link = c.link := by
  unfold ping
  split
  · rfl
  · split <;> rfl

@[simp] theorem link_pingSent (c : Client) (s : Sending) (ec : Bool) : (c.pingSent s ec).link = c.link := by
  unfold pingSent
  cases ec
  · rfl
  · exact link_settle _ _ _ _

@[simp] theorem link_timerHandler (c : Client) (id : Nat) (ec : Bool) : (c.timerHandler id ec).link = c.link := by
  unfold timerHandler
  cases ec
  · exact link_settle _ _ _ _
  · rfl

@[simp] theorem link_pongHandler (c : Client) (payload : Bytes) : (c.pongHandler payload).link = c.link := by
  unfold pongHandler
  split
  · exact link_settle _ _ _ _
  · rfl

theorem step_link {c c' : Client} {a : Action} (h : step c a = some c') : LinkStep c.link a c'.link := by
  cases step_taken h with
  | @connect host port ec =>
    unfold connect
    cases ec
    · by_cases hio : c.ioThread = .absent
      · simp only [hio, if_true, Bool.false_eq_true, if_false]
        exact .new _
      · simp only [hio, if_false, Bool.false_eq_true]
        exact .new _
    · exact .same trivial
  | opened found fresh => exact .opened found fresh
  | ended event found => exact .ended event found
  | @disconnect reason ok =>
    unfold disconnect
    by_cases hflag : c.connected
    · have hstep : LinkStep c.link (.disconnect reason ok) _ := .disconnected hflag
      simp only [hflag, Bool.not_true, Bool.false_eq_true, if_false]
      cases ok
      · exact hstep
      · rw [if_pos rfl, ← link_close] at hstep
        exact hstep
    · simp only [hflag, Bool.not_false, if_true]
      exact .same fun hc => absurd hc hflag
  | ping =>
    rw [link_ping]
    exact .same trivial
  | pingSent =>
    rw [link_pingSent]
    exact .same trivial
  | pong =>
    rw [link_pongHandler]
    exact .same trivial
  | timer =>
    rw [link_timerHandler]
    exact .same trivial
  | runReturns => exact .same trivial

/-! ## The connected flag -/

/-- Opened, not ended, and not closed by the client. -/
def Live (connections : List Connection) (hdl : Nat) : Prop :=
  ∃ con, connections[hdl]? = some con ∧ con.opened = true ∧ con.ended = false ∧ con.closedWith = none

/-- The flag is set exactly while the stored connection is live. -/
def FlagTruthful (l : Link) : Prop := l.connected = true ↔ ∃ hdl, l.connection = some hdl ∧ Live l.connections hdl

/-- Only connections that were opened are stored, or closed by the client. -/
structure Handles (l : Link) : Prop where
  stored : ∀ hdl, l.connection = some hdl → ∃ con, l.connections[hdl]? = some con ∧ con.opened = true
  closed : ∀ con ∈ l.connections, con.closedWith ≠ none → con.opened = true

theorem live_set {connections : List Connection} {hdl k : Nat} {old con : Connection}
    (h : connections[hdl]? = some old) :
    Live (connections.set hdl con) k ↔
      if hdl = k then con.opened = true ∧ con.ended = false ∧ con.closedWith = none else Live connections k := by
  obtain ⟨hlt, -⟩ := List.getElem?_eq_some_iff.1 h
  unfold Live
  by_cases hk : hdl = k
  · subst hk
    simp [hlt]
  · simp [hk]

theorem live_new (connections : List Connection) (uri : String) (k : Nat) :
    Live (connections ++ [{ uri := uri }]) k ↔ Live connections k := by
  unfold Live
  rcases Nat.lt_trichotomy k connections.length with hk | hk | hk
  · rw [List.getElem?_append_left hk]
  · subst hk
    simp
  · rw [List.getElem?_eq_none (by simp; omega), List.getElem?_eq_none (by omega)]

theorem not_live_close (connections : List Connection) (hdl code : Nat) :
    ¬ Live (connections.modify hdl fun con => { con with closedWith := some code }) hdl := by
  rintro ⟨con, hcon, -, -, hclosed⟩
  rw [List.getElem?_modify_eq] at hcon
  obtain ⟨old, -, rfl⟩ := Option.map_eq_some_iff.1 hcon
  cases hclosed

theorem Handles.set {l : Link} (h : Handles l) {hdl : Nat} {old : Connection} (con : Connection)
    (hold : l.connections[hdl]? = some old) (hopen : old.opened = true → con.opened = true)
    (hclosed : con.closedWith ≠ none → con.opened = true) (connected : Bool) :
    Handles ⟨l.connection, connected, l.connections.set hdl con⟩ := by
  obtain ⟨hlt, -⟩ := List.getElem?_eq_some_iff.1 hold
  refine ⟨fun k hk => ?_, fun x hx hxc => ?_⟩
  · obtain ⟨con', hcon', hopen'⟩ := h.stored k hk
    by_cases hkh : hdl = k
    · subst hkh
      cases hold.symm.trans hcon'
      exact ⟨con, by simp [hlt], hopen hopen'⟩
    · exact ⟨con', by simp [hkh, hcon'], hopen'⟩
  · rcases List.mem_or_eq_of_mem_set hx with hx | rfl
    · exact h.closed x hx hxc
    · exact hclosed hxc

theorem Handles.close {l : Link} (h : Handles l) (code : Nat) : Handles (l.close code) := by
  unfold Link.close
  rcases hcon : l.connection with _ | hdl
  · exact h
  · obtain ⟨old, hold, hopen⟩ := h.stored hdl hcon
    dsimp only
    rw [List.modify_eq_set_getElem?, hold]
    have hset := h.set { old with closedWith := some code } hold id (fun _ => hopen) l.connected
    rwa [hcon] at hset

theorem handles_step {l l' : Link} {a : Action} (hl : Handles l) (h : LinkStep l a l') : Handles l' := by
  cases h with
  | same => exact hl
  | new uri =>
    refine ⟨fun k hk => ?_, fun con hcon hclosed => ?_⟩
    · obtain ⟨con, hcon, hopen⟩ := hl.stored k hk
      obtain ⟨hlt, -⟩ := List.getElem?_eq_some_iff.1 hcon
      exact ⟨con, by rw [List.getElem?_append_left hlt, hcon], hopen⟩
    · rcases List.mem_append.1 hcon with hcon | hcon
      · exact hl.closed con hcon hclosed
      · cases List.mem_singleton.1 hcon
        exact absurd rfl hclosed
  | @opened hdl sends con found fresh =>
    have hset := hl.set { con with opened := true } found (fun _ => rfl) (fun _ => rfl) true
    obtain ⟨hlt, -⟩ := List.getElem?_eq_some_iff.1 found
    refine ⟨fun k hk => ?_, hset.closed⟩
    cases hk
    exact ⟨{ con with opened := true }, by simp [hlt], rfl⟩
  | @ended a hdl con event found =>
    have hclosed := hl.closed con (List.mem_of_getElem? found)
    exact hl.set { con with ended := true } found id hclosed false
  | @disconnected reason ok connected =>
    have hclose : Handles (if ok then l.close reason.code else l) := by
      cases ok
      · exact hl
      · exact hl.close reason.code
    exact ⟨hclose.stored, hclose.closed⟩

/-- A step from a state with a truthful flag leads to one exactly when it is
of the current connection. -/
theorem flagTruthful_step {l l' : Link} {a : Action} (hl : Handles l) (hf : FlagTruthful l) (h : LinkStep l a l') :
    FlagTruthful l' ↔ OfCurrent l a := by
  cases h with
  | same harmless => exact iff_of_true hf harmless
  | new uri =>
    simp only [FlagTruthful, live_new, OfCurrent, iff_true]
    exact hf
  | @opened hdl sends con found fresh =>
    refine iff_of_true ?_ trivial
    have hclosed : con.closedWith = none := by
      by_contra hc
      cases fresh.1.symm.trans (hl.closed con (List.mem_of_getElem? found) hc)
    simp only [FlagTruthful, true_iff, Option.some.injEq, exists_eq_left', live_set found, if_true]
    exact ⟨trivial, fresh.2, hclosed⟩
  | @ended a hdl con event found =>
    have hcurrent : OfCurrent l a ↔ (l.connected = true → l.connection = some hdl) := by
      rcases event with rfl | rfl <;> exact Iff.rfl
    rw [hcurrent]
    simp only [FlagTruthful, Bool.false_eq_true, false_iff, not_exists, not_and, live_set found]
    constructor
    · -- The stored connection is live, so it is the one that ended.
      intro hdead hflag
      obtain ⟨k, hk, hlive⟩ := hf.1 hflag
      have hk' := hdead k hk
      by_cases hkh : hdl = k
      · rw [hk, hkh]
      · exact absurd (by simpa [hkh] using hlive) hk'
    · intro hcurrent k hk
      by_cases hkh : hdl = k
      · simp [hkh]
      · simp only [hkh, if_false]
        intro hlive
        have hsame := hcurrent (hf.2 ⟨k, hk, hlive⟩)
        rw [hk] at hsame
        exact hkh (Option.some.inj hsame).symm
  | @disconnected reason ok connected =>
    obtain ⟨hdl, hcon, hlive⟩ := hf.1 connected
    cases ok
    · simp only [FlagTruthful, OfCurrent, Bool.false_eq_true, if_false, false_iff, connected, true_implies, iff_false,
        not_not]
      exact ⟨hdl, hcon, hlive⟩
    · simp only [FlagTruthful, OfCurrent, Bool.false_eq_true, if_true, false_iff, implies_true, iff_true, Link.close,
        hcon, not_exists, not_and]
      rintro k hk
      cases hk
      exact not_live_close _ _ _

/-- In every run, the flag is truthful in every state if and only if every
close, fail and disconnect that finds the flag set concerns the stored
connection and closes it. -/
theorem flagTruthful_iff (acts : List Action) :
    Always step (fun c => FlagTruthful c.link) {} acts ↔ Meets step (fun c a => OfCurrent c.link a) {} acts := by
  apply always_iff (J := fun c => Handles c.link)
  · intro c a c' hc _ h
    exact handles_step hc (step_link h)
  · intro c a c' hc hf h
    exact flagTruthful_step hc hf (step_link h)
  · exact ⟨fun _ hk => (by cases hk), fun _ hcon => (by cases hcon)⟩
  · simp [FlagTruthful, link]

/-- The close event of the first connection arrives after the client has
disconnected from it and connected again. -/
theorem old_close_clears_flag :
    ∃ c, run step {}
        [.connect "10.0.0.1" 80 false, .opened 0 2, .disconnect .Normal true, .connect "10.0.0.1" 80 false,
          .opened 1 2, .closed 0] = some c ∧
      c.isConnected = false ∧ c.connection = some 1 ∧ Live c.connections 1 ∧ ¬ FlagTruthful c.link := by
  refine ⟨_, rfl, rfl, rfl, ⟨_, rfl, rfl, rfl, rfl⟩, fun h => ?_⟩
  cases h.2 ⟨1, rfl, _, rfl, rfl, rfl, rfl⟩

end ComponentsNetwork.WebSockets.Client
