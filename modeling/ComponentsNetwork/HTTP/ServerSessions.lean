import ComponentsNetwork.HTTP.HandedTheorems
import ComponentsNetwork.HTTP.RoutingTheorems
import ComponentsNetwork.HTTP.ServerEffects
import ComponentsNetwork.Lib.Simulation
/-!
# The connections of a server, one by one

All connections share the processors, the clock and the one `m_ioc.run()`.
`Server.follows` proves that nothing else of a server reaches a connection:
it goes through a run of `ConnectionSession` that starts when it is accepted,
and what the others do to it is at most to end `run()`.

- `connection_run`: in every run of a server, each of its connections is where
  a `ConnectionSession` would be on its own.
- `connections_isolated`: the processors called for a connection get requests
  read on that connection alone.
-/

namespace ComponentsNetwork.HTTP.Server

open Buffers Asio Runs Simulation ConnectionSession

variable {H : Type} (reason : Nat → String)

/-! ## What the others do -/

/-- The actions of one connection that all of them see. -/
def shared : ConnectionSession.Action H → List (ConnectionSession.Action H)
  | .setHandler target method cbk => [.setHandler target method cbk]
  | .tick d => [.tick d]
  | _ => []

/-- Connection `i` has called the user processor that is running. -/
def dispatching (s : Server H) (i : Nat) : Bool := s.connections[i]?.any fun c => c.phase = .dispatching

/-- What a step of the server comes to for connection `i`. -/
def onConnection (i : Nat) (s : Server H) : Action H → List (ConnectionSession.Action H)
  | .setHandler target method cbk => [.setHandler target method cbk]
  | .tick d => [.tick d]
  | .acceptFails | .acceptCompletes _ => []
  | .connection j a => if j = i then [a] else shared a
  | .replyUncaught j k pkt opened =>
    (if j = i then [.reply k pkt opened] else []) ++
      -- The exception leaves the processor, whichever connection called it.
      if !starts pkt opened && s.dispatching i then [.processorThrows] else []

/-- Connection `i` is where `t` is, except that `run()` may have ended. -/
def Is (i : Nat) (s : Server H) (t : ConnectionSession H) : Prop :=
  s.session i = some { t with running := s.running } ∧ (s.running = true → t.running = true)

/-! ## What connections share -/

theorem step_now {c c' : ConnectionSession H} {a : ConnectionSession.Action H}
    (h : ConnectionSession.step reason c a = some c') : c'.now = match a with
      | .tick d => c.now + d
      | _ => c.now := by
  have ht := step_turn reason h
  have hnow : c'.now = c'.control.now := rfl
  rw [hnow]
  generalize c'.control = k at ht ⊢
  have hproceed : ∀ hs, (c.control.proceed hs).now = c.now := by
    intro hs
    unfold Control.proceed
    split <;> rfl
  cases ht with
  | @still a hstill => cases a <;> first | rfl | cases hstill
  | refused | returned => exact hproceed _
  | called | failed | threw | ticked | elapsed | expired => rfl

/-- A handler only ends `run()`. -/
theorem running_of_step {c c' : ConnectionSession H} {a : ConnectionSession.Action H}
    (h : ConnectionSession.step reason c a = some c') (hr : c'.running = true) : c.running = true := by
  have ht := step_turn reason h
  have hrun : c'.running = c'.control.running := rfl
  rw [hrun] at hr
  generalize c'.control = k at ht hr
  have hproceed : ∀ hs, (c.control.proceed hs).running = true → c.running = true := by
    intro hs hp
    rw [Control.proceed_running, Bool.and_eq_true] at hp
    exact hp.1
  cases ht with
  | refused | returned => exact hproceed _ hr
  | threw => cases hr
  | still | called | failed | ticked | elapsed | expired => exact hr

/-- What an action of another connection comes to. -/
theorem run_shared {c c' t : ConnectionSession H} {a : ConnectionSession.Action H}
    (h : ConnectionSession.step reason c a = some c') (hp : t.serverProcessors = c.serverProcessors)
    (hn : t.now = c.now) : run (ConnectionSession.step reason) t (shared a) =
      some { t with serverProcessors := c'.serverProcessors, now := c'.now } := by
  have hprocessors := step_serverProcessors reason h
  have hnow := step_now reason h
  cases a with
  | setHandler target method cbk => cases h; rw [← hp, ← hn]; rfl
  | tick d => cases h; rw [← hp, ← hn]; rfl
  | _ =>
    have hprocessors : c'.serverProcessors = c.serverProcessors := hprocessors
    have hnow : c'.now = c.now := hnow
    rw [hprocessors, hnow, ← hp, ← hn]
    rfl

/-! ## After `run()` has ended -/

theorem writeResponse_stopped (c : ConnectionSession H) (pkt : Packet) (o : Origin) :
    writeResponse { c with running := false } pkt o =
      ({ (writeResponse c pkt o).1 with running := false }, (writeResponse c pkt o).2) := by
  unfold writeResponse
  by_cases h : pkt.statusCode ≤ 999
  · rw [if_pos h, if_pos h]
    rfl
  · rw [if_neg h, if_neg h]
    rfl

theorem sendBody_stopped (c : ConnectionSession H) (pkt : Packet) (o : Origin) :
    sendBody { c with running := false } pkt o =
      ({ (sendBody c pkt o).1 with running := false }, (sendBody c pkt o).2) := by
  unfold sendBody
  dsimp only
  exact writeResponse_stopped { c.assignResponse {} with response := _ } pkt o

theorem sendResponse_stopped (c : ConnectionSession H) (pkt : Packet) (opened : Option Bytes) (o : Origin) :
    sendResponse reason { c with running := false } pkt opened o =
      ({ (sendResponse reason c pkt opened o).1 with running := false }, (sendResponse reason c pkt opened o).2) := by
  unfold sendResponse
  by_cases h : pkt.isFile = true
  · rw [if_pos h, if_pos h]
    dsimp only
    cases opened with
    | none =>
      exact sendBody_stopped
        { c.assignResponse { body := .file none } with responseErrorPacket := createErrorPacket reason 400 } _ o
    | some content => exact writeResponse_stopped { c.assignResponse { body := .file none } with response := _ } pkt o
  · rw [if_neg h, if_neg h]
    exact sendBody_stopped c pkt o

/-- What a connection still does once `run()` has ended, it does as before. -/
theorem step_stopped {c c' : ConnectionSession H} {a : ConnectionSession.Action H}
    (h : ConnectionSession.step reason { c with running := false } a = some c') :
    ∃ t, ConnectionSession.step reason c a = some t ∧ c' = { t with running := false } := by
  cases a with
  | setHandler target method cbk =>
    cases h
    exact ⟨_, rfl, rfl⟩
  | tick d =>
    cases h
    exact ⟨_, rfl, rfl⟩
  | reply k pkt opened =>
    simp only [ConnectionSession.step, Option.ite_none_right_eq_some, Option.some.injEq] at h
    obtain ⟨hk, rfl⟩ := h
    refine ⟨_, if_pos hk, ?_⟩
    exact congrArg Prod.fst (sendResponse_stopped reason { c with pending := c.pending.erase k } pkt opened (.reply k))
  | deadlineElapses =>
    obtain ⟨t, ht, rfl⟩ := Option.map_eq_some_iff.1 h
    refine ⟨{ c with deadlineTimer := t }, ?_, rfl⟩
    show (c.deadlineTimer.elapse c.now).map _ = _
    rw [show c.deadlineTimer.elapse c.now = some t from ht]
    rfl
  | _ => simp [ConnectionSession.step, idle] at h

/-! ## One step -/

theorem session_update_self {s : Server H} {i : Nat} {c : ConnectionSession H} (h : s.session i = some c)
    (c' : ConnectionSession H) : (s.update i c').session i = some c' := by
  obtain ⟨c₀, hc₀, -⟩ := session_eq_some h
  obtain ⟨hlt, -⟩ := List.getElem?_eq_some_iff.1 hc₀
  unfold session update
  rw [List.getElem?_set_self hlt]
  rfl

theorem session_update_ne {s : Server H} {i j : Nat} (h : j ≠ i) (c' : ConnectionSession H) :
    (s.update j c').session i = (s.session i).map fun c =>
      { c with serverProcessors := c'.serverProcessors, running := c'.running, now := c'.now } := by
  unfold session update
  rw [List.getElem?_set_ne h, Option.map_map]
  rfl

theorem session_shared (s : Server H) (i : Nat) (processors : Processors H) (now : Nat) :
    ({ s with processors, now } : Server H).session i =
      (s.session i).map fun c => { c with serverProcessors := processors, now } := by
  unfold session
  rw [Option.map_map]
  rfl

/-- The connection's own actions. -/
theorem is_own {i : Nat} {s : Server H} {c c' t : ConnectionSession H} {a : ConnectionSession.Action H}
    (hi : Is i s t) (hc : s.session i = some c) (h : ConnectionSession.step reason c a = some c') :
    ∃ t', ConnectionSession.step reason t a = some t' ∧ Is i (s.update i c') t' := by
  obtain ⟨hsession, hrun⟩ := hi
  have hself := session_update_self hc c'
  rw [hc] at hsession
  cases hsession
  cases hr : s.running with
  | true =>
    have ht : { t with running := s.running } = t := by
      have htr := hrun hr
      cases t
      cases htr
      rw [hr]
    rw [ht] at h
    refine ⟨c', h, ?_, fun h => h⟩
    rw [hself]
    rfl
  | false =>
    rw [hr] at h
    obtain ⟨t', ht', rfl⟩ := step_stopped reason h
    exact ⟨t', ht', hself, fun h => by cases h⟩

/-- The actions of another connection. -/
theorem is_other {i j : Nat} (hij : j ≠ i) {s : Server H} {c c' t : ConnectionSession H}
    {a : ConnectionSession.Action H} (hi : Is i s t) (hc : s.session j = some c)
    (h : ConnectionSession.step reason c a = some c') :
    ∃ t', run (ConnectionSession.step reason) t (shared a) = some t' ∧ Is i (s.update j c') t' := by
  obtain ⟨hsession, hrun⟩ := hi
  obtain ⟨c₀, -, rfl⟩ := session_eq_some hc
  obtain ⟨c₁, -, ht⟩ := session_eq_some hsession
  have hp : t.serverProcessors = s.processors := congrArg ConnectionSession.serverProcessors ht
  have hn : t.now = s.now := congrArg ConnectionSession.now ht
  refine ⟨_, run_shared reason h hp hn, ?_, fun hr => ?_⟩
  · rw [session_update_ne hij, hsession]
    rfl
  · exact hrun (running_of_step reason h hr)

/-- What leaves the connection alone. -/
theorem is_same {i : Nat} {s s' : Server H} {t : ConnectionSession H} (hi : Is i s t)
    (hc : s'.connections[i]? = s.connections[i]?) (hp : s'.processors = s.processors) (hn : s'.now = s.now)
    (hr : s'.running = true → s.running = true) : Is i s' t := by
  obtain ⟨hsession, hrun⟩ := hi
  obtain ⟨c₀, hc₀, ht⟩ := session_eq_some hsession
  refine ⟨?_, fun h => hrun (hr h)⟩
  unfold session
  rw [hc, hc₀, hp, hn]
  exact congrArg (fun c : ConnectionSession H => some { c with running := s'.running }) ht.symm

/-- Whether a connection's processor is running, before and after a step of
one that keeps its phase. -/
theorem dispatching_update {i j : Nat} {s : Server H} {c c' : ConnectionSession H} (hc : s.session j = some c)
    (hphase : c'.phase = c.phase) : (s.update j c').dispatching i = s.dispatching i := by
  obtain ⟨c₀, hc₀, rfl⟩ := session_eq_some hc
  have hphase : c'.phase = c₀.phase := hphase
  unfold dispatching update
  by_cases hij : j = i
  · subst hij
    obtain ⟨hlt, -⟩ := List.getElem?_eq_some_iff.1 hc₀
    rw [List.getElem?_set_self hlt, hc₀]
    simp [hphase]
  · rw [List.getElem?_set_ne hij]

/-- An exception leaves the processor that is running. -/
theorem is_leaveProcessor {i : Nat} {s : Server H} {t : ConnectionSession H} (hi : Is i s t) (hr : s.running = true) :
    ∃ t', run (ConnectionSession.step reason) t (if s.dispatching i then [.processorThrows] else []) = some t' ∧
      Is i (s.leaveProcessor .throws) t' := by
  obtain ⟨hsession, hrun⟩ := hi
  obtain ⟨c₀, hc₀, ht⟩ := session_eq_some hsession
  have htr := hrun hr
  have hphase : t.phase = c₀.phase := by
    have h := congrArg ConnectionSession.phase ht
    exact h
  have hleft : (s.leaveProcessor .throws).session i =
      some { t with running := false, phase := if c₀.phase = .dispatching then .ended else c₀.phase } := by
    unfold session leaveProcessor
    dsimp only
    rw [List.getElem?_map, hc₀]
    have hsame := congrArg (fun c : ConnectionSession H =>
      some { c with running := false, phase := if c₀.phase = Phase.dispatching then .ended else c₀.phase }) ht.symm
    refine Eq.trans ?_ hsame
    dsimp only [Option.map_some]
    split
    · rfl
    · rfl
  unfold dispatching
  rw [hc₀]
  dsimp only [Option.any_some]
  by_cases hd : c₀.phase = Phase.dispatching
  · refine ⟨{ t with running := false, phase := Phase.ended }, ?_, ?_, fun h => by cases h⟩
    · simp [hd, ConnectionSession.step, htr, hphase, leave]
    · rw [hleft, if_pos hd]
      rfl
  · refine ⟨t, by simp [hd], ?_, fun h => by cases h⟩
    rw [hleft, if_neg hd, ← hphase]
    rfl

/-- Whatever the server does, connection `i` does what a session of its own
would do. -/
theorem follows (i : Nat) :
    Follows (step reason) (ConnectionSession.step reason) (onConnection i) (Is i (H := H)) := by
  intro s t a s' hi h
  obtain ⟨c₁, hc₁, ht₁⟩ := session_eq_some hi.1
  obtain ⟨hlt, -⟩ := List.getElem?_eq_some_iff.1 hc₁
  have hp : t.serverProcessors = s.processors := congrArg ConnectionSession.serverProcessors ht₁
  have hn : t.now = s.now := congrArg ConnectionSession.now ht₁
  cases a with
  | setHandler target method cbk =>
    cases h
    refine ⟨{ t with serverProcessors := s.processors.setHandler target method cbk }, by rw [← hp]; rfl, ?_, hi.2⟩
    have hsession := session_shared s i (s.processors.setHandler target method cbk) s.now
    rw [hi.1] at hsession
    rw [← hn] at hsession ⊢
    exact hsession
  | tick d =>
    cases h
    refine ⟨{ t with now := s.now + d }, by rw [← hn]; rfl, ?_, hi.2⟩
    have hsession := session_shared s i s.processors (s.now + d)
    rw [hi.1] at hsession
    rw [← hp] at hsession ⊢
    exact hsession
  | acceptFails =>
    simp only [step, Option.ite_none_right_eq_some, Option.some.injEq] at h
    obtain ⟨-, rfl⟩ := h
    exact ⟨t, rfl, is_same hi rfl rfl rfl id⟩
  | acceptCompletes hs =>
    have hm := step_move reason h
    have happend : (s.connections ++ [s.accepted hs])[i]? = s.connections[i]? := List.getElem?_append_left hlt
    cases hm with
    | accepted => exact ⟨t, rfl, is_same hi happend rfl rfl id⟩
    | acceptThrew => exact ⟨t, rfl, is_same hi happend rfl rfl fun h => by cases h⟩
  | connection j a =>
    simp only [step, Option.ite_none_left_eq_some, Option.bind_eq_some_iff, Option.map_eq_some_iff] at h
    obtain ⟨-, c, hc, c', hstep, rfl⟩ := h
    dsimp only [onConnection]
    by_cases hij : j = i
    · subst hij
      obtain ⟨t', ht', hi'⟩ := is_own reason hi hc hstep
      rw [if_pos rfl]
      exact ⟨t', by simp [ht'], hi'⟩
    · rw [if_neg hij]
      exact is_other reason hij hi hc hstep
  | replyUncaught j k pkt opened =>
    simp only [step, Option.ite_none_right_eq_some, Option.bind_eq_some_iff, Option.some.injEq, Bool.and_eq_true] at h
    obtain ⟨⟨hrun, -⟩, c, hc, hk, rfl⟩ := h
    obtain ⟨-, -, -, hexit, hphase⟩ :=
      sendResponse_sends reason { c with pending := c.pending.erase k } pkt opened (.reply k)
    have hstep : ConnectionSession.step reason c (.reply k pkt opened) =
        some (sendResponse reason { c with pending := c.pending.erase k } pkt opened (.reply k)).1 := if_pos hk
    have hctl := sendResponse_control reason { c with pending := c.pending.erase k } pkt opened (.reply k)
    generalize sendResponse reason { c with pending := c.pending.erase k } pkt opened (.reply k) = x
      at hexit hphase hstep hctl ⊢
    obtain ⟨c', e⟩ := x
    -- The reply itself, on the connection it was made for.
    have hreply : ∃ t', run (ConnectionSession.step reason) t (if j = i then [.reply k pkt opened] else []) = some t' ∧
        Is i (s.update j c') t' := by
      by_cases hij : j = i
      · subst hij
        obtain ⟨t', ht', hi'⟩ := is_own reason hi hc hstep
        exact ⟨t', by simp [ht'], hi'⟩
      · rw [if_neg hij]
        exact is_other reason hij hi hc hstep
    obtain ⟨t', ht', hi'⟩ := hreply
    obtain ⟨c₀, -, hceq⟩ := session_eq_some hc
    have hcrun : c.running = true := (congrArg ConnectionSession.running hceq).trans hrun
    have hrun' : (s.update j c').running = true := (congrArg Control.running hctl).trans hcrun
    dsimp only [onConnection]
    rw [run_append, ht']
    cases e with
    | returns =>
      rw [hexit.1 rfl]
      exact ⟨t', rfl, hi'⟩
    | throws =>
      have hno : starts pkt opened = false := by
        rw [Bool.eq_false_iff]
        intro hyes
        cases hexit.2 hyes
      rw [hno, ← dispatching_update hc hphase]
      exact is_leaveProcessor reason hi' hrun'

/-! ## Every run -/

/-- What the accept handler makes of a connection, and of the server. -/
theorem is_accepted {s s' : Server H} {hs : Handshake} (h : step reason s (.acceptCompletes hs) = some s') :
    s'.connections.length = s.connections.length + 1 ∧
      Is s.connections.length s' (ConnectionSession.start s.processors s.serverName s.secure s.now hs) := by
  simp only [step, Option.ite_none_right_eq_some, Option.some.injEq, Bool.and_eq_true] at h
  obtain ⟨⟨⟨hrun, -⟩, -⟩, rfl⟩ := h
  have hget : ∀ c, (s.connections ++ [c])[s.connections.length]? = some c := fun c => List.getElem?_concat_length
  unfold acceptHandler ConnectionSession.start
  dsimp only
  rw [handleRequests_accept]
  -- The session of a TLS server throws, whatever the peer does.
  cases s.secure with
  | false =>
    rw [if_neg Bool.false_ne_true]
    refine ⟨List.length_append, ?_, fun _ => rfl⟩
    simp only [session, handleConnections, hget, hrun]
    rfl
  | true =>
    rw [if_pos rfl]
    refine ⟨List.length_append, ?_, fun h => by cases h⟩
    simp only [session, hget]
    rfl

/-- Only the accept handler makes a connection, and makes one. -/
theorem step_length {s s' : Server H} {a : Action H} (h : step reason s a = some s') :
    (∃ hs, a = .acceptCompletes hs ∧ s'.connections.length = s.connections.length + 1) ∨
      s'.connections.length = s.connections.length := by
  cases step_move reason h with
  | @accepted hs => exact .inl ⟨hs, rfl, List.length_append⟩
  | @acceptThrew hs => exact .inl ⟨hs, rfl, List.length_append⟩
  | registered | ticked | acceptFailed => exact .inr rfl
  | connection => exact .inr List.length_set
  | @replied i k pkt opened c t e =>
    refine .inr ?_
    cases e with
    | returns => exact List.length_set
    | throws => exact List.length_map _ |>.trans List.length_set

/-- The name and the certificate of a server stay. -/
theorem step_settings {s s' : Server H} {a : Action H} (h : step reason s a = some s') :
    s'.serverName = s.serverName ∧ s'.secure = s.secure := by
  cases step_move reason h with
  | @replied i k pkt opened c t e => cases e <;> exact ⟨rfl, rfl⟩
  | _ => exact ⟨rfl, rfl⟩

theorem run_settings {s s' : Server H} {as : List (Action H)} (h : run (step reason) s as = some s') :
    s'.serverName = s.serverName ∧ s'.secure = s.secure :=
  run_inv (I := fun t : Server H => t.serverName = s.serverName ∧ t.secure = s.secure)
    (fun _ _ _ ht hstep => by
      obtain ⟨hname, hsecure⟩ := step_settings reason hstep
      exact ⟨hname.trans ht.1, hsecure.trans ht.2⟩) ⟨rfl, rfl⟩ h

/-- Where connection `i` was accepted. -/
theorem exists_accept {processors : Processors H} {serverName : String} {secure : Bool} {now : Nat}
    {as : List (Action H)} {s : Server H} (h : run (step reason) (start processors serverName secure now) as = some s)
    {i : Nat} (hi : i < s.connections.length) :
    ∃ pre hs post s₀ s₁, as = pre ++ .acceptCompletes hs :: post ∧
      run (step reason) (start processors serverName secure now) pre = some s₀ ∧ s₀.connections.length = i ∧
      step reason s₀ (.acceptCompletes hs) = some s₁ ∧ run (step reason) s₁ post = some s ∧
      Is i s₁ (ConnectionSession.start s₀.processors serverName secure s₀.now hs) := by
  obtain ⟨pre, a, post, s₀, s₁, has, hpre, hbefore, hstep, hafter, hpost⟩ :=
    exists_switch (P := fun t : Server H => i < t.connections.length)
      (show ¬ i < (start processors serverName secure now).connections.length from Nat.not_lt_zero i) hi h
  have hsame : ¬ s₁.connections.length = s₀.connections.length := fun he => hbefore (he ▸ hafter)
  obtain ⟨hs, rfl, hlen⟩ := (step_length reason hstep).resolve_right hsame
  have hindex : s₀.connections.length = i := by omega
  obtain ⟨-, hstart⟩ := is_accepted reason hstep
  obtain ⟨hname, hsecure⟩ := run_settings reason hpre
  rw [hindex, hname, hsecure] at hstart
  exact ⟨pre, hs, post, s₀, s₁, has, hpre, hindex, hstep, hpost, hstart⟩

/-- In every run of a server, each connection was accepted by some step of it
and has since gone through a run of `ConnectionSession`: the steps are its own
and those of the others that all connections see, whatever the others did
besides. Only `run()` may have ended meanwhile. -/
theorem connection_run (processors : Processors H) (serverName : String) (secure : Bool) (now : Nat)
    (as : List (Action H)) (s : Server H) (h : run (step reason) (start processors serverName secure now) as = some s)
    (i : Nat) (hi : i < s.connections.length) :
    ∃ pre hs post s₀ s₁ t, as = pre ++ .acceptCompletes hs :: post ∧
      run (step reason) (start processors serverName secure now) pre = some s₀ ∧ s₀.connections.length = i ∧
      step reason s₀ (.acceptCompletes hs) = some s₁ ∧
      run (ConnectionSession.step reason) (ConnectionSession.start s₀.processors serverName secure s₀.now hs)
        (followed (step reason) (onConnection i) s₁ post) = some t ∧ Is i s t := by
  obtain ⟨pre, hs, post, s₀, s₁, has, hpre, hindex, hstep, hpost, hstart⟩ := exists_accept reason h hi
  obtain ⟨t, ht, his⟩ := (follows reason i).run hstart hpost
  exact ⟨pre, hs, post, s₀, s₁, t, has, hpre, hindex, hstep, ht, his⟩

/-- Two clients, of which the first has a request answered after the second
was accepted. -/
def twoClients : List (Action Unit) :=
  [.acceptCompletes .succeeds, .connection 0 (.readCompletes { method := .post, target := "/", body := [97] } 0 .succeeds),
    .connection 0 (.processorReturns .succeeds), .acceptCompletes .succeeds,
    .connection 1 (.readCompletes { method := .post, target := "/", body := [98] } 0 .succeeds),
    .connection 0 (.reply 0 { statusCode := 200 } none)]

theorem connection_run_second :
    ∃ s, run (step fun _ => "") (start (fun _ => some fun _ => some ()) "server" false 0) twoClients = some s ∧
      ∃ pre hs post s₀ s₁ t, twoClients = pre ++ .acceptCompletes hs :: post ∧
        run (step fun _ => "") (start (fun _ => some fun _ => some ()) "server" false 0) pre = some s₀ ∧
        s₀.connections.length = 1 ∧ step (fun _ => "") s₀ (.acceptCompletes hs) = some s₁ ∧
        run (ConnectionSession.step fun _ => "") (ConnectionSession.start s₀.processors "server" false s₀.now hs)
          (followed (step fun _ => "") (onConnection 1) s₁ post) = some t ∧ Is 1 s t :=
  ⟨_, rfl, connection_run (fun _ => "") _ "server" false 0 twoClients _ rfl 1 (by decide)⟩

/-! ## What the processors of a connection are called with -/

/-- What a run reads on connection `i`, in order. -/
def readOn (i : Nat) (as : List (Action H)) : List (Request × Int) :=
  as.filterMap fun
    | .connection j a => if j = i then reading a else none
    | _ => none

theorem reading_onConnection (i : Nat) (s : Server H) (a : Action H) :
    (onConnection i s a).filterMap reading = readOn i [a] := by
  have hshared : ∀ a : ConnectionSession.Action H, (shared a).filterMap reading = [] := by
    intro a
    cases a <;> rfl
  cases a with
  | setHandler | tick | acceptFails | acceptCompletes => rfl
  | connection j a =>
    dsimp only [onConnection, readOn]
    by_cases hij : j = i
    · simp [hij, List.filterMap_cons]
    · simp [hij, hshared]
  | replyUncaught j k pkt opened =>
    dsimp only [onConnection, readOn]
    rw [List.filterMap_append]
    split <;> split <;> rfl

theorem readOn_append (i : Nat) (as bs : List (Action H)) : readOn i (as ++ bs) = readOn i as ++ readOn i bs :=
  List.filterMap_append

theorem reading_followed (i : Nat) {s s' : Server H} {as : List (Action H)} (h : run (step reason) s as = some s') :
    (followed (step reason) (onConnection i) s as).filterMap reading = readOn i as := by
  induction as generalizing s with
  | nil => rfl
  | cons a as ih =>
    obtain ⟨t, ht, h⟩ := Option.bind_eq_some_iff.1 h
    rw [followed_cons ht, ← List.singleton_append, readOn_append, ← ih h, ← reading_onConnection i s a]
    exact List.filterMap_append

/-- A connection reads nothing before it is accepted. -/
theorem readOn_before {i : Nat} {s₀ s : Server H} {as : List (Action H)} (h : run (step reason) s₀ as = some s)
    (hi : s.connections.length ≤ i) : readOn i as = [] := by
  refine run_history (R := fun (s : Server H) as => s.connections.length ≤ i → readOn i as = []) (fun _ => rfl)
    (fun s as a s' ih hstep hi => ?_) h hi
  have hle : s.connections.length ≤ i := by
    rcases step_length reason hstep with ⟨-, -, hlen⟩ | hlen <;> omega
  rw [readOn_append, ih hle, List.nil_append]
  cases a with
  | connection j a =>
    have hij : j ≠ i := by
      rintro rfl
      simp only [step, Option.ite_none_left_eq_some, Option.bind_eq_some_iff] at hstep
      obtain ⟨-, c, hc, -⟩ := hstep
      obtain ⟨c₀, hc₀, -⟩ := session_eq_some hc
      obtain ⟨hlt, -⟩ := List.getElem?_eq_some_iff.1 hc₀
      omega
    simp [readOn, hij]
  | _ => rfl

/-- In every run of a server, with any number of connections, a connection has
received exactly the requests read on it, and the calls of `m_processors` made
for it are those that its own reads lead to, each read with the method it was
dispatched as and with the bodies of the connection so far: nothing read on
another connection is in them. -/
theorem connections_isolated (processors : Processors H) (serverName : String) (secure : Bool) (now : Nat)
    (as : List (Action H)) (s : Server H) (h : run (step reason) (start processors serverName secure now) as = some s)
    (i : Nat) (c : ConnectionSession H) (hc : s.session i = some c) :
    c.log.received = (readOn i as).map Prod.fst ∧ c.log.handed = handedTo [] (readOn i as) := by
  obtain ⟨c₀, hc₀, -⟩ := session_eq_some hc
  obtain ⟨hlt, -⟩ := List.getElem?_eq_some_iff.1 hc₀
  obtain ⟨pre, hs, post, s₀, s₁, rfl, hpre, hindex, -, hpost, hstart⟩ := exists_accept reason h hlt
  obtain ⟨t, ht, his, -⟩ := (follows reason i).run hstart hpost
  have hheard := heard_run reason (heard_start s₀.processors serverName secure s₀.now hs) ht
  have hread : readOn i (pre ++ .acceptCompletes hs :: post) = readOn i post := by
    rw [readOn_append, readOn_before reason hpre (Nat.le_of_eq hindex), List.nil_append]
    rfl
  rw [List.nil_append, reading_followed reason i hpost] at hheard
  rw [hc] at his
  cases his
  rw [hread]
  exact ⟨hheard.received, hheard.handed⟩

/-- The second client also sends a HEAD, which has no entry. -/
theorem connections_isolated_second :
    ∃ s, run (step fun _ => "") (start (fun _ => some fun _ => some ()) "server" false 0)
        (twoClients ++ [.connection 1 (.processorReturns .succeeds),
          .connection 1 (.readCompletes { method := .other "HEAD", target := "/", body := [99] } 7 .succeeds),
          .connection 1 (.readCompletes { method := .get, target := "/" } 0 .succeeds)]) = some s ∧
      ∃ c, s.session 1 = some c ∧ c.log.handed =
        [(.Post, { target := "/", body := [98] }), (.Get, { target := "/", body := [98, 99] })] :=
  ⟨_, rfl, _, rfl, (connections_isolated (fun _ => "") (fun _ => some fun _ => some ()) "server" false 0
    (twoClients ++ [.connection 1 (.processorReturns .succeeds),
      .connection 1 (.readCompletes { method := .other "HEAD", target := "/", body := [99] } 7 .succeeds),
      .connection 1 (.readCompletes { method := .get, target := "/" } 0 .succeeds)]) _ rfl 1 _ rfl).2⟩

end ComponentsNetwork.HTTP.Server
