import ComponentsNetwork.HTTP.ServerLifecycle
import ComponentsNetwork.HTTP.OwnershipTheorems
import ComponentsNetwork.HTTP.ServerSessions
import ComponentsNetwork.HTTP.ServerTheorems
/-!
# What `isRunning` tells

- `reported_running`: a server that has been started serves until an exception
  leaves a handler. One without TLS reports that it is running even then, for
  its accept is still outstanding; a TLS server reports the end that its first
  accept brings.
-/

namespace ComponentsNetwork.HTTP

open Asio Runs

variable {H : Type} (reason : Nat → String)

namespace Server

/-- `run()` is not resumed. -/
theorem running_move {s s' : Server H} {a : Action H} (h : Move reason s a s') (hr : s'.running = true) :
    s.running = true := by
  cases h with
  | registered | ticked | acceptFailed | accepted => exact hr
  | acceptThrew => cases hr
  | connection hc hstep =>
    obtain ⟨c₀, -, rfl⟩ := session_eq_some hc
    exact running_of_step reason hstep hr
  | @replied i k pkt opened c t e hc hcontrol _ =>
    obtain ⟨c₀, -, rfl⟩ := session_eq_some hc
    cases e with
    | returns => exact (congrArg ConnectionSession.Control.running hcontrol).symm.trans hr
    | throws => cases hr

/-- One accept stays outstanding, unless a TLS server accepts. -/
theorem accepts_move {s s' : Server H} {a : Action H} (hone : s.accepts = 1) (h : Move reason s a s') :
    s'.accepts = 1 ∨ s.secure = true ∧ s'.running = false := by
  cases h with
  | registered | ticked | connection => exact .inl hone
  | acceptFailed | accepted => simp [handleConnections, hone]
  | acceptThrew hsecure => exact .inr ⟨hsecure, rfl⟩
  | @replied i k pkt opened c t e hc hcontrol _ => cases e <;> exact .inl hone

theorem secure_move {s s' : Server H} {a : Action H} (h : Move reason s a s') : s'.secure = s.secure := by
  cases h with
  | @replied i k pkt opened c t e => cases e <;> rfl
  | _ => rfl

end Server

namespace ServerOwner

def construct (serverName certFile : String) : ServerOwner H := { serverName, certFile }

/-- No exception leaves the handler that the action runs. -/
def Survives (s : ServerOwner H) : Action H → Prop
  | .server (.server a) => ∀ d, s.d = some d → Server.Survives d.owned.server a
  | _ => True

/-- The server is neither started anew nor stopped. -/
def Undisturbed (a : Action H) : Prop := a ≠ .start true ∧ a ≠ .stop

def Accepts (a : Action H) : Prop := ∃ hs, a = .server (.server (.acceptCompletes hs))

/-! ## One server -/

/-- A server without TLS keeps its accept. A TLS server has no session before
it ends, and is stopped then. -/
inductive Standing (d : Impl H) : Prop
  | plain (plain : d.owned.server.secure = false) (accepts : d.owned.server.accepts = 1) (stopped : d.stopped = false)
  | waiting (secure : d.owned.server.secure = true) (accepting : Server.Accepting d.owned.server)
      (none : d.owned.server.connections = []) (stopped : d.stopped = false)
  | gone (secure : d.owned.server.secure = true) (running : d.owned.server.running = false) (stopped : d.stopped = true)

/-- What holds of a server from its start on. -/
structure Stands (d : Impl H) : Prop where
  kept : Owned.Kept d.owned
  mute : Server.AllMute d.owned.server
  standing : Standing d

theorem stands_start (processors : Processors H) (serverName : String) (secure : Bool) (now : Nat) :
    Stands ({ owned := .start processors serverName secure now } : Impl H) := by
  refine ⟨Owned.kept_start processors serverName secure now, fun _ hc => absurd hc List.not_mem_nil, ?_⟩
  cases secure with
  | false => exact .plain rfl rfl rfl
  | true => exact .waiting rfl ⟨rfl, rfl⟩ rfl rfl

theorem moved_stopped (d : Impl H) (owned : Owned H) (h : owned.server.running = d.owned.server.running) :
    (d.moved owned).stopped = d.stopped := by
  cases hr : d.owned.server.running <;> simp [Impl.moved, h, hr]

/-- What leaves the server itself alone. -/
theorem standing_aside {d : Impl H} {owned : Owned H} (h : Standing d) (hsame : owned.server = d.owned.server) :
    Standing (d.moved owned) := by
  have hstopped := moved_stopped d owned (congrArg Server.running hsame)
  have hserver : (d.moved owned).owned.server = d.owned.server := hsame
  cases h with
  | plain h₁ h₂ h₃ => exact .plain (hserver ▸ h₁) (hserver ▸ h₂) (hstopped.trans h₃)
  | waiting h₁ h₂ h₃ h₄ => exact .waiting (hserver ▸ h₁) (hserver ▸ h₂) (hserver ▸ h₃) (hstopped.trans h₄)
  | gone h₁ h₂ h₃ => exact .gone (hserver ▸ h₁) (hserver ▸ h₂) (hstopped.trans h₃)

/-- Without sessions a server does nothing but accept. -/
theorem waiting_move {s server : Server H} {a : Server.Action H} (hsecure : s.secure = true)
    (hp : Server.Accepting s) (hnone : s.connections = []) (hm : Server.Move reason s a server) :
    (Server.Accepting server ∧ server.connections = [] ∧ ∀ hs, a ≠ .acceptCompletes hs) ∨
      ∃ hs, a = .acceptCompletes hs ∧
        server = { s with accepts := s.accepts - 1, running := false, connections := [s.accepted hs] } := by
  have hsession : ∀ i, s.session i = none := by
    intro i
    simp [Server.session, hnone]
  obtain ⟨hrun, hone⟩ := hp
  cases hm with
  | registered | ticked => exact .inl ⟨⟨hrun, hone⟩, hnone, by simp⟩
  | acceptFailed => exact .inl ⟨⟨hrun, by simp [Server.handleConnections, hone]⟩, hnone, by simp⟩
  | accepted _ hplain => cases hplain.symm.trans hsecure
  | @acceptThrew hs => exact .inr ⟨hs, rfl, by rw [hnone]; rfl⟩
  | connection hc | replied hc => cases (hsession _).symm.trans hc

/-- The first accept of a TLS server leaves nothing outstanding. -/
theorem outstanding_accepted {s : Owned H} (hk : Owned.Kept s) (hsecure : s.server.secure = true)
    (hone : s.server.accepts = 1) (hnone : s.server.connections = []) (hs : Handshake) :
    (s.moved (.acceptCompletes hs)
      { s.server with accepts := s.server.accepts - 1, running := false
                      connections := [s.server.accepted hs] }).outstanding = 0 := by
  have hholds := Owned.holds_accepted s.server hs
  rw [hsecure, if_pos rfl] at hholds
  obtain ⟨hcancelled, -⟩ := hk.fresh 0 (by simp [hnone])
  simp [Owned.outstanding, Owned.moved, Owned.addCancelled, hone, hholds, hcancelled]

/-- A change of the server, and whether it is stopped after it. -/
theorem standing_moved {d : Impl H} {a : Server.Action H} {server : Server H} (hk : Owned.Kept d.owned)
    (hd : Standing d) (hm : Server.Move reason d.owned.server a server) :
    Standing (d.moved (d.owned.moved a server)) ∧
      ((d.moved (d.owned.moved a server)).stopped = true ↔
        d.stopped = true ∨ d.owned.server.secure = true ∧ ∃ hs, a = .acceptCompletes hs) := by
  have hsecure : server.secure = d.owned.server.secure := Server.secure_move reason hm
  cases hd with
  | plain hplain hone hstopped =>
    have hone' : server.accepts = 1 := by
      rcases Server.accepts_move reason hone hm with h | ⟨h, -⟩
      · exact h
      · cases hplain.symm.trans h
    -- The accept is outstanding.
    have hsome : (d.owned.moved a server).outstanding ≠ 0 := by simp [Owned.outstanding, Owned.moved, hone']
    have hstopped' : (d.moved (d.owned.moved a server)).stopped = false := by simp [Impl.moved, hstopped, hsome]
    refine ⟨.plain (hsecure.trans hplain) hone' hstopped', ?_⟩
    rw [hstopped', hstopped, hplain]
    simp
  | waiting hs hp hnone hstopped =>
    rcases waiting_move reason hs hp hnone hm with ⟨hp', hnone', hnot⟩ | ⟨hs', rfl, hserver⟩
    · have hstopped' := moved_stopped d (d.owned.moved a server) (hp'.1.trans hp.1.symm)
      refine ⟨.waiting (hsecure.trans hs) hp' hnone' (hstopped'.trans hstopped), ?_⟩
      rw [hstopped']
      simp [hnot]
    · have hgone := outstanding_accepted hk hs hp.2 hnone hs'
      rw [← hserver] at hgone
      have hrunning : server.running = false := by rw [hserver]
      have hstopped' : (d.moved (d.owned.moved (.acceptCompletes hs') server)).stopped = true := by
        simp only [Impl.moved, hgone, hp.1]
        simp [Owned.moved, hrunning]
      exact ⟨.gone (hsecure.trans hs) hrunning hstopped', iff_of_true hstopped' (.inr ⟨hs, hs', rfl⟩)⟩
  | gone hs hrunning hstopped =>
    have hrunning' : server.running = false := by
      rw [Bool.eq_false_iff]
      exact fun hr => by cases hrunning.symm.trans (Server.running_move reason hm hr)
    have hstopped' : (d.moved (d.owned.moved a server)).stopped = true := by simp [Impl.moved, hstopped]
    exact ⟨.gone (hsecure.trans hs) hrunning' hstopped', iff_of_true hstopped' (.inl hstopped)⟩

theorem stands_change {d : Impl H} {b : Owned.Action H} {owned : Owned H} (hd : Stands d)
    (h : Owned.Change reason d.owned b owned) :
    Stands (d.moved owned) ∧ owned.server.secure = d.owned.server.secure ∧
      ((d.moved owned).stopped = true ↔
        d.stopped = true ∨ d.owned.server.secure = true ∧ ∃ hs, b = .server (.acceptCompletes hs)) := by
  obtain ⟨hk, hmute, hstanding⟩ := hd
  have hk' := Owned.kept_change reason hk h
  cases h with
  | @server a server hm =>
    obtain ⟨hstanding', hstopped⟩ := standing_moved reason hk hstanding hm
    refine ⟨⟨hk', Server.allMute_move reason hmute hm, hstanding'⟩, Server.secure_move reason hm, hstopped.trans ?_⟩
    simp
  | keep | drop | cancelled =>
    refine ⟨⟨hk', hmute, standing_aside hstanding rfl⟩, rfl, ?_⟩
    rw [moved_stopped d]
    · simp
    · rfl

/-! ## Every run -/

theorem executing_eq {s : ServerOwner H} {d : Impl H} (h : s.d = some d) : s.executing = d.owned.server.running := by
  rw [executing, h]
  rfl

/-- A server started with or without TLS, and the steps since. -/
def Since (secure : Bool) (s : ServerOwner H) (as : List (Action H)) : Prop :=
  ∃ d, s.d = some d ∧ Stands d ∧ d.owned.server.secure = secure ∧
    (d.stopped = true ↔ secure = true ∧ ∃ a ∈ as, Accepts a)

theorem since_start {s s' : ServerOwner H} (h : step reason s (.start true) = some s') :
    Since (s.certFile ≠ "") s' [] ∧ s'.executing = true := by
  obtain ⟨-, h⟩ := Option.ite_none_left_eq_some.1 h
  cases h
  exact ⟨⟨_, rfl, stands_start _ _ _ _, rfl, by simp⟩, rfl⟩

/-- What a step is that neither starts nor stops the server. -/
theorem undisturbed_step {s s' : ServerOwner H} {d : Impl H} {a : Action H} (hd : s.d = some d) (hs : Stands d)
    (ha : Undisturbed a) (h : step reason s a = some s') : s' = s ∧ (∀ b, a ≠ .server b) ∨
      ∃ b owned, a = .server b ∧ Owned.Change reason d.owned b owned ∧ s'.d = some (d.moved owned) := by
  cases a with
  | start made =>
    obtain ⟨-, h⟩ := Option.ite_none_left_eq_some.1 h
    cases made with
    | false =>
      cases h
      exact .inl ⟨rfl, by simp⟩
    | true => exact absurd rfl ha.1
  | stop => exact absurd rfl ha.2
  | server b =>
    simp only [step, stepServer, hd, Option.map_eq_some_iff] at h
    obtain ⟨owned, howned, rfl⟩ := h
    exact .inr ⟨b, owned, rfl, Owned.step_change reason hs.kept howned, rfl⟩
  | runReturns =>
    obtain ⟨e, he, h⟩ := Option.bind_eq_some_iff.1 h
    cases hd.symm.trans he
    simp only [Option.ite_none_right_eq_some, Bool.and_eq_true, decide_eq_true_eq] at h
    obtain ⟨⟨hrunning, hnone⟩, -⟩ := h
    have haccepts : d.owned.server.accepts = 0 := (Nat.add_eq_zero_iff.1 hnone).1
    cases hs.standing with
    | plain _ hone => cases haccepts.symm.trans hone
    | waiting _ hp => cases haccepts.symm.trans hp.2
    | gone _ hno => cases hno.symm.trans hrunning

theorem since_step {secure : Bool} {s s' : ServerOwner H} {as : List (Action H)} {a : Action H}
    (hs : Since secure s as) (ha : Undisturbed a) (h : step reason s a = some s') : Since secure s' (as ++ [a]) := by
  obtain ⟨d, hd, hstands, hsecure, hstopped⟩ := hs
  rcases undisturbed_step reason hd hstands ha h with ⟨rfl, hnot⟩ | ⟨b, owned, rfl, hchange, hd'⟩
  · have hno : ¬ Accepts a := fun ⟨hs, he⟩ => hnot _ he
    exact ⟨d, hd, hstands, hsecure, hstopped.trans (by simp [hno])⟩
  · obtain ⟨hstands', hsecure', hstopped'⟩ := stands_change reason hstands hchange
    refine ⟨_, hd', hstands', hsecure'.trans hsecure, hstopped'.trans ?_⟩
    rw [hstopped, hsecure]
    simp only [Accepts, List.mem_append, List.mem_singleton, or_and_right, exists_or, exists_eq_left, Action.server.injEq]
    exact and_or_left.symm

/-- While `run()` executes, one accept is outstanding. -/
theorem accepting_of_standing {d : Impl H} (h : Standing d) (hr : d.owned.server.running = true) :
    Server.Accepting d.owned.server := by
  cases h with
  | plain _ hone => exact ⟨hr, hone⟩
  | waiting _ hp => exact hp
  | gone _ hno => cases hno.symm.trans hr

theorem executing_step {secure : Bool} {s s' : ServerOwner H} {as : List (Action H)} {a : Action H}
    (hs : Since secure s as) (ha : Undisturbed a) (h : step reason s a = some s') :
    (s'.executing = true → s.executing = true) ∧ (s.executing = true → (s'.executing = true ↔ Survives s a)) := by
  obtain ⟨d, hd, hstands, -, -⟩ := hs
  rcases undisturbed_step reason hd hstands ha h with ⟨rfl, hnot⟩ | ⟨b, owned, rfl, hchange, hd'⟩
  · refine ⟨id, fun hexecuting => iff_of_true hexecuting ?_⟩
    cases a with
    | server b => exact absurd rfl (hnot b)
    | _ => trivial
  · rw [executing_eq hd, executing_eq hd']
    obtain ⟨hstands', -, -⟩ := stands_change reason hstands hchange
    cases hchange with
    | @server a server hm =>
      refine ⟨Server.running_move reason hm, fun hrunning => ?_⟩
      have hsurvives : Survives s (.server (.server a)) ↔ Server.Survives d.owned.server a := by simp [Survives, hd]
      rw [hsurvives, ← Server.move_accepting reason hstands.mute (accepting_of_standing hstands.standing hrunning) hm]
      exact ⟨accepting_of_standing hstands'.standing, fun hp => hp.1⟩
    | keep | drop | cancelled => exact ⟨id, fun hr => iff_of_true hr trivial⟩

/-- In every run after a start that returned no error, without another start
and without a stop: `run()` is executing if and only if no exception has left a
handler. A server without TLS reports that it is running in every state, also
after an exception has ended `run()`; a TLS server does so until its first
accept, which ends it. -/
theorem reported_running {s v t : ServerOwner H} {as : List (Action H)}
    (hstart : step reason s (.start true) = some v) (has : ∀ a ∈ as, Undisturbed a)
    (h : run (step reason) v as = some t) :
    (t.isRunning = true ↔ s.certFile = "" ∨ ∀ a ∈ as, ¬ Accepts a) ∧
      (t.executing = true ↔ Meets (step reason) Survives v as) := by
  obtain ⟨hsince, hexecuting⟩ := since_start reason hstart
  generalize hsecure : decide (s.certFile ≠ "") = secure at hsince
  have hlast : Since secure t as := by
    refine run_history (R := fun t as => (∀ a ∈ as, Undisturbed a) → Since secure t as) (fun _ => hsince)
      (fun u as a u' ih hstep has => ?_) h has
    have ih := ih fun a ha => has a (List.mem_append_left _ ha)
    exact since_step reason ih (has a (by simp)) hstep
  refine ⟨?_, ?_⟩
  · obtain ⟨d, hd, -, -, hstopped⟩ := hlast
    have hrunning : t.isRunning = true ↔ ¬ d.stopped = true := by simp [isRunning, hd]
    rw [hrunning, hstopped, ← hsecure, decide_eq_true_eq]
    push Not
    exact or_iff_not_imp_left.symm
  · have hundisturbed : EachStep (step reason) (fun _ a _ => Undisturbed a) v as := eachStep_of_forall has v
    let J (s : ServerOwner H) : Prop := ∃ as, Since secure s as
    have hj : ∀ s a s', J s → Undisturbed a → step reason s a = some s' → J s' :=
      fun s a s' ⟨as, hs⟩ ha hstep => ⟨as ++ [a], since_step reason hs ha hstep⟩
    rw [← always_iff_last (J := J) (E := fun _ a _ => Undisturbed a) hj
      (fun s a s' ⟨_, hs⟩ ha hstep => (executing_step reason hs ha hstep).1) ⟨[], hsince⟩ hundisturbed h]
    exact always_iff_of (P := fun s : ServerOwner H => s.executing = true) (J := J)
      (E := fun _ a _ => Undisturbed a) (fun s a s' hs ha _ hstep => hj s a s' hs ha hstep)
      (fun s a s' ⟨_, hs⟩ hp ha hstep => (executing_step reason hs ha hstep).2 hp) ⟨[], hsince⟩ hexecuting hundisturbed

/-- A request whose processor throws, on one of two connections. -/
def processorThrows : List (Action Unit) :=
  [.server (.server (.acceptCompletes .succeeds)), .server (.server (.acceptCompletes .succeeds)),
    .server (.server (.connection 1 (.readCompletes { method := .post, target := "/", body := [97] } 0 .succeeds))),
    .server (.server (.connection 1 .processorThrows))]

theorem reported_running_throws :
    ∃ v t : ServerOwner Unit,
      step (fun _ => "") { construct "server" "" with processors := fun _ => some fun _ => some () } (.start true) =
          some v ∧
        run (step fun _ => "") v processorThrows = some t ∧ t.isRunning = true ∧ t.executing = false := by
  refine ⟨_, _, rfl, rfl, ?_, rfl⟩
  have hquiet : ∀ a ∈ processorThrows, Undisturbed a := by simp [processorThrows, Undisturbed]
  exact ((reported_running (fun _ => "")
    (s := { construct "server" "" with processors := fun _ => some fun _ => some () }) rfl hquiet rfl).1).2 (.inl rfl)

end ServerOwner

end ComponentsNetwork.HTTP
