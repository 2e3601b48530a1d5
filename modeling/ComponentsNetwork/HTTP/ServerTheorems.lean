import ComponentsNetwork.HTTP.ServerEffects
/-!
# The server goes on accepting

- `accepting_iff`: after every step of a run `m_ioc.run()` is executing and
  one accept is outstanding, if and only if no exception leaves a handler. The
  exceptions are those of `shutdown` after a failed handshake, which every
  accept of a TLS server ends in, of user processors, and of replies with a
  status above 999.
-/

namespace ComponentsNetwork.HTTP.Server

open Buffers Asio Runs ConnectionSession

variable {H : Type} (reason : Nat → String)

/-- `run()` is executing and one accept is outstanding. -/
def Accepting (s : Server H) : Prop := s.running = true ∧ s.accepts = 1

instance (s : Server H) : Decidable (Accepting s) := inferInstanceAs (Decidable (_ ∧ _))

/-- No exception leaves the handler that the action runs. -/
def Survives (s : Server H) : Action H → Prop
  | .acceptCompletes _ => s.secure = false
  | .connection _ .processorThrows => False
  | .replyUncaught _ _ pkt opened => starts pkt opened = true
  | _ => True

/-! ## One handler -/

/-- A TLS session never gets as far as a read. -/
def Mute (c : ConnectionSession H) : Prop := c.secure = true → c.phase = .ended

theorem mute_accepted (s : Server H) (hs : Handshake) : Mute (s.accepted hs) := by
  rcases s with ⟨_, _, _ | _⟩
  · intro h
    cases h
  · exact fun _ => rfl

/-- In a session that reads, `handleRequests` gets as far as its read. -/
theorem proceed_of_mute {c : ConnectionSession H} (hm : Mute c) (hp : c.phase ≠ .ended) (hs : Handshake) :
    c.control.proceed hs =
      { c.control with phase := .reading, deadlineTimer := c.deadlineTimer.cancel.asyncWait } := by
  have hplain : c.control.secure = false := Bool.eq_false_iff.2 fun hsec => hp (hm hsec)
  exact Control.proceed_reads (by simp [Control.readsOn, hplain])

theorem mute_step {c c' : ConnectionSession H} {a : ConnectionSession.Action H} (hm : Mute c)
    (h : ConnectionSession.step reason c a = some c') : Mute c' := by
  have ht := step_turn reason h
  show c'.control.secure = true → c'.control.phase = .ended
  generalize c'.control = k at ht ⊢
  have hreads : c.phase ≠ .ended → ∀ hs, (c.control.proceed hs).secure = true → (c.control.proceed hs).phase = .ended := by
    intro hp hs hsec
    rw [proceed_of_mute hm hp] at hsec
    exact absurd (hm hsec) hp
  cases ht with
  | still | ticked | elapsed | expired => exact hm
  | called _ hp => exact fun hsec => by cases hp.symm.trans (hm hsec)
  | refused _ hp | returned _ hp => exact hreads (by simp [hp]) _
  | failed | threw => exact fun _ => rfl

/-- No handler of a connection ends `run()` but by an exception of the user's
processor. -/
theorem connection_running {c c' : ConnectionSession H} {a : ConnectionSession.Action H} (hm : Mute c)
    (h : ConnectionSession.step reason c a = some c') (hr : c.running = true) :
    c'.running = true ↔ a ≠ .processorThrows := by
  have ht := step_turn reason h
  show c'.control.running = true ↔ _
  generalize c'.control = k at ht ⊢
  cases ht with
  | @still a hs =>
    refine iff_of_true hr fun ha => ?_
    subst ha
    cases hs
  | refused _ hp | returned _ hp =>
    rw [proceed_of_mute hm (by simp [hp])]
    exact iff_of_true hr (by simp)
  | threw => exact iff_of_false (by simp) (by simp)
  | called | failed | ticked | elapsed | expired => exact iff_of_true hr (by simp)

/-! ## One step -/

/-- No session of the server is a TLS session that reads. -/
def AllMute (s : Server H) : Prop := ∀ c ∈ s.connections, Mute c

theorem mute_session {s : Server H} (hm : AllMute s) {i : Nat} {c : ConnectionSession H} (hc : s.session i = some c) :
    Mute c := by
  obtain ⟨c₀, hc₀, rfl⟩ := session_eq_some hc
  exact hm c₀ (List.mem_of_getElem? hc₀)

theorem allMute_update {s : Server H} (hm : AllMute s) (i : Nat) {c : ConnectionSession H} (hc : Mute c) :
    AllMute (s.update i c) := by
  intro d hd
  rcases List.mem_or_eq_of_mem_set hd with hd | rfl
  · exact hm d hd
  · exact hc

theorem allMute_move {s s' : Server H} {a : Action H} (hm : AllMute s) (h : Move reason s a s') : AllMute s' := by
  have hnew : ∀ hs, ∀ c ∈ s.connections ++ [s.accepted hs], Mute c := by
    intro hs c hc
    rcases List.mem_append.1 hc with hc | hc
    · exact hm c hc
    · cases List.mem_singleton.1 hc
      exact mute_accepted s hs
  cases h with
  | registered | ticked | acceptFailed => exact hm
  | accepted | acceptThrew => exact hnew _
  | connection hc hstep => exact allMute_update hm _ (mute_step reason (mute_session hm hc) hstep)
  | @replied i k pkt opened c t e hc hctl hsends =>
    have ht : Mute t := by
      show t.control.secure = true → t.control.phase = .ended
      rw [hctl]
      exact mute_session hm hc
    have hup := allMute_update hm i ht
    cases e with
    | returns => exact hup
    | throws =>
      intro d hd
      obtain ⟨d₀, hd₀, rfl⟩ := List.mem_map.1 hd
      split
      · exact fun _ => rfl
      · exact hup d₀ hd₀

theorem move_accepting {s s' : Server H} {a : Action H} (hm : AllMute s) (hp : Accepting s) (h : Move reason s a s') :
    Accepting s' ↔ Survives s a := by
  obtain ⟨hrun, hacc⟩ := hp
  have hsession : ∀ {i c}, s.session i = some c → c.running = true := by
    intro i c hc
    obtain ⟨c₀, -, rfl⟩ := session_eq_some hc
    exact hrun
  cases h with
  | registered | ticked => exact iff_of_true ⟨hrun, hacc⟩ trivial
  | acceptFailed => exact iff_of_true ⟨hrun, by simp [handleConnections, hacc]⟩ trivial
  | accepted _ hplain => exact iff_of_true ⟨hrun, by simp [handleConnections, hacc]⟩ hplain
  | acceptThrew hsecure => exact iff_of_false (fun hp => by cases hp.1) (by simp [Survives, hsecure])
  | @connection i a c c' hc hstep =>
    have hk := connection_running reason (mute_session hm hc) hstep (hsession hc)
    have hsurv : Survives s (.connection i a) ↔ a ≠ .processorThrows := by cases a <;> simp [Survives]
    rw [hsurv, ← hk]
    exact ⟨fun hp => hp.1, fun hr => ⟨hr, hacc⟩⟩
  | @replied i k pkt opened c t e hc hctl hsends =>
    obtain ⟨-, -, -, hx, -⟩ := hsends
    have htr : t.running = true := (congrArg Control.running hctl).trans (hsession hc)
    refine Iff.trans ?_ hx
    cases e with
    | returns => exact iff_of_true ⟨htr, hacc⟩ rfl
    | throws => exact iff_of_false (fun hp => by cases hp.1) (by simp)

/-! ## Every run -/

/-- In every state of a run the server accepts, if and only if no exception
leaves a handler in it: it accepts no connection as a TLS server, no user
processor throws, and no running processor makes an uncaught reply that
`sendResponse` throws on. -/
theorem accepting_iff (processors : Processors H) (serverName : String) (secure : Bool) (now : Nat)
    (as : List (Action H)) :
    Always (step reason) Accepting (start processors serverName secure now) as ↔
      Meets (step reason) Survives (start processors serverName secure now) as :=
  always_iff (J := AllMute) (fun s a s' hm _ h => allMute_move reason hm (step_move reason h))
    (fun s a s' hm hp h => move_accepting reason hm hp (step_move reason h)) (by simp [AllMute, start, handleConnections])
    ⟨rfl, rfl⟩ as

/-- The first client of a TLS server ends it, though it would take part in a
handshake. -/
theorem handshake_stops_server :
    ¬ Always (step (H := Unit) fun _ => "") Accepting (start (fun _ => none) "server" true 0)
      [.acceptCompletes .succeeds] := by decide

end ComponentsNetwork.HTTP.Server
