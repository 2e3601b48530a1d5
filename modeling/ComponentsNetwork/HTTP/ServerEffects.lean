import ComponentsNetwork.HTTP.Server
import ComponentsNetwork.HTTP.SessionControl
/-!
# What a step of the server does

`step_move` sums up `Server.lean`, as `step_effect` and `step_turn` do a
session: a step makes a session or moves one, and an exception that leaves a
handler ends `run()`.
-/

namespace ComponentsNetwork.HTTP.Server

open Buffers Asio ConnectionSession

variable {H : Type} (reason : Nat → String)

/-- The session the accept handler makes, once it has called its
`handleRequests`. -/
def accepted (s : Server H) (hs : Handshake) : ConnectionSession H :=
  (handleRequests (accept s.processors s.serverName s.secure s.now) hs).1

/-- What an action does. `t` is the session a reply function was called on, and
`e` how that call ended. -/
inductive Move (s : Server H) : Action H → Server H → Prop
  | registered {target method cbk} :
      Move s (.setHandler target method cbk) { s with processors := s.processors.setHandler target method cbk }
  | ticked {d} : Move s (.tick d) { s with now := s.now + d }
  | acceptFailed : 0 < s.accepts → Move s .acceptFails (handleConnections { s with accepts := s.accepts - 1 })
  | accepted {hs} : 0 < s.accepts → s.secure = false →
      Move s (.acceptCompletes hs)
        (handleConnections { s with accepts := s.accepts - 1, connections := s.connections ++ [s.accepted hs] })
  | acceptThrew {hs} : s.secure = true →
      Move s (.acceptCompletes hs)
        { s with accepts := s.accepts - 1, running := false, connections := s.connections ++ [s.accepted hs] }
  | connection {i a c c'} : s.session i = some c → ConnectionSession.step reason c a = some c' →
      Move s (.connection i a) (s.update i c')
  | replied {i k pkt opened c t e} : s.session i = some c → t.control = c.control →
      Sends { c with pending := c.pending.erase k } (.reply k) (starts pkt opened) (t, e) →
      Move s (.replyUncaught i k pkt opened) ((s.update i t).leaveProcessor e)

/-- The first `handleRequests` of a session. No peer can make the handshake of
a TLS session succeed: its socket was closed in the constructor. -/
theorem handleRequests_accept (processors : Processors H) (serverName : String) (secure : Bool) (now : Nat)
    (hs : Handshake) :
    handleRequests (accept processors serverName secure now) hs =
      if secure then ({ accept processors serverName secure now with phase := .ended }, .throws)
      else (checkDeadline { accept processors serverName secure now with phase := .reading }, .returns) := by
  cases secure <;> rfl

theorem accept_returns_iff (processors : Processors H) (serverName : String) (secure : Bool) (now : Nat)
    (hs : Handshake) : (handleRequests (accept processors serverName secure now) hs).2 = .returns ↔ secure = false := by
  rw [handleRequests_accept]
  cases secure <;> simp

theorem step_move {s s' : Server H} {a : Action H} (h : step reason s a = some s') : Move reason s a s' := by
  cases a with
  | setHandler => cases h; exact .registered
  | tick d => cases h; exact .ticked
  | acceptFails =>
    simp only [step, Option.ite_none_right_eq_some, Option.some.injEq, Bool.and_eq_true, decide_eq_true_eq] at h
    obtain ⟨⟨-, hacc⟩, rfl⟩ := h
    exact .acceptFailed hacc
  | acceptCompletes hs =>
    simp only [step, Option.ite_none_right_eq_some, Option.some.injEq, Bool.and_eq_true, decide_eq_true_eq] at h
    obtain ⟨⟨-, hacc⟩, rfl⟩ := h
    have hret := accept_returns_iff s.processors s.serverName s.secure s.now hs
    have hc : s.accepted hs = (handleRequests (accept s.processors s.serverName s.secure s.now) hs).1 := rfl
    unfold acceptHandler
    dsimp only
    generalize handleRequests _ hs = x at hret hc ⊢
    obtain ⟨c, e⟩ := x
    cases hc
    cases e with
    | returns => exact .accepted hacc (hret.1 rfl)
    | throws =>
      apply Move.acceptThrew
      by_contra hno
      cases hret.2 (Bool.eq_false_iff.2 hno)
  | connection i a =>
    simp only [step, Option.ite_none_left_eq_some, Option.bind_eq_some_iff, Option.map_eq_some_iff] at h
    obtain ⟨-, c, hc, c', hstep, rfl⟩ := h
    exact .connection hc hstep
  | replyUncaught i k pkt opened =>
    simp only [step, Option.ite_none_right_eq_some, Option.bind_eq_some_iff, Option.some.injEq] at h
    obtain ⟨-, c, hc, -, rfl⟩ := h
    have hctl := sendResponse_control reason { c with pending := c.pending.erase k } pkt opened (.reply k)
    exact .replied hc hctl (sendResponse_sends reason _ pkt opened (.reply k))

/-- A session is what the server keeps of it, and what all sessions share. -/
theorem session_eq_some {s : Server H} {i : Nat} {c : ConnectionSession H} (h : s.session i = some c) :
    ∃ c₀, s.connections[i]? = some c₀ ∧
      c = { c₀ with serverProcessors := s.processors, running := s.running, now := s.now } := by
  obtain ⟨c₀, hc₀, rfl⟩ := Option.map_eq_some_iff.1 h
  exact ⟨c₀, hc₀, rfl⟩

end ComponentsNetwork.HTTP.Server
