import ComponentsNetwork.Socket.Session
import ComponentsNetwork.WebSocket.ContactTheorems
/-!
# Closing a session

- `close_returns_iff`: `close` of a WebSocket session returns, in any state of
  any run, if and only if it has not had a connection or its last one stands
  open, and of a socket session if and only if it has a connection.
-/

namespace ComponentsNetwork.Socket.Session

open Runs

/-- The socket has been connected, and since then neither reset nor closed nor
started anew. -/
def Action.linked (linked : Bool) : Action → Bool
  | .start _ _ throws => throws && linked
  | .connected ec => !ec
  | .reset | .close => false
  | _ => linked

/-- A step, seen by who watches whether the session has a connection. -/
def watched (x : Session × Bool) (a : Action) : Option (Session × Bool) :=
  (x.1.step a).map fun s => (s, a.linked x.2)

/-- A connection is made once `async_connect` has completed, and only then. -/
structure Linked (x : Session × Bool) : Prop where
  socket : x.1.socket = .connected ↔ x.2 = true
  pending : x.1.outstanding = some .connect → x.2 = false

theorem send_frame {s s' : Session} {iStr : Buffers.Bytes} {accepted : Nat}
    (h : s.step (.send iStr accepted) = some s') : s'.socket = s.socket ∧ s'.outstanding = s.outstanding := by
  simp only [step, Option.ite_none_right_eq_some] at h
  obtain ⟨-, h⟩ := h
  unfold send at h
  split_ifs at h <;> cases h <;> exact ⟨rfl, rfl⟩

theorem onRead_frame (s : Session) (ec : Bool) (piece : Buffers.Bytes) :
    (s.onRead ec piece).socket = s.socket ∧
      ((s.onRead ec piece).outstanding = s.outstanding ∨ (s.onRead ec piece).outstanding = some .read) := by
  unfold onRead
  cases ec
  · cases hset : s.readCallback <;> exact ⟨rfl, .inr rfl⟩
  · exact ⟨rfl, .inl rfl⟩

theorem linked_step (x : Session × Bool) (a : Action) (x' : Session × Bool) (h : Linked x)
    (hs : watched x a = some x') : Linked x' := by
  obtain ⟨s, linked⟩ := x
  obtain ⟨s', hstep, rfl⟩ := Option.map_eq_some_iff.1 hs
  obtain ⟨hsocket, hpending⟩ := h
  cases a
  case setReadCallback isSet =>
    cases hstep
    exact ⟨hsocket, hpending⟩
  case start host port throws =>
    simp only [step, Option.ite_none_left_eq_some, Option.some.injEq] at hstep
    obtain ⟨-, rfl⟩ := hstep
    cases throws
    · exact ⟨by simp [start, Action.linked], fun _ => rfl⟩
    · exact ⟨hsocket, hpending⟩
  case connected ec =>
    simp only [step, complete, Option.ite_none_right_eq_some, Option.some.injEq] at hstep
    obtain ⟨hop, rfl⟩ := hstep
    cases ec
    · exact ⟨iff_of_true rfl rfl, fun hc => by cases hc⟩
    · -- While a connect is outstanding there is no connection to lose.
      have hnot := hpending hop
      subst hnot
      exact ⟨hsocket, fun _ => rfl⟩
  case read ec piece =>
    simp only [step, complete, Option.ite_none_right_eq_some, Option.some.injEq] at hstep
    obtain ⟨-, hop, rfl⟩ := hstep
    obtain ⟨hsame, hnext⟩ := onRead_frame { s with outstanding := none } ec piece
    constructor
    · rw [hsame]
      exact hsocket
    · intro hconnect
      rw [hconnect] at hnext
      rcases hnext with hn | hn <;> cases hn
  case send iStr accepted =>
    obtain ⟨hsame, hop⟩ := send_frame hstep
    constructor
    · rw [hsame]
      exact hsocket
    · rw [hop]
      exact hpending
  case reset =>
    simp only [step, Option.ite_none_right_eq_some, Option.some.injEq] at hstep
    obtain ⟨-, rfl⟩ := hstep
    exact ⟨by simp [Action.linked], fun _ => rfl⟩
  case close =>
    cases hstep
    refine ⟨iff_of_false ?_ Bool.false_ne_true, fun _ => rfl⟩
    unfold close
    cases hstate : s.socket <;> simp [hstate]

/-- Only a connected socket can be cancelled, shut down and closed. -/
theorem close_returns (s : Session) : s.close.1 = true ↔ s.socket = .connected := by
  unfold close
  cases s.socket <;> simp

end ComponentsNetwork.Socket.Session

namespace ComponentsNetwork.WebSocket

open Runs

/-- A stream that is open is closed, and one that is not is only left alone
while the flag has never been set. -/
theorem close_returns {x : Session × Contact} (h : Tracked x) (ok : Bool) :
    (x.1.close ok).1 = true ↔ x.2 = .none ∨ x.2 = .open ∧ ok = true := by
  cases hflag : x.1.isConnected with
  | false =>
    have hnone : x.2 = .none := by
      by_contra hk
      have hset := h.flag.2 hk
      rw [hflag] at hset
      cases hset
    simp [Session.close, hflag, hnone]
  | true =>
    have hmade := h.flag.1 hflag
    simp [Session.close, hflag, hmade, h.stream]

/-- `SecureSession` sets its flag in the handshake only. -/
theorem SecureSession.no_tcp (x : Session × Contact) (a : Action) (x' : Session × Contact) (h : x.2 ≠ .tcp)
    (hs : watched step x a = some x') : x'.2 ≠ .tcp := by
  obtain ⟨s', hstep, rfl⟩ := Option.map_eq_some_iff.1 hs
  cases a
  case connected ec port => cases hstep
  case handshaken ec =>
    cases ec
    · exact Contact.noConfusion
    · exact h
  case read ec appended =>
    cases ec
    · exact h
    · exact Contact.noConfusion
  case close ok =>
    show (if x.2 = .open then Contact.lost else x.2) ≠ .tcp
    split
    · exact Contact.noConfusion
    · exact h
  all_goals exact h

/-- In every state of every run of the three classes, what comes of `close`
and of the destructor. A `Session` returns if no TCP connection was made since
its construction or its last failed connect, or its WebSocket connection
stands open (and closes without an error); a `SecureSession` if it has not
lost a WebSocket connection; a socket session if it has a connection. -/
theorem close_returns_iff (acts : List Action) (socketActs : List Socket.Session.Action) (bufferData : Buffers.Bytes) :
    (∀ x, run (watched Session.step) start acts = some x → ∀ ok,
        ((x.1.close ok).1 = true ∧ x.1.destroy ok = true ↔ x.2 = .none ∨ x.2 = .open ∧ ok = true)) ∧
      (∀ x, run (watched SecureSession.step) start acts = some x → ∀ ok,
        ((SecureSession.close x.1 ok).1 = true ∧ SecureSession.destroy x.1 ok = true ↔
          x.2 ≠ .lost ∧ (x.2 = .open → ok = true))) ∧
      ∀ x, run Socket.Session.watched ({ bufferData }, false) socketActs = some x →
        (x.1.close.1 = true ∧ x.1.destroy = true ↔ x.2 = true) := by
  refine ⟨?_, ?_, ?_⟩
  · intro x hx ok
    rw [Session.destroy, and_self]
    exact close_returns (run_inv Session.tracked_step tracked_start hx) ok
  · intro x hx ok
    have htracked := run_inv SecureSession.tracked_step tracked_start hx
    have hno : x.2 ≠ .tcp := run_inv SecureSession.no_tcp (by simp [start]) hx
    rw [SecureSession.destroy, and_self, SecureSession.close, close_returns htracked ok]
    cases hk : x.2 <;> simp_all
  · intro x hx
    have hlinked : Socket.Session.Linked x := by
      refine run_inv Socket.Session.linked_step ?_ hx
      exact ⟨by simp, fun _ => rfl⟩
    rw [Socket.Session.destroy, and_self, Socket.Session.close_returns]
    exact hlinked.socket

/-- `close` throws after a handshake that failed, which ends a session, after
a peer that is gone, and on a socket session that was never started. -/
theorem close_throws :
    (∃ x, run (watched Session.step) start
        [.start "host" "80" false, .resolved false, .connected false 80, .handshaken true] = some x ∧
        x.1.outstanding = none ∧ (x.1.close true).1 = false ∧ x.1.destroy true = false) ∧
      (∃ x, run (watched SecureSession.step) start [.start "host" "443" false, .handshaken false, .read true []] = some x ∧
        (SecureSession.close x.1 true).1 = false ∧ SecureSession.destroy x.1 true = false) ∧
      Socket.Session.destroy { bufferData := [] } = false :=
  ⟨⟨_, rfl, rfl, rfl, rfl⟩, ⟨_, rfl, rfl, rfl⟩, rfl⟩

end ComponentsNetwork.WebSocket
