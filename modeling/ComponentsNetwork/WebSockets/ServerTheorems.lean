import ComponentsNetwork.WebSockets.Server
import Mathlib.Data.Finset.Lattice.Lemmas
/-!
# Connections at the end of `stop`

- `none_left_behind_iff`: `m_connections` is the set of open connections until
  `stop` is called, and each call of it leaves no connection behind, if and
  only if no connection that opens between the stages "Stop connections" and
  "Stop IO" is still open at the latter.
-/

namespace ComponentsNetwork.WebSockets.Server

open Runs

/-- The connections that had their open event and not their close event. -/
def live (s : Server) : Finset Nat := s.log.opened \ s.log.closed

/-- `m_connections` is exact until `stop` is called. -/
def Tracks (s : Server) : Prop := s.log.stopCalled = false → s.connections = s.live

/-- When `stop` returns no connection is left, and those open have been passed
to `m_server.close`. -/
def LeavesNone (_ : Server) (a : Action) (s' : Server) : Prop :=
  a = .stopIo → s'.connections = ∅ ∧ s'.live ⊆ s'.log.passedToClose

/-- The io service is stopped with every connection closed that opened since
`m_connections` was cleared. -/
def LateClosed (s : Server) (a : Action) : Prop := a = .stopIo → s.log.openedSince ⊆ s.log.closed

/-! ## What holds in every state -/

/-- Every connection is stored while it is open, unless it was passed to
`m_server.close`. -/
structure Inv (s : Server) : Prop where
  fresh : ∀ hdl ∈ s.handshaking, hdl < s.accepted ∧ hdl ∉ s.log.opened
  numbered : ∀ hdl ∈ s.log.opened, hdl < s.accepted
  closed_opened : s.log.closed ⊆ s.log.opened
  stored_live : s.connections ⊆ s.live
  live_stored : s.live ⊆ s.connections ∪ s.log.passedToClose
  not_passed : s.log.stopCalled = false → s.log.passedToClose = ∅ ∧ s.stopping = .no
  late : s.stopping = .connections → s.connections = s.log.openedSince \ s.log.closed

theorem inv_init : Inv {} := by
  constructor <;> simp [live]

theorem listen_frame (s : Server) (endpoint : Option Asio.Endpoint) (listenEc acceptEc : Bool) :
    (s.listen endpoint listenEc acceptEc).connections = s.connections ∧
      (s.listen endpoint listenEc acceptEc).log = s.log ∧
      (s.listen endpoint listenEc acceptEc).accepted = s.accepted ∧
      (s.listen endpoint listenEc acceptEc).handshaking = s.handshaking ∧
      (s.listen endpoint listenEc acceptEc).stopping = s.stopping := by
  unfold listen
  cases endpoint with
  | none => exact ⟨rfl, rfl, rfl, rfl, rfl⟩
  | some endpoint =>
    dsimp only
    repeat' split
    all_goals exact ⟨rfl, rfl, rfl, rfl, rfl⟩

theorem stopListener_frame (s : Server) :
    s.stopListener.connections = s.connections ∧ s.stopListener.log = s.log ∧ s.stopListener.accepted = s.accepted ∧
      s.stopListener.handshaking = s.handshaking := by
  unfold stopListener
  split <;> exact ⟨rfl, rfl, rfl, rfl⟩

theorem stopIo_frame (s : Server) :
    s.stopIo.connections = s.connections ∧ s.stopIo.log = s.log ∧ s.stopIo.accepted = s.accepted ∧
      s.stopIo.handshaking = s.handshaking := by
  unfold stopIo
  split <;> exact ⟨rfl, rfl, rfl, rfl⟩

theorem inv_frame {s t : Server} (h : Inv s) (hconnections : t.connections = s.connections) (hlog : t.log = s.log)
    (haccepted : t.accepted = s.accepted) (hhandshaking : t.handshaking = s.handshaking)
    (hstopping : t.stopping = s.stopping) : Inv t := by
  constructor
  · rw [hhandshaking, haccepted, hlog]
    exact h.fresh
  · rw [hlog, haccepted]
    exact h.numbered
  · rw [hlog]
    exact h.closed_opened
  · rw [live, hconnections, hlog]
    exact h.stored_live
  · rw [live, hconnections, hlog]
    exact h.live_stored
  · rw [hlog, hstopping]
    exact h.not_passed
  · rw [hstopping, hconnections, hlog]
    exact h.late

/-! ## One lemma per kind of step -/

theorem inv_stopListener {s : Server} (h : Inv s) :
    Inv { s.stopListener with stopping := .listener, log := { s.log with stopCalled := true } } := by
  have hstage : Inv { s with stopping := .listener, log := { s.log with stopCalled := true } } := by
    refine { h with not_passed := ?_, late := ?_ }
    · intro hcalled
      cases hcalled
    · intro hcleared
      cases hcleared
  obtain ⟨hconnections, -, haccepted, hhandshaking⟩ := stopListener_frame s
  exact inv_frame hstage hconnections rfl haccepted hhandshaking rfl

/-- What is taken out of `m_connections` has been passed to `close`. -/
theorem inv_stopConnections {s : Server} (h : Inv s) (hstage : s.stopping = .listener) :
    Inv { s.stopConnections with stopping := .connections } := by
  constructor
  · exact h.fresh
  · exact h.numbered
  · exact h.closed_opened
  · exact Finset.empty_subset _
  · show s.live ⊆ ∅ ∪ (s.log.passedToClose ∪ s.connections)
    rw [Finset.empty_union, Finset.union_comm]
    exact h.live_stored
  · intro hcalled
    have hno := (h.not_passed hcalled).2
    rw [hstage] at hno
    cases hno
  · intro _
    exact (Finset.empty_sdiff _).symm

theorem inv_stopIo {s : Server} (h : Inv s) (hstage : s.stopping = .connections) :
    Inv { s.stopIo with stopping := .no } := by
  have hreturned : Inv { s with stopping := .no } := by
    refine { h with not_passed := ?_, late := ?_ }
    · intro hcalled
      have hno := (h.not_passed hcalled).2
      rw [hstage] at hno
      cases hno
    · intro hno
      cases hno
  obtain ⟨hconnections, hlog, haccepted, hhandshaking⟩ := stopIo_frame s
  exact inv_frame hreturned hconnections hlog haccepted hhandshaking rfl

theorem inv_accepted {s : Server} (h : Inv s) :
    Inv { s with accepted := s.accepted + 1, handshaking := insert s.accepted s.handshaking } := by
  refine { h with fresh := ?_, numbered := ?_ }
  · intro hdl hmem
    rcases Finset.mem_insert.1 hmem with rfl | hold
    · exact ⟨Nat.lt_succ_self _, fun hopened => Nat.lt_irrefl _ (h.numbered _ hopened)⟩
    · obtain ⟨hlt, hnot⟩ := h.fresh hdl hold
      exact ⟨Nat.lt_succ_of_lt hlt, hnot⟩
  · intro hdl hopened
    exact Nat.lt_succ_of_lt (h.numbered hdl hopened)

/-- A connection that opens is stored, and has not been closed. -/
theorem inv_opened {s : Server} (h : Inv s) {hdl : Nat} (hmem : hdl ∈ s.handshaking) :
    Inv { s.openHandler hdl with
      handshaking := s.handshaking.erase hdl
      log := { s.log with opened := insert hdl s.log.opened, openedSince := insert hdl s.log.openedSince } } := by
  obtain ⟨hlt, hnot⟩ := h.fresh hdl hmem
  -- A handle is closed once it was open, and this one is new.
  have hclosed : hdl ∉ s.log.closed := fun hc => hnot (h.closed_opened hc)
  have hlive : insert hdl s.log.opened \ s.log.closed = insert hdl s.live := Finset.insert_sdiff_of_notMem _ hclosed
  constructor
  · intro other hother
    obtain ⟨hne, hold⟩ := Finset.mem_erase.1 hother
    obtain ⟨hlt', hnot'⟩ := h.fresh other hold
    refine ⟨hlt', ?_⟩
    intro hopened
    rcases Finset.mem_insert.1 hopened with he | ho
    · exact hne he
    · exact hnot' ho
  · intro other hopened
    rcases Finset.mem_insert.1 hopened with rfl | ho
    · exact hlt
    · exact h.numbered other ho
  · exact h.closed_opened.trans (Finset.subset_insert _ _)
  · show insert hdl s.connections ⊆ insert hdl s.log.opened \ s.log.closed
    rw [hlive]
    exact Finset.insert_subset_insert _ h.stored_live
  · show insert hdl s.log.opened \ s.log.closed ⊆ insert hdl s.connections ∪ s.log.passedToClose
    rw [hlive, Finset.insert_union]
    exact Finset.insert_subset_insert _ h.live_stored
  · exact h.not_passed
  · intro hstage
    show insert hdl s.connections = insert hdl s.log.openedSince \ s.log.closed
    rw [Finset.insert_sdiff_of_notMem _ hclosed]
    exact congrArg (insert hdl) (h.late hstage)

theorem inv_failed {s : Server} (h : Inv s) (hdl : Nat) : Inv { s with handshaking := s.handshaking.erase hdl } :=
  { h with fresh := fun other hother => h.fresh other (Finset.mem_of_mem_erase hother) }

theorem inv_closed {s : Server} (h : Inv s) {hdl : Nat} (hmem : hdl ∈ s.live) :
    Inv { s.closeHandler hdl with log := { s.log with closed := insert hdl s.log.closed } } := by
  have hlive : s.log.opened \ insert hdl s.log.closed = s.live.erase hdl := Finset.sdiff_insert _ _ _
  constructor
  · exact h.fresh
  · exact h.numbered
  · exact Finset.insert_subset (Finset.mem_sdiff.1 hmem).1 h.closed_opened
  · show s.connections.erase hdl ⊆ s.log.opened \ insert hdl s.log.closed
    rw [hlive]
    exact Finset.erase_subset_erase _ h.stored_live
  · show s.log.opened \ insert hdl s.log.closed ⊆ s.connections.erase hdl ∪ s.log.passedToClose
    rw [hlive]
    refine (Finset.erase_subset_erase hdl h.live_stored).trans ?_
    rw [Finset.erase_union_distrib]
    exact Finset.union_subset_union_right (Finset.erase_subset _ _)
  · exact h.not_passed
  · intro hstage
    show s.connections.erase hdl = s.log.openedSince \ insert hdl s.log.closed
    rw [Finset.sdiff_insert]
    exact congrArg (Finset.erase · hdl) (h.late hstage)

theorem inv_step (s : Server) (a : Action) (s' : Server) (h : Inv s) (hs : step s a = some s') : Inv s' := by
  cases a <;> simp only [step, Option.ite_none_right_eq_some, Option.some.injEq] at hs <;> obtain ⟨hg, rfl⟩ := hs
  case listen endpoint listenEc acceptEc =>
    obtain ⟨hconnections, hlog, haccepted, hhandshaking, hstopping⟩ := listen_frame s endpoint listenEc acceptEc
    exact inv_frame h hconnections hlog haccepted hhandshaking hstopping
  case stopListener => exact inv_stopListener h
  case stopConnections => exact inv_stopConnections h hg
  case stopIo => exact inv_stopIo h hg
  case accepted => exact inv_accepted h
  case opened hdl => exact inv_opened h hg.2
  case failed hdl => exact inv_failed h hdl
  case closed hdl => exact inv_closed h hg.2
  case runReturns => exact inv_frame h rfl rfl rfl rfl rfl

/-! ## The end of `stop` -/

theorem tracks_of_inv {s : Server} (h : Inv s) : Tracks s := by
  intro hcalled
  have hpassed := (h.not_passed hcalled).1
  have hstored := h.live_stored
  rw [hpassed, Finset.union_empty] at hstored
  exact Finset.Subset.antisymm h.stored_live hstored

theorem leavesNone_iff {s : Server} (h : Inv s) {a : Action} {s' : Server} (hs : step s a = some s') :
    LeavesNone s a s' ↔ LateClosed s a := by
  unfold LeavesNone LateClosed
  apply forall_congr'
  rintro rfl
  simp only [step, Option.ite_none_right_eq_some, Option.some.injEq] at hs
  obtain ⟨hstage, rfl⟩ := hs
  obtain ⟨hconnections, hlog, -, -⟩ := stopIo_frame s
  -- What is left was opened too late for the stage before to see it.
  have hleft := h.late hstage
  constructor
  · rintro ⟨hempty, -⟩
    rw [← Finset.sdiff_eq_empty_iff_subset, ← hleft, ← hconnections]
    exact hempty
  · intro hclosed
    have hempty : s.connections = ∅ := by
      rw [hleft]
      exact Finset.sdiff_eq_empty_iff_subset.2 hclosed
    refine ⟨hconnections.trans hempty, ?_⟩
    have hstored := h.live_stored
    rw [hempty, Finset.empty_union] at hstored
    rw [live, hlog]
    exact hstored

/-- In every run, `m_connections` is exact until `stop` is called; and no call
of `stop` leaves a connection behind exactly if each connection that opens
after the stage that closes them is closed before the io service is stopped. -/
theorem none_left_behind_iff (as : List Action) :
    (Always step Tracks {} as ∧ EachStep step LeavesNone {} as) ↔ Meets step LateClosed {} as := by
  have htracks : Always step Tracks {} as := by
    refine ⟨tracks_of_inv inv_init, ?_⟩
    refine eachStep_of_meets (J := Inv) (C := fun _ _ => True) ?_ ?_ inv_init (eachStep_true _ as)
    · intro s a s' h _ hs
      exact tracks_of_inv (inv_step s a s' h hs)
    · intro s a s' h _ hs
      exact inv_step s a s' h hs
  rw [and_iff_right htracks]
  apply eachStep_iff (J := Inv) (C := LateClosed)
  · intro s a s' h hs
    exact leavesNone_iff h hs
  · intro s a s' h _ hs
    exact inv_step s a s' h hs
  · exact inv_init

instance (s : Server) (a : Action) (s' : Server) : Decidable (LeavesNone s a s') :=
  inferInstanceAs (Decidable (_ → _))

/-- A client whose handshake ends between the last two stages of `stop`. -/
def lateClient : List Action :=
  [.listen (some {}) false false, .accepted, .stopListener, .stopConnections, .opened 0, .stopIo]

/-- It is never closed. -/
theorem late_client_left :
    (run step {} lateClient).map (fun s => (s.connections, s.log.passedToClose)) = some ({0}, ∅) ∧
      ¬ EachStep step LeavesNone {} lateClient := by decide

end ComponentsNetwork.WebSockets.Server
