import ComponentsNetwork.Legacy.TcpServerTheorems
import ComponentsNetwork.Legacy.ThreadManagerTheorems
/-!
# The slots of the TCP servers

`slots_kept` counts the steps of a run against the tables of the manager: a
connection taken holds one slot until its end, which can always come, and one
is rejected exactly where all slots are held.
-/

namespace ComponentsNetwork.Legacy

theorem ThreadManager.size_insert {t : Table} {id : UInt64} {k : Nat} (h : id ∉ t) :
    Table.size (t.insert id k) = t.size + 1 := by
  rw [Table.size, AList.keys_insert, List.erase_of_not_mem h, List.length_cons]
  exact Int.natCast_succ _

theorem ThreadManager.size_erase {t : Table} {id : UInt64} (h : id ∈ t) :
    Table.size (t.erase id) = t.size - 1 := by
  have hpos := List.length_pos_of_mem (AList.mem_keys.1 h)
  rw [Table.size, AList.keys_erase, List.length_erase_of_mem (AList.mem_keys.1 h), Table.size]
  omega

namespace Servers

open Runs Exchange

variable {c : Codec}

/-- How many connections were offered. -/
def offered (as : List Action) : Nat := as.countP fun | .incomingConnection .. => true | _ => false

/-- How many workers have ended. -/
def ended (as : List Action) : Nat := as.countP fun | .onDisconnect _ => true | _ => false

/-- How often worker `k` has ended. -/
def ends (k : Nat) (as : List Action) : Nat := as.countP fun | .onDisconnect j => j = k | _ => false

/-- Connections taken that have not ended. -/
def inUse (s : Servers) (as : List Action) : Int := s.links.length - ended as

/-- A connection offered is taken or rejected. One that was taken ends once at
most, and until then it can. They never are more than the limit, and one is
rejected exactly where they are as many. -/
structure Slots (c : Codec) (as : List Action) (s : Servers) : Prop where
  offered : s.links.length + s.rejected = offered as
  once : ∀ k, ends k as ≤ 1 ∧ (ends k as = 1 → k < s.links.length)
  canEnd : ∀ k, k < s.links.length → ends k as = 0 →
    (∃ s', step c s (.onDisconnect k) = some s') ∨ ∃ s', run (step c) s [.setConnection k, .onDisconnect k] = some s'
  limit : s.inUse as ≤ s.manager.maximumThreadCount.toInt
  rejects : ∀ i draws s', step c s (.incomingConnection i draws) = some s' →
    if s.inUse as = s.manager.maximumThreadCount.toInt then s'.links = s.links ∧ s'.rejected = s.rejected + 1
    else s'.links = s.links ++ [({} : Link)] ∧ s'.rejected = s.rejected

/-- Worker `k` has finished. -/
def finished (m : ThreadManager) (k : Nat) : Bool := m.made[k]?.any (·.finished)

/-- The workers made are those in the table and those that have finished. -/
def Balanced (m : ThreadManager) : Prop := m.workers.size + (m.made.countP (·.finished) : Nat) = m.made.length

/-- The tables of the manager against the steps taken. -/
structure Tallied (s : Servers) (as : List Action) : Prop where
  inv : ThreadManager.Inv s.manager
  made : s.manager.made.length = s.links.length
  balanced : Balanced s.manager
  offered : s.links.length + s.rejected = offered as
  ended : ended as = s.manager.made.countP (·.finished)
  ends : ∀ k, ends k as = if finished s.manager k then 1 else 0

theorem counts_quiet {a : Action} (h : Quiet a) (as : List Action) :
    offered (as ++ [a]) = offered as ∧ ended (as ++ [a]) = ended as ∧ ∀ k, ends k (as ++ [a]) = ends k as := by
  cases a with
  | incomingConnection i draws => exact absurd rfl (h.1 i draws)
  | onDisconnect k => exact absurd rfl (h.2 k)
  | _ => simp [offered, ended, ends]

theorem quiet_of_onLink {a : Action} {x : Nat × Exchange.Action} (h : onLink a = some x) : Quiet a := by
  constructor
  · rintro i draws rfl
    cases h
  · rintro k rfl
    cases h

/-- A step that offers nothing and ends nothing, and lets nobody finish. -/
theorem tallied_quiet {s s' : Servers} {as : List Action} {a : Action} (hi : Tallied s as) (hq : Quiet a)
    (hinv : ThreadManager.Inv s'.manager) (hworkers : s'.manager.workers = s.manager.workers)
    (hlength : s'.manager.made.length = s.manager.made.length)
    (hcount : s'.manager.made.countP (·.finished) = s.manager.made.countP (·.finished))
    (hfinished : ∀ k, finished s'.manager k = finished s.manager k) (hlinks : s'.links.length = s.links.length)
    (hrejected : s'.rejected = s.rejected) : Tallied s' (as ++ [a]) := by
  obtain ⟨hoffered, hended, hends⟩ := counts_quiet hq as
  constructor
  · exact hinv
  · rw [hlength, hlinks, hi.made]
  · have hbalanced := hi.balanced
    unfold Balanced at hbalanced ⊢
    rwa [hworkers, hcount, hlength]
  · rw [hoffered, hlinks, hrejected, hi.offered]
  · rw [hended, hcount, hi.ended]
  · intro k
    rw [hends, hfinished, hi.ends]

theorem finished_set {m : ThreadManager} {k : Nat} {w w' : ConnectionWorker} (hw : m.made[k]? = some w) (j : Nat) :
    finished { m with made := m.made.set k w' } j = if k = j then w'.finished else finished m j := by
  obtain ⟨hk, -⟩ := List.getElem?_eq_some_iff.1 hw
  unfold finished
  rw [List.getElem?_set]
  split
  · next hj =>
    subst hj
    simp
  · rfl

theorem countP_made_set {m : ThreadManager} {k : Nat} {w v : ConnectionWorker} (hw : m.made[k]? = some w) :
    (m.made.set k v).countP (·.finished) + (if w.finished then 1 else 0) =
      m.made.countP (·.finished) + if v.finished then 1 else 0 := by
  obtain ⟨hk, he⟩ := List.getElem?_eq_some_iff.1 hw
  have hle := List.boole_getElem_le_countP (p := fun w => w.finished) hk
  rw [List.countP_set hk, he]
  rw [he] at hle
  omega

theorem createsFresh_of_tallied {s : Servers} {as : List Action} (hi : Tallied s as) :
    ThreadManager.CreatesFresh s.manager :=
  ThreadManager.createsFresh s.manager (fun id => by rw [hi.inv.same])

theorem tallied_connected {s : Servers} {as : List Action} (hi : Tallied s as) {k : Nat} {manager : ThreadManager}
    (h : ThreadManager.step s.manager (.setConnection k) = some manager) :
    Tallied { s with manager } (as ++ [.setConnection k]) := by
  have hinv := ThreadManager.inv_step _ _ _ hi.inv h
  obtain ⟨w, hw, h⟩ := Option.bind_eq_some_iff.1 h
  obtain ⟨id, -, h⟩ := Option.bind_eq_some_iff.1 h
  cases h
  have hsame : (w.setConnection id).finished = w.finished := rfl
  refine tallied_quiet hi (by simp [Quiet]) hinv rfl List.length_set ?_ ?_ rfl rfl
  · have hcount := countP_made_set (v := w.setConnection id) hw
    rw [hsame] at hcount
    exact Nat.add_right_cancel hcount
  · intro j
    rw [finished_set hw, hsame]
    split
    · next hj =>
      subst hj
      simp [finished, hw]
    · rfl

theorem tallied_refused {s : Servers} {as : List Action} (hi : Tallied s as) (i : Nat) {draws : List UInt64}
    {manager : ThreadManager} (h : s.manager.createConnection draws = some (false, manager)) :
    Tallied { s with manager, rejected := s.rejected + 1 } (as ++ [.incomingConnection i draws]) := by
  obtain ⟨-, rfl⟩ := ((createsFresh_of_tallied hi).rejects _ _).1 h
  refine ⟨hi.inv, hi.made, hi.balanced, ?_, ?_, ?_⟩
  · have hoffered := hi.offered
    simp only [offered, List.countP_append, List.countP_singleton] at hoffered ⊢
    simp only [if_true]
    omega
  · simpa [ended] using hi.ended
  · simpa [ends] using hi.ends

theorem tallied_created {s : Servers} {as : List Action} (hi : Tallied s as) (i : Nat) {draws : List UInt64}
    {manager : ThreadManager} (h : s.manager.createConnection draws = some (true, manager)) :
    Tallied { s with manager, links := s.links ++ [{}] } (as ++ [.incomingConnection i draws]) := by
  have hstep : ThreadManager.step s.manager (.createConnection draws) = some manager := by
    show (s.manager.createConnection draws).map Prod.snd = some manager
    rw [h]
    rfl
  obtain ⟨id, -, hnot, -, hworkers, -, hmade, -⟩ := (createsFresh_of_tallied hi).adds _ _ h
  have hfinished : ∀ k, finished manager k = finished s.manager k := by
    intro k
    unfold finished
    rw [hmade]
    refine getElem?_concat_of (f := fun o => o.any (·.finished)) ?_ s.manager.made k
    rfl
  refine ⟨ThreadManager.inv_step _ _ _ hi.inv hstep, ?_, ?_, ?_, ?_, ?_⟩
  · simp [hmade, hi.made]
  · have hbalanced := hi.balanced
    unfold Balanced at hbalanced ⊢
    rw [hworkers, hmade, ThreadManager.size_insert hnot]
    simp
    omega
  · have hoffered := hi.offered
    simp only [offered, List.countP_append, List.countP_singleton, List.length_append, List.length_singleton]
      at hoffered ⊢
    simp only [if_true]
    omega
  · simpa [ended, hmade] using hi.ended
  · intro k
    simpa [ends, hfinished] using hi.ends k

theorem tallied_finished {s : Servers} {as : List Action} (hi : Tallied s as) {k : Nat} {manager : ThreadManager}
    (h : ThreadManager.step s.manager (.onFinished k) = some manager) :
    Tallied { s with manager } (as ++ [.onDisconnect k]) := by
  have hinv := ThreadManager.inv_step _ _ _ hi.inv h
  obtain ⟨w, hw, hwork⟩ := Option.bind_eq_some_iff.1 h
  obtain ⟨⟨hqueued, hunfinished⟩, -⟩ := Option.ite_none_right_eq_some.1 hwork
  cases h.symm.trans (ThreadManager.onFinished_working hi.inv hw hqueued hunfinished)
  have hlookup := ThreadManager.lookup_working hi.inv hw hqueued hunfinished
  have hstored : w.getId ∈ s.manager.workers := AList.lookup_isSome.1 (by rw [hlookup]; rfl)
  have hcount := countP_made_set (v := { w with finished := true }) hw
  rw [hunfinished] at hcount
  simp only [Bool.false_eq_true, if_false, if_true, Nat.add_zero] at hcount
  refine ⟨hinv, ?_, ?_, ?_, ?_, ?_⟩
  · simp [hi.made]
  · have hbalanced := hi.balanced
    unfold Balanced at hbalanced ⊢
    dsimp only
    rw [hcount, List.length_set, ThreadManager.size_erase hstored]
    omega
  · simpa [offered] using hi.offered
  · dsimp only
    rw [hcount, ← hi.ended]
    simp [ended]
  · intro j
    have hends := hi.ends j
    show ends j (as ++ [.onDisconnect k]) =
      if finished { s.manager with made := s.manager.made.set k { w with finished := true } } j then 1 else 0
    rw [finished_set hw]
    by_cases hj : k = j
    · subst hj
      -- The worker had not ended before.
      have hbefore : finished s.manager k = false := by simp [finished, hw, hunfinished]
      rw [hbefore] at hends
      simp [ends] at hends ⊢
      exact hends
    · simpa [ends, hj] using hends

theorem tallied_step (s : Servers) (as : List Action) (a : Action) (s' : Servers) (hi : Tallied s as)
    (hs : step c s a = some s') : Tallied s' (as ++ [a]) := by
  cases (step_effect hs).2 with
  | exchanged hon hlink hstep =>
    exact tallied_quiet hi (quiet_of_onLink hon) hi.inv rfl rfl rfl (fun _ => rfl) List.length_set rfl
  | kept _ hmanager hlinks hrejected hq =>
    exact tallied_quiet hi hq (hmanager ▸ hi.inv) (by rw [hmanager]) (by rw [hmanager]) (by rw [hmanager])
      (fun k => by rw [hmanager]) (by rw [hlinks]) hrejected
  | created hcreates => exact tallied_created hi _ hcreates
  | refused hrejects => exact tallied_refused hi _ hrejects
  | connected hstep => exact tallied_connected hi hstep
  | finished hstep => exact tallied_finished hi hstep
  | @counted newCount =>
    obtain ⟨-, hresult⟩ := ThreadManager.countsIdle s.manager newCount
    have hinv := ThreadManager.inv_step _ (.setThreadCount newCount) _ hi.inv rfl
    refine tallied_quiet hi (by simp [Quiet]) hinv ?_ ?_ ?_ ?_ rfl rfl
    all_goals
      dsimp only
      rw [hresult]
      split <;> simp [finished]

theorem tallied_start (idealThreadCount : Int32) : Tallied (start idealThreadCount) [] := by
  have hmade : (ThreadManager.construct idealThreadCount).made = [] ∧
      (ThreadManager.construct idealThreadCount).workers = ∅ := by
    unfold ThreadManager.construct ThreadManager.setThreadCount
    split <;> exact ⟨rfl, rfl⟩
  obtain ⟨hmade, hworkers⟩ := hmade
  refine ⟨ThreadManager.inv_construct idealThreadCount, ?_, ?_, rfl, ?_, ?_⟩
  · simp [start, hmade]
  · simp only [Balanced, start, hmade, hworkers]
    rfl
  · simp [ended, start, hmade]
  · simp [ends, finished, start, hmade]

theorem inUse_eq {s : Servers} {as : List Action} (hi : Tallied s as) : s.inUse as = s.manager.workers.size := by
  have hbalanced := hi.balanced
  unfold Balanced at hbalanced
  rw [inUse, hi.ended, ← hi.made]
  omega

theorem step_setConnection (s : Servers) (k : Nat) : step c s (.setConnection k) =
    (ThreadManager.step s.manager (.setConnection k)).map fun manager => { s with manager } := rfl

theorem step_onDisconnect (s : Servers) (k : Nat) : step c s (.onDisconnect k) =
    (ThreadManager.step s.manager (.onFinished k)).map fun manager => { s with manager } := rfl

/-- A worker that has its connection and has not finished can finish. -/
theorem onDisconnect_working {s : Servers} (hi : ThreadManager.Inv s.manager) {k : Nat} {w : ConnectionWorker}
    (hw : s.manager.made[k]? = some w) (hqueued : w.queued = none) (hfinished : w.finished = false) :
    ∃ s', step c s (.onDisconnect k) = some s' := by
  rw [step_onDisconnect, ThreadManager.onFinished_working hi hw hqueued hfinished]
  exact ⟨_, rfl⟩

theorem canEnd_of_tallied {s : Servers} {as : List Action} (hi : Tallied s as) {k : Nat} (hk : k < s.links.length)
    (hends : ends k as = 0) :
    (∃ s', step c s (.onDisconnect k) = some s') ∨ ∃ s', run (step c) s [.setConnection k, .onDisconnect k] = some s' := by
  obtain ⟨w, hw⟩ : ∃ w, s.manager.made[k]? = some w := ⟨_, List.getElem?_eq_getElem (hi.made ▸ hk)⟩
  have hfinished : w.finished = false := by
    have hcount := hi.ends k
    rw [hends] at hcount
    simpa [finished, hw] using hcount.symm
  cases hqueued : w.queued with
  | none => exact .inl (onDisconnect_working hi.inv hw hqueued hfinished)
  | some id =>
    right
    have hconnected : ThreadManager.step s.manager (.setConnection k) =
        some { s.manager with made := s.manager.made.set k (w.setConnection id) } := by
      simp [ThreadManager.step, hw, hqueued]
    rw [run_cons, step_setConnection, hconnected]
    obtain ⟨hlt, -⟩ := List.getElem?_eq_some_iff.1 hw
    obtain ⟨s', hs'⟩ := onDisconnect_working (c := c)
      (s := { s with manager := { s.manager with made := s.manager.made.set k (w.setConnection id) } })
      (ThreadManager.inv_setConnection hi.inv hw hqueued) (List.getElem?_set_self hlt) rfl hfinished
    refine ⟨s', ?_⟩
    rw [Option.map_some, Option.bind_some, run_cons, hs']
    rfl

theorem slots_of_tallied {s : Servers} {as : List Action} (hi : Tallied s as) : Slots c as s := by
  have hsize := inUse_eq hi
  have hfresh := createsFresh_of_tallied hi
  refine ⟨hi.offered, fun k => ?_, fun k => canEnd_of_tallied hi, ?_, fun i draws s' hs => ?_⟩
  · rw [hi.ends k]
    cases hfinished : finished s.manager k with
    | false => simp
    | true =>
      refine ⟨Nat.le_refl _, fun _ => ?_⟩
      rw [← hi.made]
      unfold finished at hfinished
      by_contra hk
      rw [List.getElem?_eq_none (Nat.not_lt.1 hk)] at hfinished
      cases hfinished
  · rw [hsize]
    exact hi.inv.limit
  · have hlimit := hi.inv.limit
    rw [hsize]
    cases (step_effect hs).2 with
    | exchanged hon => cases hon
    | kept _ _ _ _ hq => exact absurd rfl (hq.1 i draws)
    | refused hrejects =>
      obtain ⟨hfull, -⟩ := (hfresh.rejects _ _).1 hrejects
      rw [if_pos (Int.le_antisymm hlimit hfull)]
      exact ⟨rfl, rfl⟩
    | created hcreates =>
      have hroom : ¬ s.manager.workers.size = s.manager.maximumThreadCount.toInt := by
        intro hfull
        have hrejects := (hfresh.rejects draws s.manager).2 ⟨Int.le_of_eq hfull.symm, rfl⟩
        cases hrejects.symm.trans hcreates
      rw [if_neg hroom]
      exact ⟨rfl, rfl⟩

/-- In every run of the servers, whatever ids are drawn and in whatever order
connections are offered, set up, used and ended: a connection taken holds one
slot until its end. The end comes at most once and can always come, and a
connection is rejected exactly where as many as the limit have not ended. -/
theorem slots_kept (idealThreadCount : Int32) (as : List Action) (s : Servers)
    (hs : run (step c) (start idealThreadCount) as = some s) : Slots c as s :=
  slots_of_tallied (run_history (tallied_start idealThreadCount) tallied_step hs)

/-- One slot: the second connection is rejected, the third is taken after the
first has ended. -/
theorem slots_kept_one :
    ∃ s, run (step archiveCodec) (start 1) [.incomingConnection 0 [7], .incomingConnection 0 [9], .setConnection 0,
        .onDisconnect 0, .incomingConnection 0 [7]] = some s ∧ s.links.length = 2 ∧ s.rejected = 1 ∧
      Slots archiveCodec [.incomingConnection 0 [7], .incomingConnection 0 [9], .setConnection 0, .onDisconnect 0,
        .incomingConnection 0 [7]] s :=
  ⟨_, rfl, rfl, rfl, slots_kept 1 _ _ rfl⟩

end Servers

end ComponentsNetwork.Legacy
