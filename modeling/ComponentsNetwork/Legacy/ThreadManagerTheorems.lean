import ComponentsNetwork.Legacy.ThreadManager
/-!
# The tables of the thread manager

- `tables_consistent`: in every reachable state the two tables have the same
  keys, each of a worker that goes by it, and no more of them than the limit;
  and each call does to them what it is meant to, `onFinished` with entries
  that are there.
-/

namespace ComponentsNetwork.Legacy

open Runs

/-- The id a worker has, or will have once its queued call has run. -/
def ConnectionWorker.Reports (w : ConnectionWorker) (id : UInt64) : Prop :=
  w.queued = some id ∨ w.queued = none ∧ w.getId = id

namespace ThreadManager

/-! ## What the calls are meant to do -/

/-- Two tables in step, within the limit. -/
structure Consistent (s : ThreadManager) : Prop where
  keys : ∀ id, id ∈ s.workers ↔ id ∈ s.threads
  reports : ∀ id k, s.workers.lookup id = some k → ∃ w, s.made[k]? = some w ∧ w.Reports id
  limit : s.workers.size ≤ s.maximumThreadCount.toInt
  available : 0 ≤ s.availableThreads ∧ s.availableThreads ≤ s.maximumThreadCount.toInt

/-- A connection is rejected exactly at the limit. Below it there are ids that
are no key, and the first of them drawn becomes the key of the new worker and
its thread; until one is drawn the call does not return. -/
structure CreatesFresh (s : ThreadManager) : Prop where
  rejects : ∀ draws s', s.createConnection draws = some (false, s') ↔
    s.workers.size ≥ s.maximumThreadCount.toInt ∧ s' = s
  fresh : s.workers.size < s.maximumThreadCount.toInt → ∃ id, id ∉ s.workers
  returns : ∀ draws, s.workers.size < s.maximumThreadCount.toInt →
    ((∃ s', s.createConnection draws = some (true, s')) ↔ ∃ id ∈ draws, id ∉ s.workers)
  adds : ∀ draws s', s.createConnection draws = some (true, s') →
    ∃ id ∈ draws, id ∉ s.workers ∧ id ∉ s.threads ∧ s'.workers = s.workers.insert id s.made.length ∧
      s'.threads = s.threads.insert id s.made.length ∧ s'.made = s.made ++ [{ queued := some id }] ∧
      s'.maximumThreadCount = s.maximumThreadCount

/-- The end of a worker can be handled, and takes out the entries of that
worker and of its thread. -/
def FinishesOwn (s : ThreadManager) : Prop :=
  ∀ k, s.Working k → ∃ id s', s.workers.lookup id = some k ∧ s.threads.lookup id = some k ∧
    step s (.onFinished k) = some s' ∧ s'.workers = s.workers.erase id ∧ s'.threads = s.threads.erase id ∧
    s'.maximumThreadCount = s.maximumThreadCount

/-- The limit changes only while there is no worker, and never below zero. -/
def CountsIdle (s : ThreadManager) : Prop :=
  ∀ newCount, ((s.setThreadCount newCount).1 = true ↔ s.workers = ∅ ∧ 0 ≤ newCount.toInt) ∧
    (s.setThreadCount newCount).2 =
      if (s.setThreadCount newCount).1 then { s with maximumThreadCount := newCount } else s

/-! ## Ids -/

/-- There are more ids than workers. -/
theorem exists_fresh {workers : Table} {limit : Int32} (h : workers.size < limit.toInt) : ∃ id, id ∉ workers := by
  by_contra hall
  simp only [not_exists, not_not] at hall
  have hlimit := limit.toInt_lt
  have hsize : workers.keys.length < 2 ^ 31 := by
    unfold Table.size at h
    omega
  -- The limit is below 2 ^ 31, so one of the first ids is free.
  let ids := (List.range (workers.keys.length + 1)).map UInt64.ofNat
  have hlt : ∀ i ∈ List.range (workers.keys.length + 1), i < UInt64.size := by
    intro i hi
    exact Nat.lt_of_lt_of_le (List.mem_range.1 hi) (Nat.le_trans hsize (by decide))
  have hnodup : ids.Nodup := by
    refine List.Nodup.map_on ?_ List.nodup_range
    intro i hi j hj hij
    have hval := congrArg UInt64.toNat hij
    rw [UInt64.toNat_ofNat_of_lt' (hlt i hi), UInt64.toNat_ofNat_of_lt' (hlt j hj)] at hval
    exact hval
  have hsub : ids ⊆ workers.keys := fun id _ => AList.mem_keys.1 (hall id)
  have hle := (List.subperm_of_subset hnodup hsub).length_le
  simp only [ids, List.length_map, List.length_range] at hle
  omega

theorem drawId_eq_some {workers : Table} {draws : List UInt64} {id : UInt64} (h : drawId workers draws = some id) :
    id ∈ draws ∧ id ∉ workers := by
  induction draws with
  | nil => cases h
  | cons d draws ih =>
    unfold drawId at h
    split at h
    · obtain ⟨hmem, hfresh⟩ := ih h
      exact ⟨List.mem_cons_of_mem _ hmem, hfresh⟩
    · next hfresh =>
      cases h
      exact ⟨List.mem_cons_self, hfresh⟩

theorem drawId_isSome_iff {workers : Table} {draws : List UInt64} :
    (∃ id, drawId workers draws = some id) ↔ ∃ id ∈ draws, id ∉ workers := by
  constructor
  · rintro ⟨id, h⟩
    exact ⟨id, drawId_eq_some h⟩
  · intro h
    induction draws with
    | nil => simp at h
    | cons d draws ih =>
      unfold drawId
      split
      · next htaken =>
        refine ih ?_
        obtain ⟨id, hmem, hfresh⟩ := h
        rcases List.mem_cons.1 hmem with rfl | hmem
        · exact absurd htaken hfresh
        · exact ⟨id, hmem, hfresh⟩
      · exact ⟨d, rfl⟩

/-! ## The calls in any state -/

theorem createsFresh (s : ThreadManager) (hkeys : ∀ id, id ∈ s.workers ↔ id ∈ s.threads) : CreatesFresh s := by
  constructor
  · intro draws s'
    unfold createConnection
    split
    · next hfull => simp [hfull, eq_comm]
    · next hroom => simp [hroom]
  · exact exists_fresh
  · intro draws hroom
    rw [createConnection, if_neg (Int.not_le.2 hroom), ← drawId_isSome_iff]
    cases drawId s.workers draws <;> simp
  · intro draws s' h
    unfold createConnection at h
    split at h
    · cases h
    · obtain ⟨id, hid, he⟩ := Option.map_eq_some_iff.1 h
      cases he
      obtain ⟨hmem, hfresh⟩ := drawId_eq_some hid
      exact ⟨id, hmem, hfresh, fun hthread => hfresh ((hkeys id).2 hthread), rfl, rfl, rfl, rfl⟩

theorem size_eq_zero_iff (t : Table) : t.size = 0 ↔ t = ∅ := by
  constructor
  · intro h
    apply AList.ext
    have hkeys : t.keys = [] := List.length_eq_zero_iff.1 (Int.ofNat_eq_zero.1 h)
    exact List.map_eq_nil_iff.1 hkeys
  · rintro rfl
    rfl

theorem size_nonneg (t : Table) : 0 ≤ t.size := Int.natCast_nonneg _

theorem countsIdle (s : ThreadManager) : CountsIdle s := by
  intro newCount
  have hsize := size_nonneg s.workers
  unfold setThreadCount
  split
  · next hbusy =>
    refine ⟨iff_of_false Bool.false_ne_true ?_, rfl⟩
    rintro ⟨hnone, hcount⟩
    rw [← size_eq_zero_iff] at hnone
    omega
  · next hidle =>
    refine ⟨iff_of_true rfl ⟨?_, by omega⟩, rfl⟩
    rw [← size_eq_zero_iff]
    omega

/-! ## What holds in every state -/

/-- The tables are the same, as a worker and its thread have one number. A
worker that has not finished is in them under the id it goes by, and nobody
else is. -/
structure Inv (s : ThreadManager) : Prop where
  same : s.threads = s.workers
  reports : ∀ id k, s.workers.lookup id = some k → ∃ w, s.made[k]? = some w ∧ w.Reports id
  stored : ∀ k w id, s.made[k]? = some w → w.finished = false → w.Reports id → s.workers.lookup id = some k
  limit : s.workers.size ≤ s.maximumThreadCount.toInt

theorem inv_construct (idealThreadCount : Int32) : Inv (construct idealThreadCount) := by
  have hempty : Inv {} := by
    constructor
    · rfl
    · intro id k h
      cases h
    · intro k w id h
      simp at h
    · decide
  unfold construct
  obtain ⟨hchanged, hresult⟩ := countsIdle {} idealThreadCount
  rw [hresult]
  split
  · next htrue => exact { hempty with limit := (hchanged.1 htrue).2 }
  · exact hempty

theorem reports_unique {w : ConnectionWorker} {id id' : UInt64} (h : w.Reports id) (h' : w.Reports id') : id = id' := by
  rcases h with h | ⟨h, rfl⟩ <;> rcases h' with h' | ⟨h', rfl⟩
  · rw [h] at h'
    exact Option.some.inj h'
  · rw [h] at h'
    cases h'
  · rw [h] at h'
    cases h'
  · rfl

/-- A fresh key makes the tables longer by one, and is of the new worker. -/
theorem inv_add {s : ThreadManager} (h : Inv s) {id : UInt64} (hfresh : id ∉ s.workers)
    (hroom : s.workers.size < s.maximumThreadCount.toInt) :
    Inv { s with
      workers := s.workers.insert id s.made.length
      threads := s.threads.insert id s.made.length
      made := s.made ++ [{ queued := some id }] } := by
  constructor
  · show s.threads.insert id _ = s.workers.insert id _
    rw [h.same]
  · intro id' k hlookup
    by_cases hid : id' = id
    · subst hid
      rw [AList.lookup_insert] at hlookup
      cases hlookup
      exact ⟨_, List.getElem?_concat_length, .inl rfl⟩
    · rw [AList.lookup_insert_ne hid] at hlookup
      obtain ⟨w, hw, hreports⟩ := h.reports id' k hlookup
      refine ⟨w, ?_, hreports⟩
      rw [List.getElem?_append_left (List.getElem?_eq_some_iff.1 hw).1]
      exact hw
  · intro k w id' hw hfinished hreports
    rcases getElem?_concat hw with hold | ⟨rfl, rfl⟩
    · -- A worker made before is under a key that was taken.
      have hlookup := h.stored k w id' hold hfinished hreports
      have hid : id' ≠ id := by
        rintro rfl
        exact hfresh (AList.lookup_isSome.1 (by rw [hlookup]; rfl))
      show (s.workers.insert id _).lookup id' = some k
      rw [AList.lookup_insert_ne hid]
      exact hlookup
    · cases reports_unique hreports (.inl rfl)
      exact AList.lookup_insert _
  · show Table.size (s.workers.insert id _) ≤ s.maximumThreadCount.toInt
    rw [Table.size, AList.keys_insert, List.erase_of_not_mem hfresh, List.length_cons]
    unfold Table.size at hroom
    omega

/-- The queued call gives a worker the id it was to have. -/
theorem reports_setConnection {w : ConnectionWorker} {id : UInt64} (h : w.queued = some id) (id' : UInt64) :
    (w.setConnection id).Reports id' ↔ w.Reports id' := by
  simp [ConnectionWorker.Reports, ConnectionWorker.setConnection, ConnectionWorker.getId, h]

theorem inv_setConnection {s : ThreadManager} (h : Inv s) {k : Nat} {w : ConnectionWorker} {id : UInt64}
    (hw : s.made[k]? = some w) (hqueued : w.queued = some id) :
    Inv { s with made := s.made.set k (w.setConnection id) } := by
  obtain ⟨hk, -⟩ := List.getElem?_eq_some_iff.1 hw
  refine { h with reports := ?_, stored := ?_ }
  · intro id' k' hlookup
    obtain ⟨w', hw', hreports⟩ := h.reports id' k' hlookup
    by_cases hkk : k = k'
    · subst hkk
      cases hw.symm.trans hw'
      exact ⟨_, List.getElem?_set_self hk, (reports_setConnection hqueued id').2 hreports⟩
    · exact ⟨w', (List.getElem?_set_ne hkk).trans hw', hreports⟩
  · intro k' w' id' hw' hfinished hreports
    by_cases hkk : k = k'
    · subst hkk
      cases (List.getElem?_set_self hk).symm.trans hw'
      exact h.stored k w id' hw hfinished ((reports_setConnection hqueued id').1 hreports)
    · exact h.stored k' w' id' ((List.getElem?_set_ne hkk).symm.trans hw') hfinished hreports

/-- The entries of a worker that is working are under the id it reports. -/
theorem lookup_working {s : ThreadManager} (h : Inv s) {k : Nat} {w : ConnectionWorker} (hw : s.made[k]? = some w)
    (hqueued : w.queued = none) (hfinished : w.finished = false) : s.workers.lookup w.getId = some k :=
  h.stored k w w.getId hw hfinished (.inr ⟨hqueued, rfl⟩)

/-- Both look-ups find an entry. -/
theorem onFinished_stored {s : ThreadManager} {k i j : Nat} {w : ConnectionWorker} (hw : s.made[k]? = some w)
    (hthreads : s.threads.lookup w.getId = some i) (hworkers : s.workers.lookup w.getId = some j) :
    s.onFinished k = some { s with threads := s.threads.erase w.getId, workers := s.workers.erase w.getId } := by
  simp [onFinished, hw, hthreads, hworkers]

theorem onFinished_working {s : ThreadManager} (h : Inv s) {k : Nat} {w : ConnectionWorker} (hw : s.made[k]? = some w)
    (hqueued : w.queued = none) (hfinished : w.finished = false) :
    step s (.onFinished k) = some
      { s with
        made := s.made.set k { w with finished := true }
        threads := s.threads.erase w.getId
        workers := s.workers.erase w.getId } := by
  have hlookup := lookup_working h hw hqueued hfinished
  obtain ⟨hk, -⟩ := List.getElem?_eq_some_iff.1 hw
  have hthreads : s.threads.lookup w.getId = some k := by
    rw [h.same]
    exact hlookup
  show (s.made[k]?.bind fun w => if w.queued = none ∧ w.finished = false then _ else none) = _
  rw [hw, Option.bind_some, if_pos ⟨hqueued, hfinished⟩]
  exact onFinished_stored (w := { w with finished := true }) (List.getElem?_set_self hk) hthreads hlookup

theorem inv_onFinished {s : ThreadManager} (h : Inv s) {k : Nat} {w : ConnectionWorker} (hw : s.made[k]? = some w)
    (hqueued : w.queued = none) (hfinished : w.finished = false) :
    Inv { s with
      made := s.made.set k { w with finished := true }
      threads := s.threads.erase w.getId
      workers := s.workers.erase w.getId } := by
  have hlookup := lookup_working h hw hqueued hfinished
  constructor
  · show s.threads.erase _ = s.workers.erase _
    rw [h.same]
  · intro id k' hkept
    have hid : id ≠ w.getId := by
      rintro rfl
      rw [AList.lookup_erase] at hkept
      cases hkept
    rw [AList.lookup_erase_ne hid] at hkept
    obtain ⟨w', hw', hreports⟩ := h.reports id k' hkept
    have hkk : k ≠ k' := by
      rintro rfl
      cases hw.symm.trans hw'
      exact hid (reports_unique hreports (.inr ⟨hqueued, rfl⟩))
    exact ⟨w', (List.getElem?_set_ne hkk).trans hw', hreports⟩
  · intro k' w' id hw' hunfinished hreports
    have hkk : k ≠ k' := by
      rintro rfl
      obtain ⟨hk, -⟩ := List.getElem?_eq_some_iff.1 hw
      cases (List.getElem?_set_self hk).symm.trans hw'
      cases hunfinished
    have hkept := h.stored k' w' id ((List.getElem?_set_ne hkk).symm.trans hw') hunfinished hreports
    -- Nobody else is under the id that is erased.
    have hid : id ≠ w.getId := by
      rintro rfl
      exact hkk (Option.some.inj (hlookup.symm.trans hkept))
    show (s.workers.erase _).lookup id = some k'
    rw [AList.lookup_erase_ne hid]
    exact hkept
  · have hlimit := h.limit
    have hle := (s.workers.keys.erase_sublist (a := w.getId)).length_le
    show Table.size (s.workers.erase _) ≤ s.maximumThreadCount.toInt
    rw [Table.size, AList.keys_erase]
    unfold Table.size at hlimit
    omega

theorem inv_step (s : ThreadManager) (a : Action) (s' : ThreadManager) (h : Inv s) (hs : step s a = some s') :
    Inv s' := by
  cases a with
  | createConnection draws =>
    obtain ⟨⟨accepted, t⟩, hcreate, rfl⟩ := Option.map_eq_some_iff.1 hs
    unfold createConnection at hcreate
    split at hcreate
    · cases hcreate
      exact h
    · next hroom =>
      obtain ⟨id, hid, he⟩ := Option.map_eq_some_iff.1 hcreate
      cases he
      exact inv_add h (drawId_eq_some hid).2 (Int.not_le.1 hroom)
  | setConnection k =>
    obtain ⟨w, hw, hs⟩ := Option.bind_eq_some_iff.1 hs
    obtain ⟨id, hqueued, hs⟩ := Option.bind_eq_some_iff.1 hs
    cases hs
    exact inv_setConnection h hw hqueued
  | onFinished k =>
    obtain ⟨w, hw, hwork⟩ := Option.bind_eq_some_iff.1 hs
    obtain ⟨⟨hqueued, hfinished⟩, -⟩ := Option.ite_none_right_eq_some.1 hwork
    cases hs.symm.trans (onFinished_working h hw hqueued hfinished)
    exact inv_onFinished h hw hqueued hfinished
  | setThreadCount newCount =>
    cases hs
    obtain ⟨hchanged, hresult⟩ := countsIdle s newCount
    rw [hresult]
    split
    · next htrue =>
      obtain ⟨hnone, hcount⟩ := hchanged.1 htrue
      refine { h with limit := ?_ }
      show s.workers.size ≤ newCount.toInt
      rw [(size_eq_zero_iff _).2 hnone]
      exact hcount
    · exact h

/-! ## Every reachable state -/

theorem consistent_of_inv {s : ThreadManager} (h : Inv s) : Consistent s := by
  constructor
  · intro id
    rw [h.same]
  · exact h.reports
  · exact h.limit
  · have hsize := size_nonneg s.workers
    have hlimit := h.limit
    unfold availableThreads
    omega

theorem finishesOwn_of_inv {s : ThreadManager} (h : Inv s) : FinishesOwn s := by
  rintro k ⟨w, hw, hqueued, hfinished⟩
  have hlookup := lookup_working h hw hqueued hfinished
  refine ⟨w.getId, _, hlookup, ?_, onFinished_working h hw hqueued hfinished, rfl, rfl, rfl⟩
  rw [h.same]
  exact hlookup

/-- In every state reached from construction by calls of the manager, ends of
workers and the queued calls between them, whatever ids are drawn: the tables
are consistent, and the calls do with them what they are meant to. -/
theorem tables_consistent (idealThreadCount : Int32) (acts : List Action) (s : ThreadManager)
    (h : run step (construct idealThreadCount) acts = some s) :
    Consistent s ∧ CreatesFresh s ∧ FinishesOwn s ∧ CountsIdle s := by
  have hinv := run_inv inv_step (inv_construct idealThreadCount) h
  have hconsistent := consistent_of_inv hinv
  exact ⟨hconsistent, createsFresh s hconsistent.keys, finishesOwn_of_inv hinv, countsIdle s⟩

/-- Two workers on a limit of two, the first id drawn twice, and the first
worker gone. -/
theorem tables_consistent_two :
    ∃ s, run step (construct 2) [.createConnection [7], .createConnection [7, 9], .setConnection 0, .onFinished 0] =
        some s ∧ s.workers.keys = [9] ∧ Consistent s ∧ CreatesFresh s ∧ FinishesOwn s ∧ CountsIdle s :=
  ⟨_, rfl, rfl,
    tables_consistent 2 [.createConnection [7], .createConnection [7, 9], .setConnection 0, .onFinished 0] _ rfl⟩

end ThreadManager

end ComponentsNetwork.Legacy
