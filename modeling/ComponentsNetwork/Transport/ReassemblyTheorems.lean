import ComponentsNetwork.Lib.Reassembly
import ComponentsNetwork.Transport.ConnectionSession
import ComponentsNetwork.Transport.PacketTheorems
import Mathlib.Data.List.Induction
/-!
# Reassembly by a transport session

A session is a collector of subpackets (`Lib/Reassembly.lean`): `process`
keeps the subpackets of a message in the message's closure until the last one
comes, hands the message over and drops the entry.

- `reassembles`: for messages with different guids, whose subpackets come in
  any order, the callback is called once for each message, when its last
  subpacket comes, and the map has the entries of the other messages only.
-/

namespace ComponentsNetwork.TransportLevel.ConnectionSession

open Buffers Chunks Numerals TransportPacket Reassembly

variable {c : Codec} {σ : Sorter TransportPacket subPacketNo}

/-! ## Messages -/

/-- A message: its subpackets, in the order of their numbers, and the packet
that their payloads decode to. -/
structure Message (c : Codec) where
  guid : Bytes
  parts : List TransportPacket
  inner : Serialized
  parts_ne_nil : parts ≠ []
  numbered : parts.map subPacketNo = List.range parts.length
  guid_of_mem : ∀ p ∈ parts, p.guid = guid
  total_of_mem : ∀ p ∈ parts, p.subPacketTotalCount = parts.length
  decodes : ∀ q : TransportPacket, q.fromString c (joined parts) = (true, q.load inner)
  inner_guid : inner.guid = guid

namespace Message

def payload (m : Message c) : Bytes := m.inner.payload

/-- All its subpackets are among `ps`. -/
def complete (m : Message c) (ps : List TransportPacket) : Bool := m.parts.all fun p => p ∈ ps

theorem complete_iff {m : Message c} {ps : List TransportPacket} : m.complete ps = true ↔ m.parts ⊆ ps := by
  simp only [complete, List.all_eq_true, decide_eq_true_eq]
  exact Iff.rfl

theorem parts_nodup (m : Message c) : m.parts.Nodup := by
  apply List.Nodup.of_map subPacketNo
  rw [m.numbered]
  exact List.nodup_range

theorem total_pos {m : Message c} {p : TransportPacket} (h : p ∈ m.parts) : 0 < p.subPacketTotalCount := by
  rw [m.total_of_mem p h]
  exact List.length_pos_iff.2 m.parts_ne_nil

/-- The message of a packet that is split without loss. -/
def ofPacket (hc : c.Lawful) (p : TransportPacket)
    (h : ¬ (0 < (p.toString c).length ∧ MAX_PACKET_SIZE_B ∣ (p.toString c).length)) : Message c where
  guid := p.guid
  parts := p.subpackets c
  inner := p.serialized
  parts_ne_nil := by
    apply List.length_pos_iff.1
    rw [length_subpackets]
    exact Nat.succ_pos _
  numbered := subpackets_numbers p
  guid_of_mem sp hsp := (mem_subpackets hsp).2.1
  total_of_mem sp hsp := by rw [(mem_subpackets hsp).2.2.2.1, length_subpackets]
  decodes q := by rw [joined_subpackets_eq h, fromString_toString hc]
  inner_guid := rfl

end Message

/-- The subpackets of the messages arrive, each once, in some order, with
tokens the session accepts. -/
structure Arrives (messages : List (Message c)) (tokenList : List Bytes)
    (arrivals : List (TransportPacket × Option Bytes)) : Prop where
  guids : (messages.map Message.guid).Nodup
  each_once : (arrivals.map Prod.fst).Perm (messages.flatMap Message.parts)
  accepted : ∀ a ∈ arrivals, a.1.token ∈ tokenList

section Arrivals

variable {messages : List (Message c)} {tokenList : List Bytes} {arrivals : List (TransportPacket × Option Bytes)}

theorem partsOf_arrivals (h : Arrives messages tokenList arrivals) {m : Message c} (hm : m ∈ messages) :
    (partsOf guid m.guid (arrivals.map Prod.fst)).Perm m.parts := by
  have hown := partsOf_flatMap h.guids (fun m _ p hp => m.guid_of_mem p hp) hm
  exact (h.each_once.filter _).trans (List.Perm.of_eq hown)

/-- A subpacket belongs to one message. -/
theorem message_unique (h : Arrives messages tokenList arrivals) {m m' : Message c} (hm : m ∈ messages)
    (hm' : m' ∈ messages) {p : TransportPacket} (hp : p ∈ m.parts) (hp' : p ∈ m'.parts) : m = m' :=
  List.inj_on_of_nodup_map h.guids hm hm' ((m.guid_of_mem p hp).symm.trans (m'.guid_of_mem p hp'))

theorem total_eq (h : Arrives messages tokenList arrivals) {m : Message c} (hm : m ∈ messages) {p : TransportPacket}
    (hp : p ∈ m.parts) : p.subPacketTotalCount = (partsOf guid p.guid (arrivals.map Prod.fst)).length := by
  rw [m.guid_of_mem p hp, (partsOf_arrivals h hm).length_eq, m.total_of_mem p hp]

/-- A message is complete once as many of its subpackets have come as it has. -/
theorem complete_iff_length (h : Arrives messages tokenList arrivals) {m : Message c} (hm : m ∈ messages)
    {pre : List TransportPacket} (hpre : pre <+: arrivals.map Prod.fst) :
    m.complete pre = true ↔
      ¬ (partsOf guid m.guid pre).length < (partsOf guid m.guid (arrivals.map Prod.fst)).length := by
  rw [Message.complete_iff]
  constructor
  · intro hsub hlt
    have hsub' : m.parts ⊆ partsOf guid m.guid pre := by
      intro p hp
      refine List.mem_filter.2 ⟨hsub hp, ?_⟩
      simp [m.guid_of_mem p hp]
    have hle := List.Nodup.length_le_of_subset m.parts_nodup hsub'
    rw [(partsOf_arrivals h hm).length_eq] at hlt
    omega
  · intro hlen p hp
    have hall := (partsOf_arrivals h hm).mem_iff.2 hp
    rw [← partsOf_eq_of_length hpre hlen] at hall
    exact (List.mem_filter.1 hall).1

end Arrivals

/-! ## One subpacket -/

/-- The session's map as a collector's table. -/
def table (s : ConnectionSession) (g : Bytes) : List TransportPacket := (s.subPacketsMap g).getD []

/-- A change of one entry of the map is that of the table's list, and leaves
no empty list stored. -/
theorem table_update {s s' : ConnectionSession} {g₀ : Bytes} {entry : Option (List TransportPacket)}
    (h : s'.subPacketsMap = Function.update s.subPacketsMap g₀ entry) (hentry : entry ≠ some [])
    (hne : ∀ g, s.subPacketsMap g ≠ some []) :
    s'.table = Function.update s.table g₀ (entry.getD []) ∧ ∀ g, s'.subPacketsMap g ≠ some [] := by
  constructor
  · funext g
    unfold table
    rw [h]
    by_cases hg : g = g₀
    · subst hg
      simp
    · simp [Function.update_of_ne hg]
  · intro g
    rw [h]
    by_cases hg : g = g₀
    · subst hg
      rw [Function.update_self]
      exact hentry
    · rw [Function.update_of_ne hg]
      exact hne g

theorem writes_calls (s : ConnectionSession) (strs : List Bytes) :
    (strs.foldl writeSocket s).log.calls = s.log.calls ∧ (strs.foldl writeSocket s).subPacketsMap = s.subPacketsMap ∧
      (strs.foldl writeSocket s).tokenList = s.tokenList := by
  induction strs generalizing s with
  | nil => exact ⟨rfl, rfl, rfl⟩
  | cons str strs ih => exact ih (s.writeSocket str)

theorem answer_calls (s : ConnectionSession) (p : TransportPacket) (reply : Option Bytes) :
    (s.answer c p reply).log.calls = s.log.calls ++ [p.payload] ∧ (s.answer c p reply).subPacketsMap = s.subPacketsMap ∧
      (s.answer c p reply).tokenList = s.tokenList := by
  unfold answer
  cases reply with
  | none => exact ⟨rfl, rfl, rfl⟩
  | some output => exact writes_calls _ _

theorem process_waits {s : ConnectionSession} {p : TransportPacket} (ht : p.token ∈ s.tokenList)
    (hpos : 0 < p.subPacketTotalCount) (hw : (s.table p.guid ++ [p]).length < p.subPacketTotalCount)
    (reply : Option Bytes) :
    s.process c σ p reply =
      { s with subPacketsMap := Function.update s.subPacketsMap p.guid (some (s.table p.guid ++ [p])) } := by
  unfold table at hw
  unfold process processSubpacket table
  simp only [ht, not_true_eq_false, if_false, hpos, if_true, hw]

/-- What the last subpacket of a family is once `fromSubpackets` has read the
family into it, to the end or not. -/
def rebuilt (c : Codec) (σ : Sorter TransportPacket subPacketNo) (family : List TransportPacket)
    (p : TransportPacket) : TransportPacket :=
  (p.fromSubpackets c σ family).1.2

/-- The last subpacket of a family: the callback gets what was rebuilt, and
the entry of the guid that was rebuilt is dropped. -/
theorem process_last {s : ConnectionSession} {p : TransportPacket} (ht : p.token ∈ s.tokenList)
    (hpos : 0 < p.subPacketTotalCount) (hw : ¬ (s.table p.guid ++ [p]).length < p.subPacketTotalCount)
    (reply : Option Bytes) :
    (s.process c σ p reply).subPacketsMap =
        Function.update (Function.update s.subPacketsMap p.guid (some (σ.sort (s.table p.guid ++ [p]))))
          (rebuilt c σ (s.table p.guid ++ [p]) p).guid none ∧
      (s.process c σ p reply).log.calls = s.log.calls ++ [(rebuilt c σ (s.table p.guid ++ [p]) p).payload] ∧
      (s.process c σ p reply).tokenList = s.tokenList := by
  unfold table at hw ⊢
  unfold process processSubpacket
  simp only [ht, not_true_eq_false, if_false, hpos, if_true, hw]
  refine ⟨?_, ?_, ?_⟩
  · exact (answer_calls _ _ _).2.1
  · exact (answer_calls _ _ _).1
  · exact (answer_calls _ _ _).2.2

theorem process_completes {s : ConnectionSession} {p : TransportPacket} {f : Serialized} (ht : p.token ∈ s.tokenList)
    (hpos : 0 < p.subPacketTotalCount) (hw : ¬ (s.table p.guid ++ [p]).length < p.subPacketTotalCount)
    (hf : p.fromString c (joined (σ.sort (s.table p.guid ++ [p]))) = (true, p.load f)) (hg : f.guid = p.guid)
    (reply : Option Bytes) :
    (s.process c σ p reply).subPacketsMap = Function.update s.subPacketsMap p.guid none ∧
      (s.process c σ p reply).log.calls = s.log.calls ++ [f.payload] ∧
      (s.process c σ p reply).tokenList = s.tokenList := by
  have hrebuilt : rebuilt c σ (s.table p.guid ++ [p]) p = p.load f := by
    unfold rebuilt fromSubpackets
    dsimp only
    rw [hf]
  obtain ⟨hmap, hcalls, htokens⟩ := process_last (c := c) (σ := σ) ht hpos hw reply
  rw [hrebuilt] at hmap hcalls
  refine ⟨hmap.trans ?_, hcalls, htokens⟩
  dsimp only [load]
  rw [hg, Function.update_idem]

/-! ## Runs -/

/-- The session once packets have been processed, each with what the callback
would return. -/
def processAll (c : Codec) (σ : Sorter TransportPacket subPacketNo) (s : ConnectionSession)
    (arrivals : List (TransportPacket × Option Bytes)) : ConnectionSession :=
  arrivals.foldl (fun s a => s.process c σ a.1 a.2) s

@[simp] theorem processAll_concat (s : ConnectionSession) (pre : List (TransportPacket × Option Bytes))
    (a : TransportPacket × Option Bytes) :
    processAll c σ s (pre ++ [a]) = (processAll c σ s pre).process c σ a.1 a.2 := by
  simp [processAll, List.foldl_append]

/-- The session keeps what a collector keeps of the subpackets so far. -/
def Collecting (tokenList : List Bytes) (all pre : List TransportPacket) (s : ConnectionSession) : Prop :=
  Collected guid all pre s.table ∧ (∀ g, s.subPacketsMap g ≠ some []) ∧ s.tokenList = tokenList

section Runs

variable {messages : List (Message c)} {arrivals : List (TransportPacket × Option Bytes)} {s₀ : ConnectionSession}

/-- One subpacket: the session stays a collector, and the callback is called
exactly if the subpacket is the last of its message. -/
theorem collecting_step (h : Arrives messages s₀.tokenList arrivals) {s : ConnectionSession}
    {pre post : List (TransportPacket × Option Bytes)} {a : TransportPacket × Option Bytes}
    (ha : arrivals = pre ++ a :: post) {m : Message c} (hm : m ∈ messages) (hp : a.1 ∈ m.parts)
    (hs : Collecting s₀.tokenList (arrivals.map Prod.fst) (pre.map Prod.fst) s) :
    Collecting s₀.tokenList (arrivals.map Prod.fst) ((pre ++ [a]).map Prod.fst) (s.process c σ a.1 a.2) ∧
      (s.process c σ a.1 a.2).log.calls =
        s.log.calls ++ if m.complete ((pre ++ [a]).map Prod.fst) then [m.payload] else [] := by
  obtain ⟨p, reply⟩ := a
  obtain ⟨hcol, hne, htokens⟩ := hs
  have hall : arrivals.map Prod.fst = pre.map Prod.fst ++ p :: post.map Prod.fst := by simp [ha]
  have htok : p.token ∈ s.tokenList := htokens ▸ h.accepted (p, reply) (by simp [ha])
  have hpos := Message.total_pos hp
  have htotal := total_eq h hm hp
  have hpre : pre.map Prod.fst ++ [p] <+: arrivals.map Prod.fst := ⟨post.map Prod.fst, by simp [hall]⟩
  have hcomplete := complete_iff_length h hm hpre
  rw [← m.guid_of_mem p hp] at hcomplete
  rw [hall] at hcol htotal hcomplete
  -- What the collector does with the subpacket.
  have hnext := collected_next hcol
  have hcollected := collect_collected hcol htotal
  have hmap : (pre ++ [(p, reply)]).map Prod.fst = pre.map Prod.fst ++ [p] := by simp
  rw [hmap, hall]
  by_cases hw : (s.table p.guid ++ [p]).length < p.subPacketTotalCount
  · have hno : ¬ m.complete (pre.map Prod.fst ++ [p]) = true := by
      rw [hcomplete, partsOf_concat_self, ← hnext, ← htotal]
      exact fun hge => hge hw
    rw [process_waits htok hpos hw, if_neg hno]
    have hnewmap : ({ s with
        subPacketsMap := Function.update s.subPacketsMap p.guid (some (s.table p.guid ++ [p])) } :
          ConnectionSession).subPacketsMap = Function.update s.subPacketsMap p.guid (some (s.table p.guid ++ [p])) := rfl
    obtain ⟨htable, hstored⟩ := table_update hnewmap (by simp) hne
    have hcollect : (collect guid subPacketTotalCount s.table p).1 =
        Function.update s.table p.guid (s.table p.guid ++ [p]) := by
      unfold collect
      simp only [hw, if_true]
    refine ⟨⟨?_, hstored, htokens⟩, (List.append_nil _).symm⟩
    rw [htable, Option.getD_some, ← hcollect]
    exact hcollected
  · have hyes : m.complete (pre.map Prod.fst ++ [p]) = true := by
      rw [hcomplete, partsOf_concat_self, ← hnext, ← htotal]
      exact hw
    have hperm : (s.table p.guid ++ [p]).Perm m.parts := by
      rw [hnext, ← partsOf_concat_self]
      refine List.Perm.trans (List.Perm.of_eq (partsOf_eq_of_length (hall ▸ hpre) (hcomplete.1 hyes))) ?_
      rw [← hall, m.guid_of_mem p hp]
      exact partsOf_arrivals h hm
    have hdecode : p.fromString c (joined (σ.sort (s.table p.guid ++ [p]))) = (true, p.load m.inner) := by
      rw [σ.sort_numbered m.numbered hperm]
      exact m.decodes p
    obtain ⟨hnewmap, hcalls, hnewtokens⟩ :=
      process_completes htok hpos hw hdecode (m.inner_guid.trans (m.guid_of_mem p hp).symm) reply
    rw [hcalls, if_pos hyes]
    obtain ⟨htable, hstored⟩ := table_update hnewmap (by simp) hne
    have hcollect : (collect guid subPacketTotalCount s.table p).1 = Function.update s.table p.guid [] := by
      unfold collect
      simp only [hw, if_false]
    refine ⟨⟨?_, hstored, hnewtokens.trans htokens⟩, rfl⟩
    rw [htable, Option.getD_none, ← hcollect]
    exact hcollected

theorem owner (h : Arrives messages s₀.tokenList arrivals) {p : TransportPacket} (hp : p ∈ arrivals.map Prod.fst) :
    ∃ m ∈ messages, p ∈ m.parts :=
  List.mem_flatMap.1 (h.each_once.mem_iff.1 hp)

theorem collecting_run (h : Arrives messages s₀.tokenList arrivals) (hempty : ∀ g, s₀.subPacketsMap g = none)
    {pre post : List (TransportPacket × Option Bytes)} (ha : arrivals = pre ++ post) :
    Collecting s₀.tokenList (arrivals.map Prod.fst) (pre.map Prod.fst) (processAll c σ s₀ pre) := by
  induction pre using List.reverseRecOn generalizing post with
  | nil =>
    have htable : s₀.table = fun _ => [] := by
      funext g
      simp [table, hempty]
    refine ⟨?_, fun g => by simp [processAll, hempty], rfl⟩
    show Collected guid _ [] s₀.table
    rw [htable]
    exact collected_nil _
  | append_singleton pre a ih =>
    have ha' : arrivals = pre ++ a :: post := by simpa using ha
    obtain ⟨m, hm, hp⟩ := owner h (p := a.1) (by simp [ha'])
    rw [processAll_concat]
    exact (collecting_step h ha' hm hp (ih ha')).1

/-- The completing subpacket of a message makes it, and no other, complete. -/
theorem complete_concat (h : Arrives messages s₀.tokenList arrivals)
    {pre : List (TransportPacket × Option Bytes)} {a : TransportPacket × Option Bytes} {m : Message c}
    (hm : m ∈ messages) (hp : a.1 ∈ m.parts) {m' : Message c} (hm' : m' ∈ messages) :
    m'.complete ((pre ++ [a]).map Prod.fst) = true ↔
      m'.complete (pre.map Prod.fst) = true ∨ m' = m ∧ m.complete ((pre ++ [a]).map Prod.fst) = true := by
  rw [Message.complete_iff, Message.complete_iff, Message.complete_iff]
  have hmap : (pre ++ [a]).map Prod.fst = pre.map Prod.fst ++ [a.1] := by simp
  rw [hmap]
  constructor
  · intro hsub
    by_cases he : m' = m
    · exact .inr ⟨he, he ▸ hsub⟩
    · left
      intro p hp'
      rcases List.mem_append.1 (hsub hp') with hmem | hmem
      · exact hmem
      · rw [List.mem_singleton] at hmem
        exact absurd (message_unique h hm' hm hp' (hmem ▸ hp)) he
  · rintro (hsub | ⟨rfl, hsub⟩)
    · exact fun p hp' => List.mem_append_left _ (hsub hp')
    · exact hsub

/-- Before a subpacket of it arrives, its message is not complete. -/
theorem not_complete_before (h : Arrives messages s₀.tokenList arrivals)
    {pre post : List (TransportPacket × Option Bytes)} {a : TransportPacket × Option Bytes}
    (ha : arrivals = pre ++ a :: post) {m : Message c} (hm : m ∈ messages) (hp : a.1 ∈ m.parts) :
    ¬ m.complete (pre.map Prod.fst) = true := by
  have hall : arrivals.map Prod.fst = pre.map Prod.fst ++ a.1 :: post.map Prod.fst := by simp [ha]
  rw [complete_iff_length h hm ⟨a.1 :: post.map Prod.fst, hall.symm⟩, hall, ← m.guid_of_mem a.1 hp, partsOf_append,
    partsOf_cons_self, List.length_append, List.length_cons]
  omega

/-- The complete messages after a subpacket: those before, and its own if it
is the last of it. -/
theorem completed_concat (h : Arrives messages s₀.tokenList arrivals)
    {pre post : List (TransportPacket × Option Bytes)} {a : TransportPacket × Option Bytes}
    (ha : arrivals = pre ++ a :: post) {m : Message c} (hm : m ∈ messages) (hp : a.1 ∈ m.parts) :
    (messages.filter fun m' => m'.complete ((pre ++ [a]).map Prod.fst)).Perm
      ((messages.filter fun m' => m'.complete (pre.map Prod.fst)) ++
        if m.complete ((pre ++ [a]).map Prod.fst) then [m] else []) := by
  have hnodup : messages.Nodup := List.Nodup.of_map _ h.guids
  have hbefore := not_complete_before h ha hm hp
  by_cases hc : m.complete ((pre ++ [a]).map Prod.fst) = true
  · rw [if_pos hc]
    refine (List.perm_ext_iff_of_nodup (hnodup.filter _) ?_).2 fun m' => ?_
    · refine List.nodup_append.2 ⟨hnodup.filter _, List.nodup_singleton _, ?_⟩
      intro x hx y hy he
      rw [he, List.mem_singleton.1 hy] at hx
      exact hbefore (List.mem_filter.1 hx).2
    · rw [List.mem_append, List.mem_singleton, List.mem_filter, List.mem_filter]
      constructor
      · rintro ⟨hm', hc'⟩
        rcases (complete_concat h hm hp hm').1 hc' with hold | ⟨he, -⟩
        · exact .inl ⟨hm', hold⟩
        · exact .inr he
      · rintro (⟨hm', hold⟩ | rfl)
        · exact ⟨hm', (complete_concat h hm hp hm').2 (.inl hold)⟩
        · exact ⟨hm, hc⟩
  · rw [if_neg hc, List.append_nil]
    apply List.Perm.of_eq
    apply List.filter_congr
    intro m' hm'
    rw [Bool.eq_iff_iff, complete_concat h hm hp hm']
    exact ⟨fun ho => ho.elim id fun he => absurd he.2 hc, .inl⟩

/-- After every part of a run the callback has been called once for each
message that is complete. -/
theorem calls_run (h : Arrives messages s₀.tokenList arrivals) (hempty : ∀ g, s₀.subPacketsMap g = none)
    {pre post : List (TransportPacket × Option Bytes)} (ha : arrivals = pre ++ post) :
    (processAll c σ s₀ pre).log.calls.Perm
      (s₀.log.calls ++ (messages.filter fun m => m.complete (pre.map Prod.fst)).map Message.payload) := by
  induction pre using List.reverseRecOn generalizing post with
  | nil =>
    have hnone : messages.filter (fun m => m.complete []) = [] := by
      apply List.filter_eq_nil_iff.2
      intro m _ hc
      exact m.parts_ne_nil (List.subset_nil.1 (Message.complete_iff.1 hc))
    simp [processAll, hnone]
  | append_singleton pre a ih =>
    have ha' : arrivals = pre ++ a :: post := by simpa using ha
    obtain ⟨m, hm, hp⟩ := owner h (p := a.1) (by simp [ha'])
    have hcalls := (collecting_step (σ := σ) h ha' hm hp (collecting_run (σ := σ) h hempty ha')).2
    have hcompleted := (completed_concat h ha' hm hp).map Message.payload
    rw [List.map_append (f := Message.payload)] at hcompleted
    rw [processAll_concat, hcalls]
    refine ((ih ha').append_right _).trans ?_
    rw [List.append_assoc]
    apply List.Perm.append_left
    refine List.Perm.trans (List.Perm.of_eq ?_) hcompleted.symm
    split <;> rfl

end Runs

/-- What a session does with the subpackets of messages that arrive in some
order: it calls the callback for a message exactly when its last subpacket
comes, once for each message, with its payload; and after every subpacket the
map has no entry for a message that is complete, and for one that is not it
has what has come of it. -/
structure Reassembled (c : Codec) (σ : Sorter TransportPacket subPacketNo) (messages : List (Message c))
    (s₀ : ConnectionSession) (arrivals : List (TransportPacket × Option Bytes)) : Prop where
  called : ∀ pre a post, arrivals = pre ++ a :: post → ∀ m ∈ messages, a.1 ∈ m.parts →
    (processAll c σ s₀ (pre ++ [a])).log.calls =
      (processAll c σ s₀ pre).log.calls ++ if m.complete ((pre ++ [a]).map Prod.fst) then [m.payload] else []
  once : (processAll c σ s₀ arrivals).log.calls.Perm (s₀.log.calls ++ messages.map Message.payload)
  complete_entry : ∀ pre post, arrivals = pre ++ post → ∀ m ∈ messages, m.complete (pre.map Prod.fst) = true →
    (processAll c σ s₀ pre).subPacketsMap m.guid = none
  incomplete_entry : ∀ pre post, arrivals = pre ++ post → ∀ m ∈ messages, ¬ m.complete (pre.map Prod.fst) = true →
    ((processAll c σ s₀ pre).subPacketsMap m.guid).getD [] = (pre.map Prod.fst).filter (· ∈ m.parts)

theorem reassembles (messages : List (Message c)) (s₀ : ConnectionSession)
    (arrivals : List (TransportPacket × Option Bytes)) (hempty : ∀ g, s₀.subPacketsMap g = none)
    (h : Arrives messages s₀.tokenList arrivals) : Reassembled c σ messages s₀ arrivals where
  called pre a post ha m hm hp := by
    rw [processAll_concat]
    exact (collecting_step h ha hm hp (collecting_run h hempty ha)).2
  once := by
    have hall : messages.filter (fun m => m.complete (arrivals.map Prod.fst)) = messages := by
      apply List.filter_eq_self.2
      intro m hm
      apply Message.complete_iff.2
      intro p hp
      exact h.each_once.mem_iff.2 (List.mem_flatMap.2 ⟨m, hm, hp⟩)
    have hcalls : (processAll c σ s₀ arrivals).log.calls.Perm _ := calls_run h hempty (List.append_nil _).symm
    rwa [hall] at hcalls
  complete_entry pre post ha m hm hc := by
    obtain ⟨hcol, hne, -⟩ := collecting_run (σ := σ) h hempty ha
    have hpre : pre.map Prod.fst <+: arrivals.map Prod.fst := ⟨post.map Prod.fst, by simp [ha]⟩
    have htable := hcol m.guid
    rw [if_neg ((complete_iff_length h hm hpre).1 hc)] at htable
    unfold table at htable
    cases hmap : (processAll c σ s₀ pre).subPacketsMap m.guid with
    | none => rfl
    | some ps =>
      -- An entry is dropped when it is complete, never kept empty.
      rw [hmap, Option.getD_some] at htable
      exact absurd (htable ▸ hmap) (hne m.guid)
  incomplete_entry pre post ha m hm hc := by
    obtain ⟨hcol, -, -⟩ := collecting_run (σ := σ) h hempty ha
    have hpre : pre.map Prod.fst <+: arrivals.map Prod.fst := ⟨post.map Prod.fst, by simp [ha]⟩
    have htable := hcol m.guid
    rw [complete_iff_length h hm hpre, Decidable.not_not] at hc
    rw [if_pos hc] at htable
    refine htable.trans (List.filter_congr fun p hp => ?_)
    obtain ⟨m', hm', hp'⟩ := owner h (hpre.mem hp)
    rw [decide_eq_decide]
    constructor
    · intro hg
      have he : m' = m := List.inj_on_of_nodup_map h.guids hm' hm ((m'.guid_of_mem p hp').symm.trans hg)
      exact he ▸ hp'
    · exact m.guid_of_mem p

/-- A packet of two subpackets. -/
def twoChunks (guid : Bytes) : TransportPacket := { guid, payload := List.replicate 4000 65 }

theorem twoChunks_not_lost (b : UInt8) :
    ¬ (0 < ((twoChunks [b]).toString textCodec).length ∧
      MAX_PACKET_SIZE_B ∣ ((twoChunks [b]).toString textCodec).length) := by
  rw [twoChunks, length_toString_request, List.length_singleton, length_numeral_digit (by decide),
    List.length_replicate, length_numeral_four (by decide) (by decide)]
  decide

def twoChunksMessage (b : UInt8) : Message textCodec :=
  .ofPacket textCodec_lawful (twoChunks [b]) (twoChunks_not_lost b)

/-- Two messages; the second comes first, and both come backwards. -/
theorem reassembles_two :
    Reassembled textCodec .merge [twoChunksMessage 1, twoChunksMessage 2] (start [[]] [])
      (((twoChunksMessage 2).parts.reverse ++ (twoChunksMessage 1).parts.reverse).map fun p => (p, none)) :=
  reassembles _ _ _ (fun _ => rfl) {
    guids := by
      show [[(1 : UInt8)], [2]].Nodup
      decide
    each_once := by
      have hmap : ∀ ps : List TransportPacket, (ps.map fun p => (p, (none : Option Bytes))).map Prod.fst = ps := by
        intro ps
        rw [List.map_map]
        exact List.map_id ps
      rw [hmap]
      refine ((List.reverse_perm _).append (List.reverse_perm _)).trans (List.perm_append_comm.trans ?_)
      simp
    accepted := by
      intro a ha
      obtain ⟨p, hp, rfl⟩ := List.mem_map.1 ha
      have htoken : p.token = [] := by
        rcases List.mem_append.1 hp with hp | hp
        · exact (mem_subpackets (List.mem_reverse.1 hp)).1
        · exact (mem_subpackets (List.mem_reverse.1 hp)).1
      simp [htoken, start] }

end ComponentsNetwork.TransportLevel.ConnectionSession
