import ComponentsNetwork.Transport.ConnectionSession
import ComponentsNetwork.Transport.TextCodec
/-!
# What a transport session reads

- `passed_exact_iff`: every task passes on exactly what its read delivered, if
  and only if no read so far was longer, the buffer had a zero behind the read
  from the start, and no later read has changed what it left. The task keeps a
  pointer to the buffer, not a copy, and the number of bytes read is ignored.
-/

namespace ComponentsNetwork.TransportLevel.ConnectionSession

open Buffers Chunks Runs TransportPacket

variable (c : Codec) (σ : Sorter TransportPacket subPacketNo)

/-! ## What processing leaves alone -/

/-- The two states differ only in what processing a packet changes. -/
def Frame (s t : ConnectionSession) : Prop :=
  t.tokenList = s.tokenList ∧ t.data = s.data ∧ t.reading = s.reading ∧ t.posted = s.posted ∧
    t.log.reads = s.log.reads ∧ t.log.passed = s.log.passed

theorem frame_trans {s t u : ConnectionSession} (h : Frame s t) (h' : Frame t u) : Frame s u := by
  obtain ⟨h1, h2, h3, h4, h5, h6⟩ := h
  obtain ⟨h1', h2', h3', h4', h5', h6'⟩ := h'
  exact ⟨h1'.trans h1, h2'.trans h2, h3'.trans h3, h4'.trans h4, h5'.trans h5, h6'.trans h6⟩

theorem frame_writes (s : ConnectionSession) (strs : List Bytes) : Frame s (strs.foldl writeSocket s) := by
  induction strs generalizing s with
  | nil => exact ⟨rfl, rfl, rfl, rfl, rfl, rfl⟩
  | cons str strs ih => exact frame_trans (t := s.writeSocket str) ⟨rfl, rfl, rfl, rfl, rfl, rfl⟩ (ih _)

theorem frame_answer (s : ConnectionSession) (p : TransportPacket) (reply : Option Bytes) :
    Frame s (s.answer c p reply) := by
  unfold answer
  cases reply with
  | none => exact ⟨rfl, rfl, rfl, rfl, rfl, rfl⟩
  | some output => exact frame_writes _ _

theorem frame_processSubpacket (s : ConnectionSession) (p : TransportPacket) :
    Frame s (s.processSubpacket c σ p).2 := by
  unfold processSubpacket
  dsimp only
  split <;> exact ⟨rfl, rfl, rfl, rfl, rfl, rfl⟩

theorem frame_process (s : ConnectionSession) (p : TransportPacket) (reply : Option Bytes) :
    Frame s (s.process c σ p reply) := by
  unfold process
  split
  · exact ⟨rfl, rfl, rfl, rfl, rfl, rfl⟩
  · split
    · have hf := frame_processSubpacket c σ s p
      split
      · next h => rw [h] at hf; exact hf
      · next h =>
        rw [h] at hf
        exact frame_trans hf (frame_answer c _ _ _)
    · exact frame_answer c _ _ _

theorem frame_processString (s : ConnectionSession) (input : Bytes) (reply : Option Bytes) :
    Frame s (s.processString c σ input reply) := by
  unfold processString
  split
  · exact ⟨rfl, rfl, rfl, rfl, rfl, rfl⟩
  · exact frame_process c σ s _ reply

/-- What running a task does, apart from processing the packet. -/
theorem frame_runTask (s : ConnectionSession) (k : Nat) (reply : Option Bytes) :
    Frame { s with posted := s.posted.erase k, log := { s.log with passed := s.log.passed ++ [(k, cString s.data)] } }
      (s.runTask c σ k reply) := by
  unfold runTask
  dsimp only
  split
  · exact ⟨rfl, rfl, rfl, rfl, rfl, rfl⟩
  · exact frame_processString c σ _ _ reply

/-! ## What tasks pass on -/

/-- A read as the buffer is meant for: it delivers something, without zero
bytes and shorter than the buffer. -/
def Delivers : Action → Prop
  | .readCompletes received => received ≠ [] ∧ 0 ∉ received ∧ received.length < dataBufferSize_
  | .readFails _ => False
  | .runTask .. => True

/-- Every task that has run passed on exactly what its read delivered. -/
def Exact (s : ConnectionSession) : Prop := ∀ x ∈ s.log.passed, x.2 = s.log.reads[x.1]?

instance (s : ConnectionSession) : Decidable (Exact s) := inferInstanceAs (Decidable (∀ x ∈ s.log.passed, _))

/-- When the task of a read runs, no read so far was longer, `data` (the
buffer at the start) has a zero behind the read, and the reads after it,
written over it, leave it as it was. -/
def Undisturbed (data : Bytes) (s : ConnectionSession) : Action → Prop
  | .runTask k _ => ∀ r, s.log.reads[k]? = some r →
      (∀ m ∈ s.log.reads, m.length ≤ r.length) ∧ data[r.length]? = some 0 ∧ (s.log.reads.drop (k + 1)).foldl overlay r = r
  | _ => True

instance (data : Bytes) (s : ConnectionSession) (a : Action) : Decidable (Undisturbed data s a) :=
  match a with
  | .runTask k _ => inferInstanceAs (Decidable (∀ r ∈ s.log.reads[k]?, _))
  | .readCompletes _ | .readFails _ => .isTrue trivial

/-- The buffer holds the reads, one over another; a task was posted for a read
that has completed. -/
def Overlaid (data : Bytes) (s : ConnectionSession) : Prop :=
  s.data = s.log.reads.foldl overlay data ∧ (∀ m ∈ s.log.reads, 0 ∉ m) ∧
    (∀ k ∈ s.posted, k < s.log.reads.length) ∧ ∀ x ∈ s.log.passed, x.1 < s.log.reads.length

theorem overlaid_step {data : Bytes} (s : ConnectionSession) (a : Action) (s' : ConnectionSession)
    (hi : Overlaid data s) (hd : Delivers a) (h : step c σ s a = some s') : Overlaid data s' := by
  obtain ⟨hdata, hz, hposted, hpassed⟩ := hi
  cases a with
  | readCompletes received =>
    simp only [step, Option.ite_none_right_eq_some, Option.some.injEq] at h
    obtain ⟨-, rfl⟩ := h
    refine ⟨by simp [hdata], ?_, ?_, ?_⟩
    · intro m hm
      rcases List.mem_append.1 hm with hm | hm
      · exact hz m hm
      · rw [List.mem_singleton.1 hm]
        exact hd.2.1
    · intro k hk
      rw [List.length_append, List.length_singleton]
      rcases List.mem_append.1 hk with hk | hk
      · exact Nat.lt_succ_of_lt (hposted k hk)
      · rw [List.mem_singleton.1 hk]
        exact Nat.lt_succ_self _
    · intro x hx
      rw [List.length_append, List.length_singleton]
      exact Nat.lt_succ_of_lt (hpassed x hx)
  | readFails eof => exact absurd hd id
  | runTask k reply =>
    simp only [step, Option.ite_none_right_eq_some, Option.some.injEq] at h
    obtain ⟨hk, rfl⟩ := h
    obtain ⟨-, hdata', -, hposted', hreads', hpassed'⟩ := frame_runTask c σ s k reply
    unfold Overlaid
    rw [hdata', hposted', hreads', hpassed']
    refine ⟨hdata, hz, fun j hj => hposted j (List.mem_of_mem_erase hj), ?_⟩
    intro x hx
    rcases List.mem_append.1 hx with hx | hx
    · exact hpassed x hx
    · rw [List.mem_singleton.1 hx]
      exact hposted k hk

theorem exact_step {data : Bytes} (s : ConnectionSession) (a : Action) (s' : ConnectionSession)
    (hi : Overlaid data s) (hp : Exact s) (hd : Delivers a) (h : step c σ s a = some s') :
    Exact s' ↔ Undisturbed data s a := by
  obtain ⟨hdata, hz, hposted, hpassed⟩ := hi
  cases a with
  | readCompletes received =>
    simp only [step, Option.ite_none_right_eq_some, Option.some.injEq] at h
    obtain ⟨-, rfl⟩ := h
    refine iff_of_true ?_ trivial
    intro x hx
    dsimp only at hx ⊢
    rw [List.getElem?_append_left (hpassed x hx)]
    exact hp x hx
  | readFails eof => exact absurd hd id
  | runTask k reply =>
    simp only [step, Option.ite_none_right_eq_some, Option.some.injEq] at h
    obtain ⟨hk, rfl⟩ := h
    obtain ⟨-, -, -, -, hreads', hpassed'⟩ := frame_runTask c σ s k reply
    have hlt := hposted k hk
    have hr : s.log.reads[k]? = some s.log.reads[k] := List.getElem?_eq_getElem hlt
    have hbuffer := cString_overlaid_getElem_iff hr hz data
    rw [← hdata] at hbuffer
    -- The task finds what the reads up to now have left in the buffer.
    have hexact : Exact (s.runTask c σ k reply) ↔ cString s.data = some s.log.reads[k] := by
      unfold Exact
      rw [hpassed', hreads']
      constructor
      · intro hall
        exact (hall (k, cString s.data) (by simp)).trans hr
      · intro hc x hx
        rcases List.mem_append.1 hx with hx | hx
        · exact hp x hx
        · rw [List.mem_singleton.1 hx]
          exact hc.trans hr.symm
    rw [hexact, hbuffer]
    simp only [Undisturbed, hr, Option.some.injEq, forall_eq']

/-- Every task passes on exactly what its read delivered, in every state of a
run, if and only if in that run each task finds its read undisturbed. -/
theorem passed_exact_iff (tokenList : List Bytes) (data : Bytes) (as : List Action) (h : ∀ a ∈ as, Delivers a) :
    Always (step c σ) Exact (start tokenList data) as ↔
      Meets (step c σ) (Undisturbed data) (start tokenList data) as :=
  always_iff_of (J := Overlaid data) (fun s a s' hi hd _ hs => overlaid_step c σ s a s' hi hd hs)
    (fun s a s' hi hp hd hs => exact_step c σ s a s' hi hp hd hs) ⟨rfl, by simp [start], by simp [start], by simp [start]⟩
    (fun x hx => by simp [start] at hx) (eachStep_of_forall h _)

/-- A buffer of zeros. -/
def cleared : Bytes := List.replicate dataBufferSize_ 0

/-- Two reads, the second as long as the first, each task run at once. -/
def readTwice : List Action :=
  [.readCompletes (octets "AB"), .runTask 0 none, .readCompletes (octets "CD"), .runTask 1 none]

theorem readTwice_delivers : ∀ a ∈ readTwice, Delivers a := by
  have hread : ∀ str ∈ [octets "AB", octets "CD"], Delivers (.readCompletes str) := by
    rintro str (_ | ⟨_, _ | ⟨_, ⟨⟩⟩⟩) <;> exact ⟨by decide, by decide, by decide⟩
  rintro a (_ | ⟨_, _ | ⟨_, _ | ⟨_, _ | ⟨_, ⟨⟩⟩⟩⟩⟩)
  · exact hread _ (by simp)
  · trivial
  · exact hread _ (by simp)
  · trivial

theorem passed_exact_iff_two : Always (step textCodec .merge) Exact (start [] cleared) readTwice :=
  (passed_exact_iff textCodec .merge [] cleared readTwice readTwice_delivers).2 (by decide)

/-- Two reads, the second shorter, each task run at once: the second passes on
the end of the first read, too. -/
theorem longer_read_left_over :
    ¬ Always (step textCodec .merge) Exact (start [] cleared)
      [.readCompletes (octets "AB"), .runTask 0 none, .readCompletes (octets "C"), .runTask 1 none] := by decide

end ComponentsNetwork.TransportLevel.ConnectionSession
