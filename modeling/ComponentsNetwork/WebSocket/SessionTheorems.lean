import ComponentsNetwork.WebSocket.Session
/-!
# Theorems about WebSocket sessions

`Reads` sums up what a step does to the buffer and to the messages delivered,
for both classes.
-/

namespace ComponentsNetwork.WebSocket

open Buffers Runs

/-! ## What a step reads -/

/-- The message an action reads. -/
def Action.message : Action → Option Bytes
  | .read false message => some message
  | _ => none

/-- What an action appends to `m_buffer`. -/
def Action.appended : Action → Bytes
  | .read _ appended => appended
  | _ => []

/-- The messages read in a run, in order. -/
def messages (acts : List Action) : List Bytes := acts.filterMap Action.message

/-- Nothing was read before any of the messages. -/
def FirstOnly (acts : List Action) : Prop :=
  ∀ pre a post, acts = pre ++ a :: post → a.message ≠ none → pre.flatMap Action.appended = []

instance (acts : List Action) : Decidable (FirstOnly acts) := decidable_of_iff _ forall_split_iff.symm

theorem messages_concat (acts : List Action) (a : Action) :
    messages (acts ++ [a]) = messages acts ++ a.message.toList := by
  cases h : a.message <;> simp [messages, List.filterMap_append, h]

/-- What a step does to the buffer and to the messages delivered: what is
appended stays, and a message is delivered with all that is in the buffer. -/
def Reads (s s' : Session) (a : Action) : Prop :=
  s'.buffer = s.buffer ++ a.appended ∧
    (a ≠ .setReadCallback false → s.readCallback = true →
      s'.readCallback = true ∧ s'.delivered = s.delivered ++ a.message.toList.map fun _ => s.buffer ++ a.appended)

theorem callClose_reads {s s' : Session} {a : Action} (h : Reads s s' a) : Reads s s'.callClose a := by
  unfold Session.callClose
  split <;> exact h

theorem complete_reads {s s' : Session} {op : Operation} {handler : Session → Session} {a : Action}
    (hread : ∀ s, Reads s (handler s) a) (h : s.complete op handler = some s') : Reads s s' a := by
  unfold Session.complete at h
  split at h
  · cases h
    exact hread { s with outstanding := none }
  · cases h

/-- A step that leaves the buffer and the callback alone. -/
theorem reads_other {s s' : Session} {a : Action} (ha : a.message = none ∧ a.appended = [])
    (hb : s'.buffer = s.buffer) (hd : s'.delivered = s.delivered)
    (hc : a ≠ .setReadCallback false → s.readCallback = true → s'.readCallback = true) : Reads s s' a := by
  refine ⟨by rw [hb, ha.2, List.append_nil], fun hset hcall => ⟨hc hset hcall, ?_⟩⟩
  rw [hd, ha.1]
  simp

theorem onRead_reads (s : Session) (ec : Bool) (appended : Bytes) :
    Reads s (s.onRead ec appended) (.read ec appended) := by
  cases ec
  · refine ⟨?_, fun _ hcall => ?_⟩
    · unfold Session.onRead
      cases s.readCallback <;> rfl
    · simp [Session.onRead, hcall, Action.message, Action.appended]
  · apply callClose_reads
    exact ⟨rfl, fun _ hcall => ⟨hcall, by simp [Action.message]⟩⟩

theorem setReadCallback_reads (s : Session) (isSet : Bool) :
    Reads s (s.setReadCallback isSet) (.setReadCallback isSet) := by
  refine reads_other ⟨rfl, rfl⟩ rfl rfl fun hset _ => ?_
  cases isSet
  · exact absurd rfl hset
  · rfl

theorem close_reads (s : Session) (ok : Bool) : Reads s (s.close ok).2 (.close ok) := by
  unfold Session.close
  cases s.isConnected <;> exact reads_other ⟨rfl, rfl⟩ rfl rfl fun _ hc => hc

theorem Session.step_reads {s s' : Session} {a : Action} (h : s.step a = some s') : Reads s s' a := by
  cases a with
  | setReadCallback isSet => cases h; exact setReadCallback_reads s isSet
  | setCloseCallback isSet => cases h; exact reads_other ⟨rfl, rfl⟩ rfl rfl fun _ hc => hc
  | start host port throws =>
    simp only [Session.step, Option.ite_none_left_eq_some, Option.some.injEq] at h
    obtain ⟨-, rfl⟩ := h
    exact reads_other ⟨rfl, rfl⟩ rfl rfl fun _ hc => hc
  | resolved ec =>
    simp only [Session.step] at h
    refine complete_reads (fun s => ?_) h
    cases ec <;> exact reads_other ⟨rfl, rfl⟩ rfl rfl fun _ hc => hc
  | connected ec port =>
    simp only [Session.step] at h
    refine complete_reads (fun s => ?_) h
    cases ec
    · exact reads_other ⟨rfl, rfl⟩ rfl rfl fun _ hc => hc
    · apply callClose_reads
      exact reads_other ⟨rfl, rfl⟩ rfl rfl fun _ hc => hc
  | handshaken ec =>
    simp only [Session.step] at h
    refine complete_reads (fun s => ?_) h
    cases ec <;> exact reads_other ⟨rfl, rfl⟩ rfl rfl fun _ hc => hc
  | read ec appended => exact complete_reads (fun s => onRead_reads s ec appended) h
  | close ok => cases h; exact close_reads s ok

theorem SecureSession.step_reads {s s' : Session} {a : Action} (h : step s a = some s') : Reads s s' a := by
  cases a with
  | setReadCallback isSet => cases h; exact setReadCallback_reads s isSet
  | setCloseCallback isSet => cases h; exact reads_other ⟨rfl, rfl⟩ rfl rfl fun _ hc => hc
  | start host port throws =>
    simp only [step, Option.ite_none_left_eq_some, Option.some.injEq] at h
    obtain ⟨-, rfl⟩ := h
    cases throws <;> exact reads_other ⟨rfl, rfl⟩ rfl rfl fun _ hc => hc
  | resolved | connected => cases h
  | handshaken ec =>
    simp only [step] at h
    refine complete_reads (fun s => ?_) h
    cases ec <;> exact reads_other ⟨rfl, rfl⟩ rfl rfl fun _ hc => hc
  | read ec appended => exact complete_reads (fun s => onRead_reads s ec appended) h
  | close ok => cases h; exact close_reads s ok

/-! ## The messages delivered -/

theorem firstOnly_concat (acts : List Action) (a : Action) :
    FirstOnly (acts ++ [a]) ↔ FirstOnly acts ∧ (a.message ≠ none → acts.flatMap Action.appended = []) :=
  forall_split_concat (P := fun pre (a : Action) => a.message ≠ none → pre.flatMap Action.appended = [])

/-- A message is delivered alone if the buffer was empty. -/
theorem alone_iff (buffer : Bytes) (a : Action) :
    (a.message.toList.map fun _ => buffer ++ a.appended) = a.message.toList ↔ (a.message ≠ none → buffer = []) := by
  cases a with
  | read ec message => cases ec <;> simp [Action.message, Action.appended]
  | _ => simp [Action.message]

/-- How a session stands to the actions of its run. -/
structure Accumulated (s : Session) (acts : List Action) : Prop where
  callback : s.readCallback = true
  buffer : s.buffer = acts.flatMap Action.appended
  count : s.delivered.length = (messages acts).length
  delivered : s.delivered = messages acts ↔ FirstOnly acts

theorem accumulated_start : Accumulated { readCallback := true } [] :=
  ⟨rfl, rfl, rfl, iff_of_true rfl fun _ _ _ he => (by simp at he)⟩

theorem accumulated_step {s s' : Session} {acts : List Action} {a : Action} (hs : Accumulated s acts)
    (h : Reads s s' a) (ha : a ≠ .setReadCallback false) : Accumulated s' (acts ++ [a]) := by
  obtain ⟨hcall, hbuffer, hcount, hdelivered⟩ := hs
  obtain ⟨hbuffer', h⟩ := h
  obtain ⟨hcall', hdelivered'⟩ := h ha hcall
  refine ⟨hcall', ?_, ?_, ?_⟩
  · rw [hbuffer', hbuffer, List.flatMap_append, List.flatMap_singleton]
  · rw [hdelivered', messages_concat]
    simp [hcount]
  · rw [hdelivered', messages_concat, firstOnly_concat, ← hdelivered, ← hbuffer, ← alone_iff]
    constructor
    · intro he
      exact List.append_inj he hcount
    · rintro ⟨hold, hnew⟩
      rw [hold, hnew]

/-- The session delivers each message of the run once and alone if nothing was
read before any of them. -/
theorem accumulated_run {step : Session → Action → Option Session}
    (hstep : ∀ s a s', step s a = some s' → Reads s s' a) {s : Session} {acts : List Action}
    (hset : Action.setReadCallback false ∉ acts) (h : run step { readCallback := true } acts = some s) :
    Accumulated s acts := by
  refine run_history (R := fun s acts => Action.setReadCallback false ∉ acts → Accumulated s acts)
    (fun _ => accumulated_start) (fun s acts a s' hs h hset => ?_) h hset
  simp only [List.mem_append, List.mem_singleton, not_or] at hset
  exact accumulated_step (hs hset.1) (hstep s a s' h) (Ne.symm hset.2)

/-- In every run of either class with a read callback set, the callback gets
exactly the messages read if and only if nothing was read before any of them:
no message but the last has a byte. -/
theorem delivered_iff (acts : List Action) (hset : Action.setReadCallback false ∉ acts) :
    (∀ s, run Session.step { readCallback := true } acts = some s →
        (s.delivered = messages acts ↔ FirstOnly acts)) ∧
      ∀ s, run SecureSession.step { readCallback := true } acts = some s →
        (s.delivered = messages acts ↔ FirstOnly acts) :=
  ⟨fun _ h => (accumulated_run (fun _ _ _ => Session.step_reads) hset h).delivered,
    fun _ h => (accumulated_run (fun _ _ _ => SecureSession.step_reads) hset h).delivered⟩

/-- An empty message may come before another. -/
theorem delivered_after_empty :
    ∃ s, run Session.step { readCallback := true }
        [.start "host" "80" false, .resolved false, .connected false 80, .handshaken false, .read false [],
          .read false [104, 105]] = some s ∧ s.delivered = [[], [104, 105]] :=
  ⟨_, rfl, ((delivered_iff
    [.start "host" "80" false, .resolved false, .connected false 80, .handshaken false, .read false [],
      .read false [104, 105]] (by decide)).1 _ rfl).2 (by decide)⟩

/-- The second message is delivered behind the first, by both classes. -/
theorem second_message_behind_first :
    (∃ acts s, run Session.step { readCallback := true } acts = some s ∧
        messages acts = [[97], [98]] ∧ s.delivered = [[97], [97, 98]]) ∧
      ∃ acts s, run SecureSession.step { readCallback := true } acts = some s ∧
        messages acts = [[97], [98]] ∧ s.delivered = [[97], [97, 98]] :=
  ⟨⟨[.start "host" "80" false, .resolved false, .connected false 80, .handshaken false, .read false [97],
      .read false [98]], _, rfl, rfl, rfl⟩,
    [.start "host" "443" false, .handshaken false, .read false [97], .read false [98]], _, rfl, rfl, rfl⟩

end ComponentsNetwork.WebSocket
