import ComponentsNetwork.Socket.Session
/-!
# Lines from one session to another

Two sessions over one TCP stream: `written` of the one is what the other
reads, in pieces of any size up to its buffer's.

- `lines_whole_iff`: a `send` that returns true has put its whole line on the
  stream, and the peer is handed the lines of such sends in order and from the
  first octet on, if and only if every `write_some` takes all it is offered.
-/

namespace ComponentsNetwork.Socket

open Buffers Runs

/-- `taken` counts the octets of the stream that were read, and `lines` is
what the sends that returned true were to transport. -/
structure Stream where
  sender : Session
  receiver : Session
  taken : Nat := 0
  lines : Bytes := []
deriving DecidableEq

namespace Stream

inductive Action
  | send (iStr : Bytes) (accepted : Nat)
  | read (length : Nat)
deriving DecidableEq, Repr

/-- `write_some` takes at least one octet, and `async_read_some` gets what is
on the stream. -/
def step (p : Stream) : Action → Option Stream
  | .send iStr accepted =>
    if 1 ≤ accepted ∧ accepted ≤ (Session.line iStr).length then
      (p.sender.send iStr accepted).map fun (sent, sender) =>
        { p with sender, lines := if sent then p.lines ++ Session.line iStr else p.lines }
    else none
  | .read length =>
    if p.taken + length ≤ p.sender.written.length then
      (p.receiver.step (.read false ((p.sender.written.drop p.taken).take length))).map fun receiver =>
        { p with receiver, taken := p.taken + length }
    else none

/-- A session with a read callback whose connect has just succeeded. -/
def connected (bufferData : Bytes) (host : String) : Session :=
  (Session.start { bufferData, readCallback := true } host false).onConnect false

/-- What the read callback was called with begins the lines sent. -/
def LinesArrive (p : Stream) : Prop := p.receiver.delivered.flatten <+: p.lines

/-- A `send` that returns true has written its line. -/
def WritesLine (p : Stream) : Action → Stream → Prop
  | .send iStr accepted, _ =>
    ∀ sender, p.sender.send iStr accepted = some (true, sender) →
      sender.written = p.sender.written ++ Session.line iStr
  | _, _ => True

/-- `write_some` takes all it is offered. -/
def TakesAll (_ : Stream) : Action → Prop
  | .send iStr accepted => accepted = (Session.line iStr).length
  | _ => True

/-- The receiver reads on, and was handed the stream as far as it has read it. -/
structure Reads (p : Stream) : Prop where
  sends : p.sender.socket = .connected
  callback : p.receiver.readCallback = true
  reading : p.receiver.outstanding = some .read
  delivered : p.receiver.delivered.flatten = p.sender.written.take p.taken
  taken : p.taken ≤ p.sender.written.length

/-- So far every line was written whole. -/
structure Whole (p : Stream) : Prop where
  reads : Reads p
  lines : p.lines = p.sender.written

theorem linesArrive_of_whole {p : Stream} (h : Whole p) : LinesArrive p := by
  unfold LinesArrive
  rw [h.reads.delivered, h.lines]
  exact List.take_prefix _ _

theorem send_connected {s : Session} (h : s.socket = .connected) (iStr : Bytes) {accepted : Nat} (ha : 1 ≤ accepted) :
    s.send iStr accepted = some (true, { s with written := s.written ++ (Session.line iStr).take accepted }) := by
  have hsent : decide (accepted ≠ 0) = true := decide_eq_true (Nat.one_le_iff_ne_zero.1 ha)
  rw [Session.send, if_pos h, hsent]

/-- What is read is handed over as it is, whatever the buffer holds. -/
theorem read_delivers {s s' : Session} {piece : Bytes} (hcallback : s.readCallback = true)
    (h : s.step (.read false piece) = some s') :
    s'.delivered = s.delivered ++ [piece] ∧ s'.readCallback = true ∧ s'.outstanding = some .read := by
  simp only [Session.step, Session.complete, Option.ite_none_right_eq_some, Option.some.injEq] at h
  obtain ⟨-, -, rfl⟩ := h
  simp [Session.onRead, Session.read, hcallback]

theorem reads_send {p : Stream} (h : Reads p) (iStr : Bytes) (accepted : Nat) (lines : Bytes) :
    Reads { p with
      sender := { p.sender with written := p.sender.written ++ (Session.line iStr).take accepted }
      lines := lines } := by
  refine { h with delivered := ?_, taken := ?_ }
  · show p.receiver.delivered.flatten = (p.sender.written ++ _).take p.taken
    rw [List.take_append_of_le_length h.taken]
    exact h.delivered
  · show p.taken ≤ (p.sender.written ++ _).length
    rw [List.length_append]
    exact Nat.le_add_right_of_le h.taken

theorem reads_read {p : Stream} (h : Reads p) {length : Nat} {receiver : Session}
    (hroom : p.taken + length ≤ p.sender.written.length)
    (hs : p.receiver.step (.read false ((p.sender.written.drop p.taken).take length)) = some receiver) :
    Reads { p with receiver, taken := p.taken + length } := by
  obtain ⟨hdelivered, hcallback, hreading⟩ := read_delivers h.callback hs
  refine ⟨h.sends, hcallback, hreading, ?_, hroom⟩
  show receiver.delivered.flatten = p.sender.written.take (p.taken + length)
  rw [hdelivered, List.flatten_concat, h.delivered, List.take_add]

theorem whole_step {p p' : Stream} {a : Action} (h : Whole p) (hc : TakesAll p a) (hs : step p a = some p') :
    Whole p' := by
  cases a with
  | send iStr accepted =>
    simp only [step, Option.ite_none_right_eq_some] at hs
    obtain ⟨⟨hone, -⟩, hs⟩ := hs
    rw [send_connected h.reads.sends iStr hone] at hs
    cases hs
    refine ⟨reads_send h.reads iStr accepted _, ?_⟩
    show p.lines ++ Session.line iStr = p.sender.written ++ (Session.line iStr).take accepted
    rw [hc, List.take_length, h.lines]
  | read length =>
    simp only [step, Option.ite_none_right_eq_some, Option.map_eq_some_iff] at hs
    obtain ⟨hroom, receiver, hs, rfl⟩ := hs
    exact ⟨reads_read h.reads hroom hs, h.lines⟩

/-- A line is on the stream exactly if all of it was taken. -/
theorem writesLine_iff {p p' : Stream} {a : Action} (h : Reads p) (hs : step p a = some p') :
    WritesLine p a p' ↔ TakesAll p a := by
  cases a with
  | send iStr accepted =>
    simp only [step, Option.ite_none_right_eq_some] at hs
    obtain ⟨⟨hone, hsize⟩, -⟩ := hs
    simp only [WritesLine, TakesAll, send_connected h.sends iStr hone, Option.some.injEq, Prod.mk.injEq, true_and,
      forall_eq', List.append_cancel_left_eq]
    constructor
    · intro hall
      rw [← hall, List.length_take, Nat.min_eq_left hsize]
    · rintro rfl
      exact List.take_length
  | read length => exact iff_of_true trivial trivial

/-- However the sends and the reads of two connected sessions interleave and
wherever the stream is cut: what the receiver was called with begins the lines
of the sends that returned true in every state, and each of them has written
its line, if and only if each `write_some` takes all it is offered. -/
theorem lines_whole_iff (senderData receiverData : Bytes) (host : String) (acts : List Action) :
    (Always step LinesArrive ⟨connected senderData host, connected receiverData host, 0, []⟩ acts ∧
        EachStep step WritesLine ⟨connected senderData host, connected receiverData host, 0, []⟩ acts) ↔
      Meets step TakesAll ⟨connected senderData host, connected receiverData host, 0, []⟩ acts := by
  have hstart : Whole ⟨connected senderData host, connected receiverData host, 0, []⟩ :=
    ⟨⟨rfl, rfl, rfl, rfl, Nat.zero_le _⟩, rfl⟩
  rw [Always, and_iff_right (linesArrive_of_whole hstart), ← eachStep_and]
  apply eachStep_iff (J := Whole) (C := TakesAll)
  · intro p a p' h hs
    rw [← writesLine_iff h.reads hs]
    refine ⟨And.right, ?_⟩
    intro hwrites
    exact ⟨linesArrive_of_whole (whole_step h ((writesLine_iff h.reads hs).1 hwrites) hs), hwrites⟩
  · intro p a p' h hc hs
    exact whole_step h hc hs
  · exact hstart

/-- The first `send` returns true with one octet of three on the stream, and
the peer reads the second line behind it. -/
theorem truncated_line :
    ∃ p, run step ⟨connected [] "host", connected [] "host", 0, []⟩ [.send [97, 98] 1, .send [99] 2, .read 3] = some p ∧
      p.receiver.delivered = [[97, 99, 10]] ∧ p.lines = [97, 98, 10, 99, 10] ∧ ¬ LinesArrive p := by
  refine ⟨_, rfl, by decide, by decide, ?_⟩
  unfold LinesArrive
  decide

end Stream

end ComponentsNetwork.Socket
