import ComponentsNetwork.Transport.Client
import ComponentsNetwork.Transport.PacketTheorems
/-!
# What the transport client makes of the server's answers

- `dispatched_iff`: the packets dispatched are those the server wrote, if and
  only if every piece that `readAll` returns decodes to the packet in its
  place; with a compact codec, if and only if the pieces are the packets'
  texts. A text carries nothing that says where it ends, and the client keeps
  nothing of a piece.
-/

namespace ComponentsNetwork.TransportLevel.TransportClient

open Buffers Chunks Numerals TransportPacket

variable {c : Codec} {σ : Sorter TransportPacket subPacketNo}

theorem gotAll_append (cl : TransportClient) (xs ys : List (Bytes × Option Bytes)) :
    cl.gotAll c σ (xs ++ ys) = (cl.gotAll c σ xs).gotAll c σ ys := by
  simp [gotAll, List.foldl_append]

/-! ## Pieces of the stream -/

/-- The packet a piece decodes to. -/
def decoded (c : Codec) (piece : Bytes) : Option TransportPacket :=
  if (fromString c {} piece).1 then some (fromString c {} piece).2 else none

theorem processSubpacket_dispatched (cl : TransportClient) (subp : TransportPacket) (reply : Option Bytes) :
    (cl.processSubpacket c σ subp reply).dispatched = cl.dispatched ∧
      (cl.processSubpacket c σ subp reply).errors = cl.errors := by
  unfold processSubpacket
  dsimp only
  split
  · cases reply <;> exact ⟨rfl, rfl⟩
  · exact ⟨rfl, rfl⟩

theorem gotResponse_dispatched (cl : TransportClient) (piece : Bytes) (reply : Option Bytes) :
    (cl.gotResponse c σ piece reply).dispatched = cl.dispatched ++ (decoded c piece).toList ∧
      ((cl.gotResponse c σ piece reply).errors = cl.errors ↔ (decoded c piece).isSome = true) := by
  unfold gotResponse decoded
  generalize fromString c {} piece = x
  obtain ⟨_ | _, respp⟩ := x
  · simp [error]
  · dsimp only
    split
    · obtain ⟨hd, he⟩ := processSubpacket_dispatched (c := c) (σ := σ)
        { cl with dispatched := cl.dispatched ++ [respp] } respp reply
      exact ⟨hd, iff_of_true he rfl⟩
    · cases reply <;> exact ⟨rfl, iff_of_true rfl rfl⟩

theorem gotResponse_errors_le (cl : TransportClient) (piece : Bytes) (reply : Option Bytes) :
    cl.errors <+: (cl.gotResponse c σ piece reply).errors := by
  unfold gotResponse
  split
  · exact List.prefix_append _ _
  · dsimp only
    split
    · exact ⟨[], by rw [List.append_nil, (processSubpacket_dispatched _ _ _).2]⟩
    · cases reply <;> exact List.prefix_refl _

theorem gotAll_errors_le (cl : TransportClient) (pieces : List (Bytes × Option Bytes)) :
    cl.errors <+: (cl.gotAll c σ pieces).errors := by
  induction pieces generalizing cl with
  | nil => exact List.prefix_refl _
  | cons x pieces ih => exact (gotResponse_errors_le cl x.1 x.2).trans (ih _)

/-- What is dispatched of a list of pieces, and when none is an error. -/
theorem gotAll_dispatched (cl : TransportClient) (pieces : List (Bytes × Option Bytes)) :
    (cl.gotAll c σ pieces).dispatched = cl.dispatched ++ (pieces.map Prod.fst).filterMap (decoded c) ∧
      ((cl.gotAll c σ pieces).errors = cl.errors ↔ ∀ piece ∈ pieces.map Prod.fst, (decoded c piece).isSome = true) := by
  induction pieces generalizing cl with
  | nil => simp [gotAll]
  | cons x pieces ih =>
    obtain ⟨hd, he⟩ := gotResponse_dispatched (c := c) (σ := σ) cl x.1 x.2
    obtain ⟨hd', he'⟩ := ih (cl.gotResponse c σ x.1 x.2)
    have hcons : cl.gotAll c σ (x :: pieces) = (cl.gotResponse c σ x.1 x.2).gotAll c σ pieces := rfl
    rw [hcons, List.map_cons, hd', hd]
    refine ⟨?_, ?_⟩
    · cases hx : decoded c x.1 <;> simp [hx]
    · rw [List.forall_mem_cons, ← he, ← he']
      constructor
      · intro hall
        -- The errors only grow, so nothing was reported at the first piece.
        have hfirst := gotResponse_errors_le (c := c) (σ := σ) cl x.1 x.2
        have hrest := gotAll_errors_le (c := c) (σ := σ) (cl.gotResponse c σ x.1 x.2) pieces
        have hsame : (cl.gotResponse c σ x.1 x.2).errors = cl.errors := by
          refine (hfirst.eq_of_length_le ?_).symm
          rw [← hall]
          exact hrest.length_le
        exact ⟨hsame, hall.trans hsame.symm⟩
      · rintro ⟨hfirst, hrest⟩
        exact hrest.trans hfirst

/-- What the client decodes of a packet's text; the token is not in it. -/
theorem decoded_toString (hc : c.Lawful) (p : TransportPacket) :
    decoded c (p.toString c) = some { p with token := [] } := by
  unfold decoded
  rw [fromString_toString hc]
  rfl

theorem length_of_decoded (hk : c.Compact) {p : TransportPacket} {piece : Bytes}
    (h : decoded c piece = some { p with token := [] }) : (p.toString c).length ≤ piece.length := by
  unfold decoded at h
  rw [Option.ite_none_right_eq_some] at h
  obtain ⟨hok, hp⟩ := h
  refine length_toString_le hk hok ?_
  rw [Option.some.inj hp]
  rfl

/-- A list of pieces is dispatched as a list of packets, and no piece is
reported, exactly if each piece decodes to the packet in its place. -/
theorem gotAll_dispatched_iff (cl : TransportClient) (pieces : List (Bytes × Option Bytes))
    (qs : List TransportPacket) :
    ((cl.gotAll c σ pieces).dispatched = cl.dispatched ++ qs ∧ (cl.gotAll c σ pieces).errors = cl.errors) ↔
      List.Forall₂ (fun piece q => decoded c piece = some q) (pieces.map Prod.fst) qs := by
  obtain ⟨hd, he⟩ := gotAll_dispatched (c := c) (σ := σ) cl pieces
  rw [hd, he, List.append_cancel_left_eq]
  generalize pieces.map Prod.fst = pieces
  clear hd he
  induction pieces generalizing qs with
  | nil => cases qs <;> simp
  | cons piece pieces ih =>
    cases hq : decoded c piece with
    | none =>
      -- A piece that is not decoded is an error, and no packet.
      apply iff_of_false
      · intro hall
        have hsome := hall.2 piece List.mem_cons_self
        rw [hq] at hsome
        cases hsome
      · intro hall
        cases hall with
        | cons hfirst _ =>
          rw [hq] at hfirst
          cases hfirst
    | some q =>
      rw [List.filterMap_cons_some hq, List.forall_mem_cons, hq]
      cases qs with
      | nil => simp
      | cons q' qs =>
        rw [List.cons.injEq, List.forall₂_cons, hq, Option.some.injEq, ← ih qs]
        exact ⟨fun h => ⟨h.1.1, h.1.2, h.2.2⟩, fun h => ⟨⟨h.1, h.2.1⟩, rfl, h.2.2⟩⟩

/-- However the stream of the packets' texts is cut into pieces: the packets
dispatched are the packets written, and no piece is reported, if and only if
each piece decodes to the packet in its place; with a compact codec, if and
only if the pieces are the packets' texts. -/
theorem dispatched_iff (hc : c.Lawful) (cl : TransportClient) (ps : List TransportPacket)
    (pieces : List (Bytes × Option Bytes))
    (hstream : (pieces.map Prod.fst).flatten = (ps.map fun p => p.toString c).flatten) :
    (((cl.gotAll c σ pieces).dispatched = cl.dispatched ++ ps.map (fun p => { p with token := [] }) ∧
        (cl.gotAll c σ pieces).errors = cl.errors) ↔
      List.Forall₂ (fun piece p => decoded c piece = some { p with token := [] }) (pieces.map Prod.fst) ps) ∧
    (c.Compact →
      (((cl.gotAll c σ pieces).dispatched = cl.dispatched ++ ps.map (fun p => { p with token := [] }) ∧
          (cl.gotAll c σ pieces).errors = cl.errors) ↔
        pieces.map Prod.fst = ps.map fun p => p.toString c)) := by
  rw [gotAll_dispatched_iff, List.forall₂_map_right_iff]
  refine ⟨Iff.rfl, ?_⟩
  intro hk
  constructor
  · intro hdecoded
    refine eq_of_flatten_eq ?_ hstream
    rw [List.forall₂_map_right_iff]
    exact hdecoded.imp fun piece p h => length_of_decoded hk h
  · intro htexts
    rw [htexts, List.forall₂_map_left_iff, List.forall₂_same]
    exact fun p _ => decoded_toString hc p

def hello : TransportPacket := { payload := octets "hello" }

def goodbye : TransportPacket := { payload := octets "goodbye", subPacketNo := 1 }

/-- Two packets, each returned by a `readAll` of its own. -/
theorem dispatched_iff_hello :
    (({} : TransportClient).gotAll textCodec .merge
        [(hello.toString textCodec, none), (goodbye.toString textCodec, none)]).dispatched = [hello, goodbye] ∧
      (({} : TransportClient).gotAll textCodec .merge
        [(hello.toString textCodec, none), (goodbye.toString textCodec, none)]).errors = [] :=
  ((dispatched_iff textCodec_lawful {} [hello, goodbye]
    [(hello.toString textCodec, none), (goodbye.toString textCodec, none)] rfl).2 textCodec_compact).2 rfl

/-- Two packets that `readAll` returns together are not both dispatched. -/
theorem joined_packets_lost :
    [hello.toString textCodec ++ hello.toString textCodec].flatten =
        ([hello, hello].map fun p => p.toString textCodec).flatten ∧
      (({} : TransportClient).gotAll textCodec .merge
        [(hello.toString textCodec ++ hello.toString textCodec, none)]).dispatched ≠ [hello, hello] := by
  refine ⟨by simp, ?_⟩
  intro h
  rw [(gotAll_dispatched _ _).1] at h
  have hlen := congrArg List.length h
  have hle := List.length_filterMap_le (decoded textCodec)
    ([(hello.toString textCodec ++ hello.toString textCodec, (none : Option Bytes))].map Prod.fst)
  simp only [List.nil_append, List.map_cons, List.map_nil, List.length_cons, List.length_nil] at hlen hle
  omega

end ComponentsNetwork.TransportLevel.TransportClient
