import ComponentsNetwork.Transport.Client
import ComponentsNetwork.Transport.ReassemblyTheorems
import ComponentsNetwork.Transport.TextCodec
/-!
# Families that do not decode

`fromSubpackets` tells whether the payloads of a family decode; neither the
session nor the client looks at it. `rejected_family_handed_over` says what
becomes of a family that does not: the callback is called all the same.
-/

namespace ComponentsNetwork.TransportLevel

open Buffers Chunks Runs TransportPacket

variable {c : Codec} {σ : Sorter TransportPacket subPacketNo}

/-- `fromString` rejects the payloads of the family, in the order of their
numbers. -/
def Rejected (c : Codec) (σ : Sorter TransportPacket subPacketNo) (family : List TransportPacket) : Prop :=
  (fromString c {} (joined (σ.sort family))).1 = false

/-- A load that fails leaves part of the family's fields in the packet. -/
theorem rebuilt_rejected {family : List TransportPacket} (h : Rejected c σ family) (p : TransportPacket) :
    ∃ f : Restored, ConnectionSession.rebuilt c σ family p = p.loadPart f := by
  unfold Rejected fromString at h
  unfold ConnectionSession.rebuilt fromSubpackets fromString
  dsimp only
  cases hdecode : c.decodeHex (joined (σ.sort family)) with
  | none => exact ⟨{}, rfl⟩
  | some inputDecoded =>
    rw [hdecode] at h
    dsimp only at h ⊢
    cases harchive : c.iarchive (c.aes256decrypt inputDecoded c.encryptionKey) with
    | ok f =>
      rw [harchive] at h
      cases h
    | error f => exact ⟨f, rfl⟩

namespace ConnectionSession

/-- The task of read `k` finds a subpacket that the session accepts, the last
of its family. -/
structure Completes (c : Codec) (s : ConnectionSession) (k : Nat) (p : TransportPacket) : Prop where
  posted : k ∈ s.posted
  text : ∃ input, cString s.data = some input ∧ fromString c {} input = (true, p)
  accepted : p.token ∈ s.tokenList
  subpacket : 0 < p.subPacketTotalCount
  complete : p.subPacketTotalCount ≤ (s.table p.guid ++ [p]).length

/-- The family is dropped: no call, no answer and no entry. -/
structure Dropped (s s' : ConnectionSession) (guid : Bytes) : Prop where
  calls : s'.log.calls = s.log.calls
  written : s'.log.written = s.log.written
  entry : s'.table guid = []

/-- The task processes the subpacket, on the session with its map as it was. -/
theorem runTask_process {s s' : ConnectionSession} {k : Nat} {p : TransportPacket} (h : Completes c s k p)
    {reply : Option Bytes} (hs : step c σ s (.runTask k reply) = some s') :
    ∃ t : ConnectionSession, t.tokenList = s.tokenList ∧ t.table = s.table ∧ t.log.calls = s.log.calls ∧
      s' = t.process c σ p reply := by
  obtain ⟨input, hinput, hdecoded⟩ := h.text
  simp only [step, h.posted, if_true, Option.some.injEq] at hs
  unfold runTask processString at hs
  simp only [hinput, hdecoded] at hs
  refine ⟨_, ?_, ?_, ?_, hs.symm⟩ <;> rfl

/-- The callback gets what was rebuilt of the family, and the entry is dropped
if the guid was not overwritten. -/
theorem runTask_completes {s s' : ConnectionSession} {k : Nat} {p : TransportPacket} (h : Completes c s k p)
    (reply : Option Bytes) (hs : step c σ s (.runTask k reply) = some s') :
    s'.log.calls = s.log.calls ++ [(rebuilt c σ (s.table p.guid ++ [p]) p).payload] ∧
      (s'.table p.guid = [] ↔ (rebuilt c σ (s.table p.guid ++ [p]) p).guid = p.guid) := by
  obtain ⟨t, htokens, htable, hcalls, rfl⟩ := runTask_process h hs
  have haccepted : p.token ∈ t.tokenList := htokens ▸ h.accepted
  have hcomplete : ¬ (t.table p.guid ++ [p]).length < p.subPacketTotalCount := by
    rw [htable]
    exact Nat.not_lt.2 h.complete
  obtain ⟨hmap, hcalled, -⟩ := process_last (c := c) (σ := σ) haccepted h.subpacket hcomplete reply
  rw [htable] at hmap hcalled
  refine ⟨hcalled.trans (by rw [hcalls]), ?_⟩
  have hsorted : σ.sort (s.table p.guid ++ [p]) ≠ [] := by
    intro hnil
    have hlen := (σ.perm (s.table p.guid ++ [p])).length_eq
    simp [hnil] at hlen
  show Option.getD ((t.process c σ p reply).subPacketsMap p.guid) [] = [] ↔ _
  rw [hmap]
  by_cases hg : (rebuilt c σ (s.table p.guid ++ [p]) p).guid = p.guid
  · refine iff_of_true ?_ hg
    rw [hg, Function.update_self]
    rfl
  · refine iff_of_false ?_ hg
    rw [Function.update_of_ne (Ne.symm hg), Function.update_self]
    exact hsorted

end ConnectionSession

namespace TransportClient

/-- What `readAll` returned is a subpacket, the last of its family. -/
structure Completes (c : Codec) (cl : TransportClient) (responseData : Bytes) (p : TransportPacket) : Prop where
  text : fromString c {} responseData = (true, p)
  subpacket : p.subPacketTotalCount ≠ 0
  complete : (cl.subpacketVectors p.guid ++ [p]).length = p.subPacketTotalCount

structure Dropped (cl cl' : TransportClient) (guid : Bytes) : Prop where
  calls : cl'.calls = cl.calls
  sent : cl'.sent = cl.sent
  entry : cl'.subpacketVectors guid = []

/-- The callback gets what was rebuilt of the family, and the vector stays. -/
theorem gotResponse_completes {cl : TransportClient} {responseData : Bytes} {p : TransportPacket}
    (h : Completes c cl responseData p) (reply : Option Bytes) :
    (cl.gotResponse c σ responseData reply).calls =
        cl.calls ++ [(ConnectionSession.rebuilt c σ (cl.subpacketVectors p.guid ++ [p]) p).payload] ∧
      (cl.gotResponse c σ responseData reply).subpacketVectors p.guid = σ.sort (cl.subpacketVectors p.guid ++ [p]) := by
  unfold gotResponse
  rw [h.text]
  dsimp only
  rw [if_pos h.subpacket]
  unfold processSubpacket
  dsimp only
  rw [if_pos h.complete]
  cases reply with
  | none => exact ⟨rfl, Function.update_self _ _ _⟩
  | some output => exact ⟨rfl, Function.update_self _ _ _⟩

end TransportClient

/-! ## Rejected families -/

/-- On either side, when the last subpacket of a family comes whose payloads
`fromString` rejects, the family is not dropped: the callback is called with
the payload of that subpacket, or what the failed load has put in its place.
The session removes the entry of the guid that is in the packet then, which
may be another; the client removes none. -/
theorem rejected_family_handed_over (c : Codec) (σ : Sorter TransportPacket subPacketNo) :
    (∀ (s s' : ConnectionSession) (k : Nat) (p : TransportPacket) (reply : Option Bytes),
        s.Completes c k p → Rejected c σ (s.table p.guid ++ [p]) → s.step c σ (.runTask k reply) = some s' →
          ¬ s.Dropped s' p.guid ∧ ∃ f : Restored, s'.log.calls = s.log.calls ++ [(p.loadPart f).payload] ∧
            (s'.table p.guid = [] ↔ (p.loadPart f).guid = p.guid)) ∧
      ∀ (cl : TransportClient) (responseData : Bytes) (p : TransportPacket) (reply : Option Bytes),
        cl.Completes c responseData p → Rejected c σ (cl.subpacketVectors p.guid ++ [p]) →
          ¬ cl.Dropped (cl.gotResponse c σ responseData reply) p.guid ∧
            (∃ f : Restored, (cl.gotResponse c σ responseData reply).calls = cl.calls ++ [(p.loadPart f).payload]) ∧
            (cl.gotResponse c σ responseData reply).subpacketVectors p.guid ≠ [] := by
  constructor
  · intro s s' k p reply h hrejected hs
    obtain ⟨hcalls, hentry⟩ := ConnectionSession.runTask_completes h reply hs
    obtain ⟨f, hf⟩ := rebuilt_rejected hrejected p
    rw [hf] at hcalls hentry
    refine ⟨fun hdropped => ?_, f, hcalls, hentry⟩
    have hsame := hdropped.calls
    rw [hcalls] at hsame
    exact absurd (congrArg List.length hsame) (by simp)
  · intro cl responseData p reply h hrejected
    obtain ⟨hcalls, hvector⟩ := TransportClient.gotResponse_completes (σ := σ) h reply
    obtain ⟨f, hf⟩ := rebuilt_rejected hrejected p
    rw [hf] at hcalls
    refine ⟨fun hdropped => ?_, ⟨f, hcalls⟩, fun hnil => ?_⟩
    · have hsame := hdropped.calls
      rw [hcalls] at hsame
      exact absurd (congrArg List.length hsame) (by simp)
    · have hlen := (σ.perm (cl.subpacketVectors p.guid ++ [p])).length_eq
      rw [hvector] at hnil
      simp [hnil] at hlen

/-- A subpacket of a family of two whose payloads are no text of a packet. -/
def junkPart (k : Nat) : TransportPacket :=
  { guid := octets "g", subPacketNo := k, subPacketTotalCount := 2, payload := octets "x" }

def junk : List TransportPacket := [junkPart 0, junkPart 1]

theorem sort_junk : (Sorter.merge : Sorter TransportPacket subPacketNo).sort junk = junk :=
  Sorter.merge.sort_numbered (by decide) (List.Perm.refl _)

theorem junk_rejected : Rejected textCodec .merge junk := by
  unfold Rejected
  rw [sort_junk]
  decide

theorem rebuilt_junk : ConnectionSession.rebuilt textCodec .merge junk (junkPart 1) = junkPart 1 := by
  unfold ConnectionSession.rebuilt fromSubpackets
  rw [sort_junk]
  decide

theorem junk_decodes : fromString textCodec {} ((junkPart 1).toString textCodec) = (true, junkPart 1) :=
  fromString_toString textCodec_lawful (junkPart 1) {}

/-- The first is read and its task run; the second is read. -/
def junkReads : List ConnectionSession.Action :=
  [.readCompletes ((junkPart 0).toString textCodec), .runTask 0 none,
    .readCompletes ((junkPart 1).toString textCodec)]

/-- A session that accepts the empty token. -/
def junkListener : ConnectionSession := .start [[]] (List.replicate 200 0)

theorem junkReads_kept :
    ∃ s ∈ run (ConnectionSession.step textCodec .merge) junkListener junkReads,
      s.posted = [1] ∧ cString s.data = some ((junkPart 1).toString textCodec) ∧ s.tokenList = [[]] ∧
        s.table (octets "g") = [junkPart 0] ∧ s.log.calls = [] := by
  decide +kernel

theorem junkReads_completes :
    ∃ s, run (ConnectionSession.step textCodec .merge) junkListener junkReads = some s ∧
      s.Completes textCodec 1 (junkPart 1) ∧ s.table (octets "g") ++ [junkPart 1] = junk ∧ s.log.calls = [] := by
  obtain ⟨s, hs, hposted, htext, htokens, htable, hcalls⟩ := junkReads_kept
  have hfamily : s.table (octets "g") ++ [junkPart 1] = junk := by
    rw [htable]
    rfl
  refine ⟨s, hs, ⟨?_, ⟨_, htext, junk_decodes⟩, ?_, by decide, (congrArg List.length hfamily).ge⟩, hfamily, hcalls⟩
  · rw [hposted]
    exact List.mem_singleton_self _
  · rw [htokens]
    exact List.mem_singleton_self _

/-- A client that has the first. -/
def junkClient : TransportClient := ({} : TransportClient).gotResponse textCodec .merge ((junkPart 0).toString textCodec) none

theorem junkClient_vector : junkClient.subpacketVectors (junkPart 1).guid ++ [junkPart 1] = junk := by
  decide +kernel

theorem junkClient_completes : junkClient.Completes textCodec ((junkPart 1).toString textCodec) (junkPart 1) where
  text := junk_decodes
  subpacket := by decide
  complete := by
    rw [junkClient_vector]
    rfl

theorem rejected_family_junk :
    (∃ s, run (ConnectionSession.step textCodec .merge) junkListener junkReads = some s ∧
        ∀ s', s.step textCodec .merge (.runTask 1 none) = some s' → ¬ s.Dropped s' (octets "g")) ∧
      ¬ junkClient.Dropped (junkClient.gotResponse textCodec .merge ((junkPart 1).toString textCodec) none)
        (octets "g") := by
  obtain ⟨hsession, hclient⟩ := rejected_family_handed_over textCodec .merge
  obtain ⟨s, hs, hcompletes, hfamily, -⟩ := junkReads_completes
  refine ⟨⟨s, hs, fun s' h => ?_⟩, ?_⟩
  · exact (hsession s s' 1 (junkPart 1) none hcompletes (hfamily ▸ junk_rejected) h).1
  · exact (hclient junkClient _ (junkPart 1) none junkClient_completes (junkClient_vector ▸ junk_rejected)).1

/-- On both sides the callback is called with the junk. -/
theorem junk_handed_over :
    Rejected textCodec .merge junk ∧
      (∃ s s', run (ConnectionSession.step textCodec .merge) junkListener junkReads = some s ∧
        s.step textCodec .merge (.runTask 1 none) = some s' ∧ s'.log.calls = [octets "x"] ∧
        ¬ s.Dropped s' (octets "g")) ∧
      ¬ junkClient.Dropped (junkClient.gotResponse textCodec .merge ((junkPart 1).toString textCodec) none)
        (octets "g") := by
  refine ⟨junk_rejected, ?_, ?_⟩
  · obtain ⟨s, hs, hcompletes, hfamily, hnone⟩ := junkReads_completes
    have hstep : ∃ s', s.step textCodec .merge (.runTask 1 none) = some s' := by
      simp only [ConnectionSession.step, hcompletes.posted, if_true]
      exact ⟨_, rfl⟩
    obtain ⟨s', hstep⟩ := hstep
    have hcalls := (ConnectionSession.runTask_completes hcompletes none hstep).1
    have hguid : (junkPart 1).guid = octets "g" := rfl
    rw [hguid, hfamily, rebuilt_junk, hnone] at hcalls
    have hcalls : s'.log.calls = [octets "x"] := hcalls
    refine ⟨s, s', hs, hstep, hcalls, fun hdropped => ?_⟩
    cases (hcalls.symm.trans hdropped.calls).trans hnone
  · intro hdropped
    have hcalls := (TransportClient.gotResponse_completes (σ := .merge) junkClient_completes none).1
    exact absurd (hcalls.symm.trans hdropped.calls) (by simp)

end ComponentsNetwork.TransportLevel
