import ComponentsNetwork.Lib.Framing
import ComponentsNetwork.Transport.ClientTheorems
import ComponentsNetwork.Transport.TokenTheorems
/-!
# What a client makes of the strings of requests

- `generateGuid_inj`: requests with different keys have different guids.
- `gotAll_requests`: read one after another, the strings of requests with
  different guids make one call for each request, when its last string is
  read.
-/

namespace ComponentsNetwork.TransportLevel

open Buffers Chunks Framing TransportPacket ConnectionSession

variable {c : Codec} {σ : Sorter TransportPacket subPacketNo}

/-! ## Guids -/

namespace TransportPacket

theorem length_insertDash (s : Bytes) (pos : Nat) : (insertDash s pos).length = s.length + 1 := by
  have hdash : (octets "-").length = 1 := by decide
  simp only [insertDash, List.length_append, List.length_take, List.length_drop, hdash]
  omega

/-- A dash that is put in can be taken out. -/
theorem insertDash_inj {s t : Bytes} {pos : Nat} (hs : pos ≤ s.length) (ht : pos ≤ t.length)
    (h : insertDash s pos = insertDash t pos) : s = t := by
  unfold insertDash at h
  have hlen : (s.take pos).length = (t.take pos).length := by
    rw [List.length_take, List.length_take, Nat.min_eq_left hs, Nat.min_eq_left ht]
  rw [List.append_assoc, List.append_assoc] at h
  obtain ⟨htake, hdrop⟩ := List.append_inj h hlen
  rw [← List.take_append_drop pos s, ← List.take_append_drop pos t, htake, List.append_cancel_left hdrop]

/-- The guids of keys of 16 octets: five groups of digits, which give the key
back. -/
theorem generateGuid_inj (hc : c.Lawful) (hk : c.Compact) {key key' : Bytes} (h : key.length = 16)
    (h' : key'.length = 16) (hguid : generateGuid c key = generateGuid c key') : key = key' := by
  have hdigits : ∀ k : Bytes, k.length = 16 → ((c.encodeHex k).take 32).length = 32 := by
    intro k hlen
    rw [List.length_take, hk.length_encodeHex, hlen]
    rfl
  unfold generateGuid at hguid
  have hlen := hdigits key h
  have hlen' := hdigits key' h'
  have hhex : (c.encodeHex key).take 32 = (c.encodeHex key').take 32 := by
    refine insertDash_inj ?_ ?_ (insertDash_inj ?_ ?_ (insertDash_inj ?_ ?_ (insertDash_inj ?_ ?_ hguid)))
    all_goals simp only [length_insertDash, hlen, hlen']; omega
  have hwhole : ∀ k : Bytes, k.length = 16 → (c.encodeHex k).take 32 = c.encodeHex k := by
    intro k hlen
    apply List.take_of_length_le
    rw [hk.length_encodeHex, hlen]
  rw [hwhole key h, hwhole key' h'] at hhex
  have hdecode := congrArg c.decodeHex hhex
  rwa [hc.decodeHex_encodeHex, hc.decodeHex_encodeHex, Option.some.injEq] at hdecode

end TransportPacket

/-! ## One piece -/

namespace TransportClient

theorem gotAll_concat (cl : TransportClient) (pieces : List (Bytes × Option Bytes)) (x : Bytes × Option Bytes) :
    cl.gotAll c σ (pieces ++ [x]) = (cl.gotAll c σ pieces).gotResponse c σ x.1 x.2 := by
  rw [gotAll_append]
  rfl

theorem gotResponse_whole (hc : c.Lawful) (cl : TransportClient) {p : TransportPacket}
    (htotal : p.subPacketTotalCount = 0) (reply : Option Bytes) :
    (cl.gotResponse c σ (p.toString c) reply).calls = cl.calls ++ [p.payload] ∧
      (cl.gotResponse c σ (p.toString c) reply).subpacketVectors = cl.subpacketVectors := by
  have hwhole : ¬ (({} : TransportPacket).load p.serialized).subPacketTotalCount ≠ 0 := not_not_intro htotal
  unfold gotResponse
  rw [fromString_toString hc]
  dsimp only
  rw [if_neg hwhole]
  cases reply <;> exact ⟨rfl, rfl⟩

/-- A subpacket is kept with those of its guid; the callback is called if they
are as many as there are to be. -/
theorem gotResponse_part (cl : TransportClient) {piece : Bytes} {sp : TransportPacket}
    (hd : fromString c {} piece = (true, sp)) (htotal : sp.subPacketTotalCount ≠ 0) (reply : Option Bytes) :
    (∀ g, g ≠ sp.guid → (cl.gotResponse c σ piece reply).subpacketVectors g = cl.subpacketVectors g) ∧
      (if (cl.subpacketVectors sp.guid ++ [sp]).length = sp.subPacketTotalCount then
        (cl.gotResponse c σ piece reply).calls =
          cl.calls ++ [(sp.fromSubpackets c σ (cl.subpacketVectors sp.guid ++ [sp])).1.2.payload]
      else (cl.gotResponse c σ piece reply).calls = cl.calls ∧
        (cl.gotResponse c σ piece reply).subpacketVectors sp.guid = cl.subpacketVectors sp.guid ++ [sp]) := by
  unfold gotResponse
  rw [hd]
  dsimp only
  rw [if_pos htotal]
  unfold processSubpacket
  dsimp only
  split
  · cases reply <;> exact ⟨fun g hg => Function.update_of_ne hg _ _, rfl⟩
  · exact ⟨fun g hg => Function.update_of_ne hg _ _, rfl, Function.update_self _ _ _⟩

/-! ## One request -/

/-- The first strings of a request in subpackets: they are kept until the last
one comes, which makes the call. -/
theorem gotAll_parts (hc : c.Lawful) (cl : TransportClient) {p : TransportPacket}
    (hempty : cl.subpacketVectors p.guid = []) (hlen : ¬ MAX_PACKET_SIZE_B ∣ (p.toString c).length)
    {pieces : List (Bytes × Option Bytes)} (hp : pieces.map Prod.fst <+: p.toSubpackets c) :
    (∀ g, g ≠ p.guid → (cl.gotAll c σ pieces).subpacketVectors g = cl.subpacketVectors g) ∧
      (if pieces.length = (p.toSubpackets c).length then (cl.gotAll c σ pieces).calls = cl.calls ++ [p.payload]
      else (cl.gotAll c σ pieces).calls = cl.calls ∧
        (cl.gotAll c σ pieces).subpacketVectors p.guid = (p.subpackets c).take pieces.length) := by
  have hcount : (p.toSubpackets c).length = (p.subpackets c).length := List.length_map _
  induction pieces using List.reverseRecOn with
  | nil =>
    refine ⟨fun _ _ => rfl, ?_⟩
    have hpos : 0 < (p.subpackets c).length := by
      rw [length_subpackets]
      exact Nat.succ_pos _
    rw [if_neg (by rw [hcount]; exact Nat.ne_of_lt hpos)]
    exact ⟨rfl, by simpa [gotAll] using hempty⟩
  | append_singleton pieces x ih =>
    rw [List.map_append] at hp
    obtain ⟨hothers, hkept⟩ := ih ((List.prefix_append _ _).trans hp)
    have hlt : pieces.length < (p.subpackets c).length := by
      have hle := hp.length_le
      rw [List.length_append, List.length_map, hcount] at hle
      exact hle
    rw [if_neg (by rw [hcount]; exact Nat.ne_of_lt hlt)] at hkept
    obtain ⟨hcalls, hvector⟩ := hkept
    -- The next string is the text of the next subpacket.
    have hpiece : fromString c {} x.1 = (true, (p.subpackets c)[pieces.length]) := by
      obtain ⟨rest, hrest⟩ := hp
      have hdecode := congrArg (fun l : List _ => l[pieces.length]?) (decode_toSubpackets hc p)
      rw [← hrest] at hdecode
      simpa [List.getElem?_eq_getElem hlt] using hdecode
    obtain ⟨-, hguid, -, htotal, -⟩ := mem_subpackets (List.getElem_mem hlt)
    rw [← length_subpackets] at htotal
    obtain ⟨hothers', hpart⟩ := gotResponse_part (σ := σ) (cl.gotAll c σ pieces) hpiece
      (by rw [htotal]; omega) x.2
    rw [hguid] at hothers' hpart
    have htake : (cl.gotAll c σ pieces).subpacketVectors p.guid ++ [(p.subpackets c)[pieces.length]] =
        (p.subpackets c).take (pieces.length + 1) := by
      rw [hvector, List.take_append_getElem]
    rw [gotAll_concat]
    refine ⟨fun g hg => (hothers' g hg).trans (hothers g hg), ?_⟩
    rw [htake, List.length_take, Nat.min_eq_left hlt, htotal] at hpart
    rw [List.length_append, List.length_singleton, hcount]
    split
    · next hlast =>
      rw [if_pos hlast, hcalls, List.take_of_length_le (Nat.le_of_eq hlast.symm),
        fromSubpackets_perm (List.Perm.refl _), joined_subpackets_eq (fun h => hlen h.2), fromString_toString hc] at hpart
      exact hpart
    · next hmore =>
      rw [if_neg hmore, hcalls] at hpart
      exact hpart

/-- A request as the client makes it: it is not a subpacket, and none of its
own is lost. -/
def Sendable (c : Codec) (p : TransportPacket) : Prop :=
  p.subPacketTotalCount = 0 ∧ (p.mustBeSeparated = true → ¬ MAX_PACKET_SIZE_B ∣ (p.toString c).length)

/-- The first strings of a request make the call for it if they are all. -/
theorem gotAll_request (hc : c.Lawful) (cl : TransportClient) {p : TransportPacket} (hsend : Sendable c p)
    (hempty : cl.subpacketVectors p.guid = []) {pieces : List (Bytes × Option Bytes)}
    (hp : pieces.map Prod.fst <+: requestStrings c p) :
    (∀ g, g ≠ p.guid → (cl.gotAll c σ pieces).subpacketVectors g = cl.subpacketVectors g) ∧
      (cl.gotAll c σ pieces).calls =
        cl.calls ++ if pieces.length = (requestStrings c p).length then [p.payload] else [] := by
  obtain ⟨htotal, hlen⟩ := hsend
  unfold requestStrings at hp ⊢
  split
  · next hsep =>
    rw [if_pos hsep] at hp
    obtain ⟨hothers, hcalls⟩ := gotAll_parts (σ := σ) hc cl hempty (hlen hsep) hp
    refine ⟨hothers, ?_⟩
    split at hcalls
    · next hall => rw [if_pos hall, hcalls]
    · next hsome => rw [if_neg hsome, hcalls.1, List.append_nil]
  · next hsep =>
    rw [if_neg hsep] at hp
    cases pieces with
    | nil => exact ⟨fun _ _ => rfl, (List.append_nil _).symm⟩
    | cons x pieces =>
      obtain ⟨hx, hrest⟩ := List.cons_prefix_cons.1 hp
      obtain rfl := List.map_eq_nil_iff.1 (List.prefix_nil.1 hrest)
      obtain ⟨hcalls, hvectors⟩ := gotResponse_whole (σ := σ) hc cl htotal x.2
      rw [← hx] at hcalls hvectors
      exact ⟨fun g _ => congrFun hvectors g, hcalls⟩

/-- The first strings of requests with different guids make a call for each
request that they have all strings of. -/
theorem gotAll_requests (hc : c.Lawful) (cl : TransportClient) {requests : List TransportPacket}
    (hsend : ∀ p ∈ requests, Sendable c p) (hguids : (requests.map guid).Nodup)
    (hempty : ∀ p ∈ requests, cl.subpacketVectors p.guid = []) {pieces : List (Bytes × Option Bytes)}
    (hp : pieces.map Prod.fst <+: requests.flatMap (requestStrings c)) :
    (cl.gotAll c σ pieces).calls =
      cl.calls ++ (wholeIn (requestStrings c) requests pieces.length).map (·.payload) := by
  induction requests generalizing cl pieces with
  | nil =>
    obtain rfl : pieces = [] := by simpa using hp
    exact (List.append_nil _).symm
  | cons p requests ih =>
    obtain ⟨hfirst, hlater⟩ := List.forall_mem_cons.1 hsend
    obtain ⟨hempty₁, hempty₂⟩ := List.forall_mem_cons.1 hempty
    rw [List.map_cons, List.nodup_cons] at hguids
    rw [List.flatMap_cons] at hp
    rw [wholeIn]
    split
    · next hwhole =>
      -- The strings of the first request, and what comes after them.
      have hlen : (requestStrings c p).length ≤ (pieces.map Prod.fst).length := by rwa [List.length_map]
      obtain ⟨strs, hstrs⟩ := List.prefix_of_prefix_length_le (List.prefix_append _ _) hp hlen
      obtain ⟨own, others, rfl, hown, hothers⟩ := List.map_eq_append_iff.1 hstrs.symm
      have hownlen : own.length = (requestStrings c p).length := by rw [← hown, List.length_map]
      obtain ⟨hvectors, hcalls⟩ := gotAll_request (σ := σ) hc cl hfirst hempty₁
        ⟨[], by rw [hown, List.append_nil]⟩
      rw [if_pos hownlen] at hcalls
      have hrest : others.map Prod.fst <+: requests.flatMap (requestStrings c) := by
        rw [List.map_append, hown, List.prefix_append_right_inj] at hp
        exact hp
      have hstill : ∀ q ∈ requests, (cl.gotAll c σ own).subpacketVectors q.guid = [] := by
        intro q hq
        rw [hvectors q.guid fun he => hguids.1 (he ▸ List.mem_map_of_mem hq)]
        exact hempty₂ q hq
      rw [gotAll_append, ih (cl.gotAll c σ own) hlater hguids.2 hstill hrest, hcalls, List.length_append, hownlen,
        Nat.add_sub_cancel_left, List.append_assoc]
      rfl
    · next hpart =>
      have hlen : (pieces.map Prod.fst).length ≤ (requestStrings c p).length := by
        rw [List.length_map]
        exact Nat.le_of_not_le hpart
      obtain ⟨-, hcalls⟩ := gotAll_request (σ := σ) hc cl hfirst hempty₁
        (List.prefix_of_prefix_length_le hp (List.prefix_append _ _) hlen)
      rw [hcalls, if_neg (by omega), List.map_nil]

end TransportClient

end ComponentsNetwork.TransportLevel
