import ComponentsNetwork.Transport.ClientTheorems
import ComponentsNetwork.Transport.ConnectionSession
/-!
# Separated responses

- `responses_delivered_iff`: the callback of the client is invoked for each
  response once it has come, if and only if there is one response at most.
  The server gives its responses no guid, so all of them meet in the vector of
  the empty guid, and the client keeps there the subpackets of a response that
  is complete.
-/

namespace ComponentsNetwork.TransportLevel.TransportClient

open Buffers Chunks Numerals TransportPacket ConnectionSession

variable {c : Codec} {σ : Sorter TransportPacket subPacketNo}

/-! ## What the server sends -/

/-- A response that is sent as subpackets, none of which is lost. -/
def Separated (c : Codec) (output : Bytes) : Prop :=
  MAX_PACKET_SIZE_B < output.length ∧ ¬ MAX_PACKET_SIZE_B ∣ (toString c { payload := output }).length

/-- The server once it has answered each request with its output. -/
def answerAll (c : Codec) (s : ConnectionSession) (requests : List (TransportPacket × Bytes)) : ConnectionSession :=
  requests.foldl (fun s x => s.answer c x.1 (some x.2)) s

theorem writes_written (s : ConnectionSession) (strs : List Bytes) :
    (strs.foldl writeSocket s).log.written = s.log.written ++ strs := by
  induction strs generalizing s with
  | nil => simp
  | cons str strs ih =>
    rw [List.foldl_cons, ih]
    simp [writeSocket]

/-- What the server writes is the strings of its responses. -/
theorem answerAll_written (s : ConnectionSession) (requests : List (TransportPacket × Bytes)) :
    (answerAll c s requests).log.written =
      s.log.written ++ (requests.map Prod.snd).flatMap (responseStrings c) := by
  induction requests generalizing s with
  | nil => simp [answerAll]
  | cons x requests ih =>
    have hcons : answerAll c s (x :: requests) = answerAll c (s.answer c x.1 (some x.2)) requests := rfl
    have hanswer : (s.answer c x.1 (some x.2)).log.written = s.log.written ++ responseStrings c x.2 :=
      writes_written _ _
    rw [hcons, ih, hanswer]
    simp

/-- The subpackets a response is sent as. -/
def responseSubpackets (c : Codec) (output : Bytes) : List TransportPacket := subpackets c { payload := output }

/-- How many there are. -/
def responseCount (c : Codec) (output : Bytes) : Nat := subpacketCount c { payload := output }

theorem responseCount_pos (output : Bytes) : 0 < responseCount c output := Nat.succ_pos _

/-- The strings of a separated response decode to its subpackets. All have the
empty guid and the same total. -/
theorem decode_responseStrings (hc : c.Lawful) {output : Bytes} (h : Separated c output) :
    (responseStrings c output).map (fromString c {}) = (responseSubpackets c output).map fun sp => (true, sp) := by
  have hsep : mustBeSeparated { payload := output } = true := decide_eq_true h.1
  unfold responseStrings
  dsimp only
  rw [if_pos hsep]
  exact decode_toSubpackets hc _

theorem length_responseStrings {output : Bytes} (h : Separated c output) :
    (responseStrings c output).length = responseCount c output := by
  have hsep : mustBeSeparated { payload := output } = true := decide_eq_true h.1
  unfold responseStrings
  dsimp only
  rw [if_pos hsep, toSubpackets, List.length_map, length_subpackets]
  rfl

/-- One subpacket of a response: the callback is called if it makes their
number the total, and the vector of the empty guid keeps what it had. -/
theorem gotResponse_subpacket (cl : TransportClient) {piece : Bytes} {sp : TransportPacket}
    (hd : fromString c {} piece = (true, sp)) (hguid : sp.guid = []) (htotal : sp.subPacketTotalCount ≠ 0)
    (reply : Option Bytes) :
    ((cl.gotResponse c σ piece reply).subpacketVectors []).Perm (cl.subpacketVectors [] ++ [sp]) ∧
      (cl.gotResponse c σ piece reply).calls = cl.calls ++
        if (cl.subpacketVectors []).length + 1 = sp.subPacketTotalCount then
          [(sp.fromSubpackets c σ (cl.subpacketVectors [] ++ [sp])).1.2.payload] else [] := by
  unfold gotResponse
  rw [hd]
  dsimp only
  rw [if_pos htotal]
  unfold processSubpacket
  dsimp only
  rw [hguid, List.length_append, List.length_singleton]
  split
  · refine ⟨?_, ?_⟩
    · cases reply <;> simpa [send, fromSubpackets] using σ.perm _
    · cases reply <;> rfl
  · exact ⟨by simp, by simp⟩

/-! ## What the client does with it -/

/-- Some of a response's strings: if with them its total is reached, the
callback is called once. -/
theorem gotAll_subpackets (cl : TransportClient) {pieces : List (Bytes × Option Bytes)} {sps : List TransportPacket}
    {n : Nat} (hn : n ≠ 0)
    (hd : (pieces.map Prod.fst).map (fromString c {}) = sps.map fun sp => (true, sp))
    (hsps : ∀ sp ∈ sps, sp.guid = [] ∧ sp.subPacketTotalCount = n) :
    ((cl.gotAll c σ pieces).subpacketVectors []).Perm (cl.subpacketVectors [] ++ sps) ∧
      ∃ called, (cl.gotAll c σ pieces).calls = cl.calls ++ called ∧
        called.length = if (cl.subpacketVectors []).length < n ∧ n ≤ (cl.subpacketVectors []).length + sps.length
          then 1 else 0 := by
  induction pieces generalizing cl sps with
  | nil =>
    cases sps with
    | nil => exact ⟨by simp [gotAll], [], by simp [gotAll], by simp⟩
    | cons sp sps => simp at hd
  | cons x pieces ih =>
    cases sps with
    | nil => simp at hd
    | cons sp sps =>
      simp only [List.map_cons, List.cons.injEq] at hd
      obtain ⟨⟨hguid, htotal⟩, hrest⟩ := List.forall_mem_cons.1 hsps
      have hcons : cl.gotAll c σ (x :: pieces) = (cl.gotResponse c σ x.1 x.2).gotAll c σ pieces := rfl
      obtain ⟨hvector, hcalls⟩ := gotResponse_subpacket (σ := σ) cl hd.1 hguid (htotal ▸ hn) x.2
      obtain ⟨hvectors, called, hmore, hlen⟩ := ih (cl.gotResponse c σ x.1 x.2) hd.2 hrest
      have hlength := hvector.length_eq
      rw [List.length_append, List.length_singleton] at hlength
      rw [hcons]
      refine ⟨?_, _, by rw [hmore, hcalls, List.append_assoc], ?_⟩
      · refine hvectors.trans ?_
        simpa using hvector.append_right sps
      · rw [List.length_append, hlen, hlength, htotal, List.length_cons]
        -- The total is reached with this one, or later, or not.
        split <;> split <;> split <;> simp at * <;> omega

/-- The first `m` strings of one response: the vector grows by as many, and
the callback is called once if the response's count is reached. -/
theorem gotAll_response (hc : c.Lawful) (cl : TransportClient) {pieces : List (Bytes × Option Bytes)}
    {output : Bytes} (h : Separated c output) {m : Nat}
    (hp : pieces.map Prod.fst = (responseStrings c output).take m) (hm : m ≤ responseCount c output) :
    ((cl.gotAll c σ pieces).subpacketVectors []).length = (cl.subpacketVectors []).length + m ∧
      ∃ called, (cl.gotAll c σ pieces).calls = cl.calls ++ called ∧
        called.length = if (cl.subpacketVectors []).length < responseCount c output ∧
          responseCount c output ≤ (cl.subpacketVectors []).length + m then 1 else 0 := by
  have hcount : (responseSubpackets c output).length = responseCount c output := length_subpackets _
  have hlen : ((responseSubpackets c output).take m).length = m := by
    rw [List.length_take, hcount, Nat.min_eq_left hm]
  have hd : (pieces.map Prod.fst).map (fromString c {}) =
      ((responseSubpackets c output).take m).map fun sp => (true, sp) := by
    rw [hp, List.map_take, decode_responseStrings hc h, List.map_take]
  have hsps : ∀ sp ∈ (responseSubpackets c output).take m,
      sp.guid = [] ∧ sp.subPacketTotalCount = responseCount c output := by
    intro sp hsp
    obtain ⟨-, hguid, -, htotal, -⟩ := mem_subpackets (List.mem_of_mem_take hsp)
    exact ⟨hguid, htotal⟩
  obtain ⟨hvector, called, hcalls, hone⟩ :=
    gotAll_subpackets (σ := σ) cl (Nat.ne_of_gt (responseCount_pos output)) hd hsps
  rw [hlen] at hone
  refine ⟨?_, called, hcalls, hone⟩
  rw [hvector.length_eq, List.length_append, hlen]

/-- The first response of all is delivered. -/
theorem gotAll_first (hc : c.Lawful) {cl : TransportClient} (hcl : cl.subpacketVectors [] = [])
    {pieces : List (Bytes × Option Bytes)} {output : Bytes} (h : Separated c output)
    (hp : pieces.map Prod.fst = responseStrings c output) :
    (cl.gotAll c σ pieces).calls = cl.calls ++ [output] := by
  have hn := responseCount_pos (c := c) output
  have hlen : pieces.length = responseCount c output := by
    rw [← length_responseStrings h, ← hp, List.length_map]
  have hcount : (responseSubpackets c output).length = responseCount c output := length_subpackets _
  have hd := decode_responseStrings hc h
  -- All but the last only fill the vector; the last finds the others there.
  obtain ⟨init, last, rfl⟩ := List.eq_nil_or_concat pieces |>.resolve_left (by rintro rfl; simp at hlen; omega)
  obtain ⟨inits, sp, hsps⟩ := List.eq_nil_or_concat (responseSubpackets c output) |>.resolve_left (by
    intro hnil
    rw [hnil, List.length_nil] at hcount
    omega)
  rw [← hp, hsps] at hd
  simp only [List.concat_eq_append, List.map_append, List.map_cons, List.map_nil] at hd
  obtain ⟨hinit, hlast⟩ := List.append_inj' hd rfl
  have hmem : ∀ sp' ∈ inits ++ [sp], sp'.guid = [] ∧ sp'.subPacketTotalCount = responseCount c output := by
    intro sp' hsp'
    rw [← List.concat_eq_append, ← hsps] at hsp'
    obtain ⟨-, hguid, -, htotal, -⟩ := mem_subpackets hsp'
    exact ⟨hguid, htotal⟩
  obtain ⟨hvector, called, hcalls, hone⟩ := gotAll_subpackets (σ := σ) cl (n := responseCount c output)
    (Nat.ne_of_gt hn) hinit fun sp' hsp' => hmem sp' (List.mem_append_left _ hsp')
  obtain ⟨hguid, htotal⟩ := hmem sp (by simp)
  obtain ⟨-, hlastCall⟩ := gotResponse_subpacket (σ := σ) (cl.gotAll c σ init) (by simpa using hlast) hguid
    (htotal ▸ Nat.ne_of_gt hn) last.2
  rw [hcl, List.nil_append] at hvector
  rw [hsps, List.concat_eq_append, List.length_append, List.length_singleton] at hcount
  have hnone : called = [] := by
    apply List.length_eq_zero_iff.1
    rw [hone, if_neg]
    rw [hcl, List.length_nil]
    omega
  have hperm : ((cl.gotAll c σ init).subpacketVectors [] ++ [sp]).Perm (responseSubpackets c output) := by
    rw [hsps, List.concat_eq_append]
    exact hvector.append_right _
  have htext : joined (responseSubpackets c output) = toString c { payload := output } :=
    joined_subpackets_eq fun hlost => h.2 hlost.2
  have hsnoc : cl.gotAll c σ (init.concat last) = (cl.gotAll c σ init).gotResponse c σ last.1 last.2 := by
    rw [List.concat_eq_append, gotAll_append]
    rfl
  rw [hsnoc, hlastCall, hvector.length_eq, htotal, if_pos hcount, hcalls, hnone, List.append_nil,
    fromSubpackets_perm hperm]
  have hback : (sp.fromString c (joined (responseSubpackets c output))).2.payload = output := by
    rw [htext, fromString_toString hc]
    rfl
  exact congrArg (fun out => cl.calls ++ [out]) hback

/-! ## Sequences of responses -/

/-- The responses whose strings are all among the first `n`. -/
def receivedInFull (c : Codec) : List Bytes → Nat → List Bytes
  | [], _ => []
  | output :: responses, n =>
    if responseCount c output ≤ n then output :: receivedInFull c responses (n - responseCount c output) else []

/-- The callback is invoked once for each response, in order and with its
payload, when its last string is received. -/
def Delivers (c : Codec) (σ : Sorter TransportPacket subPacketNo) (cl : TransportClient) (responses : List Bytes)
    (arrivals : List (Bytes × Option Bytes)) : Prop :=
  ∀ received rest, arrivals = received ++ rest →
    (cl.gotAll c σ received).calls = cl.calls ++ receivedInFull c responses received.length

/-- Each response has more subpackets than all before it and `n` more. -/
def Outgrows (c : Codec) : Nat → List Bytes → Prop
  | _, [] => True
  | n, output :: responses => n < responseCount c output ∧ Outgrows c (n + responseCount c output) responses

theorem not_outgrows_twice (n : Nat) (output : Bytes) : ¬ Outgrows c n [output, output] := by
  rintro ⟨-, htwice, -⟩
  omega

/-- The callback is invoked once at most for each response, and for each only
if each outgrows what is in the vector. -/
theorem calls_le (hc : c.Lawful) (cl : TransportClient) {responses : List Bytes}
    (h : ∀ output ∈ responses, Separated c output) {pieces : List (Bytes × Option Bytes)}
    (hp : pieces.map Prod.fst = responses.flatMap (responseStrings c)) :
    (cl.gotAll c σ pieces).calls.length ≤ cl.calls.length + responses.length ∧
      ((cl.gotAll c σ pieces).calls.length = cl.calls.length + responses.length →
        Outgrows c (cl.subpacketVectors []).length responses) := by
  induction responses generalizing cl pieces with
  | nil =>
    obtain rfl : pieces = [] := by simpa using hp
    exact ⟨Nat.le_refl _, fun _ => trivial⟩
  | cons output responses ih =>
    obtain ⟨hsep, hrest⟩ := List.forall_mem_cons.1 h
    rw [List.flatMap_cons] at hp
    obtain ⟨first, later, rfl, hfirst, hlater⟩ := List.map_eq_append_iff.1 hp
    obtain ⟨hvector, called, hcalls, hone⟩ := gotAll_response (σ := σ) hc cl hsep (m := responseCount c output)
      (by rw [hfirst, ← length_responseStrings hsep, List.take_length]) (Nat.le_refl _)
    obtain ⟨hle, houtgrows⟩ := ih (cl.gotAll c σ first) hrest hlater
    rw [hvector] at houtgrows
    rw [hcalls, List.length_append] at hle houtgrows
    rw [gotAll_append, List.length_cons]
    constructor
    · split at hone <;> omega
    · intro hall
      split at hone
      · next hreached => exact ⟨hreached.1, houtgrows (by omega)⟩
      · omega

/-- Where the callback delivers, what it is called for while a second response
comes is what has come of the sequence from there on. -/
theorem calls_for_second (hc : c.Lawful) {cl : TransportClient} (hcl : cl.subpacketVectors [] = [])
    {first second : Bytes} {responses : List Bytes} (hfirst : Separated c first) (hsecond : Separated c second)
    {arrivals : List (Bytes × Option Bytes)}
    (ha : arrivals.map Prod.fst = (first :: second :: responses).flatMap (responseStrings c))
    (hdelivers : Delivers c σ cl (first :: second :: responses) arrivals) {m : Nat}
    (hm : m ≤ responseCount c second) :
    (if responseCount c first < responseCount c second ∧ responseCount c second ≤ responseCount c first + m
      then 1 else 0) = (receivedInFull c (second :: responses) m).length := by
  rw [List.flatMap_cons, List.flatMap_cons, ← List.take_append_drop m (responseStrings c second),
    List.append_assoc (List.take m _)] at ha
  obtain ⟨pieces₁, later, rfl, hp₁, hlater⟩ := List.map_eq_append_iff.1 ha
  obtain ⟨pieces₂, rest, rfl, hp₂, -⟩ := List.map_eq_append_iff.1 hlater
  have hlen₁ : pieces₁.length = responseCount c first := by
    rw [← length_responseStrings hfirst, ← hp₁, List.length_map]
  have hlen₂ : pieces₂.length = m := by
    have hlen := congrArg List.length hp₂
    rwa [List.length_map, List.length_take, length_responseStrings hsecond, Nat.min_eq_left hm] at hlen
  obtain ⟨hvector, -⟩ := gotAll_response (σ := σ) hc cl hfirst (m := responseCount c first)
    (by rw [hp₁, ← length_responseStrings hfirst, List.take_length]) (Nat.le_refl _)
  rw [hcl, List.length_nil, Nat.zero_add] at hvector
  obtain ⟨-, called, hcalls, hone⟩ := gotAll_response (σ := σ) hc (cl.gotAll c σ pieces₁) hsecond hp₂ hm
  have hnow := hdelivers (pieces₁ ++ pieces₂) rest (by rw [List.append_assoc])
  rw [gotAll_append, hcalls, gotAll_first hc hcl hfirst hp₁, List.length_append, hlen₁, hlen₂, receivedInFull,
    if_pos (Nat.le_add_right _ _), Nat.add_sub_cancel_left, List.append_assoc, List.singleton_append,
    List.append_cancel_left_eq, List.cons.injEq] at hnow
  rw [← hnow.2, hone, hvector]

/-- With two responses, the second is not delivered: the callback is not
invoked for it, or it is before the response has come. -/
theorem not_delivers (hc : c.Lawful) {cl : TransportClient} (hcl : cl.subpacketVectors [] = [])
    {first second : Bytes} {responses : List Bytes} (hfirst : Separated c first) (hsecond : Separated c second)
    {arrivals : List (Bytes × Option Bytes)}
    (ha : arrivals.map Prod.fst = (first :: second :: responses).flatMap (responseStrings c)) :
    ¬ Delivers c σ cl (first :: second :: responses) arrivals := by
  intro hdelivers
  have hpos := responseCount_pos (c := c) first
  by_cases hgrows : responseCount c first < responseCount c second
  · have hle : responseCount c second - responseCount c first ≤ responseCount c second := Nat.sub_le _ _
    have hearly := calls_for_second hc hcl hfirst hsecond ha hdelivers hle
    rw [if_pos (by omega), receivedInFull, if_neg (by omega)] at hearly
    simp at hearly
  · have hlate := calls_for_second hc hcl hfirst hsecond ha hdelivers (Nat.le_refl (responseCount c second))
    rw [if_neg (by omega), receivedInFull, if_pos (Nat.le_refl _)] at hlate
    simp at hlate

theorem delivers_of_length_le_one (hc : c.Lawful) {cl : TransportClient} (hcl : cl.subpacketVectors [] = [])
    {responses : List Bytes} (h : ∀ output ∈ responses, Separated c output) (hle : responses.length ≤ 1)
    {arrivals : List (Bytes × Option Bytes)}
    (ha : arrivals.map Prod.fst = responses.flatMap (responseStrings c)) : Delivers c σ cl responses arrivals := by
  intro received rest hr
  match responses, hle with
  | [], _ =>
    obtain ⟨rfl, -⟩ : received = [] ∧ rest = [] := by simpa [hr] using ha
    simp [gotAll, receivedInFull]
  | [output], _ =>
    have hsep := h output List.mem_cons_self
    rw [hr, List.map_append, List.flatMap_singleton] at ha
    have hlen := congrArg List.length ha
    rw [List.length_append, List.length_map, List.length_map, length_responseStrings hsep] at hlen
    rw [receivedInFull]
    split
    · obtain rfl : rest = [] := List.length_eq_zero_iff.1 (by omega)
      rw [List.map_nil, List.append_nil] at ha
      rw [gotAll_first hc hcl hsep ha]
      rfl
    · next hpart =>
      have htake : received.map Prod.fst = (responseStrings c output).take received.length := by
        rw [← ha, List.take_left' (List.length_map _)]
      obtain ⟨-, called, hcalls, hone⟩ := gotAll_response (σ := σ) hc cl hsep htake (by omega)
      rw [hcl, List.length_nil, if_neg (by omega), List.length_eq_zero_iff] at hone
      rw [hcalls, hone]

/-- Separated responses that the server wrote, received one string a call: the
callback is invoked for each when it has come if and only if there is one at
most. If in the end it was invoked with the payloads of the responses, each
had more subpackets than all before it. -/
theorem responses_delivered_iff (hc : c.Lawful) (cl : TransportClient) (hcl : ∀ guid, cl.subpacketVectors guid = [])
    (s : ConnectionSession) (hs : s.log.written = []) (requests : List (TransportPacket × Bytes))
    (hsep : ∀ x ∈ requests, Separated c x.2) (arrivals : List (Bytes × Option Bytes))
    (ha : arrivals.map Prod.fst = (answerAll c s requests).log.written) :
    (Delivers c σ cl (requests.map Prod.snd) arrivals ↔ requests.length ≤ 1) ∧
      ((cl.gotAll c σ arrivals).calls = cl.calls ++ requests.map Prod.snd → Outgrows c 0 (requests.map Prod.snd)) := by
  have hsep' : ∀ output ∈ requests.map Prod.snd, Separated c output := by
    intro output ho
    obtain ⟨x, hx, rfl⟩ := List.mem_map.1 ho
    exact hsep x hx
  rw [answerAll_written, hs, List.nil_append] at ha
  rw [← List.length_map (f := Prod.snd)]
  generalize requests.map Prod.snd = responses at hsep' ha ⊢
  refine ⟨⟨?_, fun hle => delivers_of_length_le_one hc (hcl []) hsep' hle ha⟩, ?_⟩
  · intro hdelivers
    by_contra hmore
    rcases responses with _ | ⟨first, _ | ⟨second, responses⟩⟩
    · exact hmore (Nat.zero_le 1)
    · exact hmore (Nat.le_refl 1)
    · obtain ⟨hfirst, hrest⟩ := List.forall_mem_cons.1 hsep'
      obtain ⟨hsecond, -⟩ := List.forall_mem_cons.1 hrest
      exact not_delivers hc (hcl []) hfirst hsecond ha hdelivers
  · intro hcalls
    have houtgrows := (calls_le (σ := σ) hc cl hsep' ha).2 (by rw [hcalls, List.length_append])
    rwa [hcl, List.length_nil] at houtgrows

/-- A response of 9000 octets. -/
def longResponse : Bytes := List.replicate 9000 0

theorem separated_longResponse : Separated textCodec longResponse := by
  refine ⟨by rw [longResponse, List.length_replicate]; decide, ?_⟩
  rw [length_toString_request, List.length_nil, length_numeral_digit (by decide), longResponse, List.length_replicate,
    length_numeral_four (by decide) (by decide)]
  decide

/-- The strings of responses, with a callback that returns false. -/
def arrivalsOf (responses : List Bytes) : List (Bytes × Option Bytes) :=
  (responses.flatMap (responseStrings textCodec)).map fun str => (str, none)

theorem arrivalsOf_strings (responses : List Bytes) :
    (arrivalsOf responses).map Prod.fst = responses.flatMap (responseStrings textCodec) := by
  simp [arrivalsOf, Function.comp_def]

theorem responses_delivered_iff_one :
    (Delivers textCodec .merge {} ([(({} : TransportPacket), longResponse)].map Prod.snd) (arrivalsOf [longResponse]) ↔
      [(({} : TransportPacket), longResponse)].length ≤ 1) ∧
      ((({} : TransportClient).gotAll textCodec .merge (arrivalsOf [longResponse])).calls =
        [] ++ [(({} : TransportPacket), longResponse)].map Prod.snd → Outgrows textCodec 0 [longResponse]) :=
  responses_delivered_iff textCodec_lawful {} (fun _ => rfl) (start [[]] []) rfl [({}, longResponse)]
    (by simpa using separated_longResponse) (arrivalsOf [longResponse])
    (by rw [arrivalsOf_strings, answerAll_written]; exact (List.nil_append _).symm)

/-- Of two equal responses the second is never delivered. -/
theorem second_response_lost :
    textCodec.Lawful ∧ Separated textCodec longResponse ∧
      (({} : TransportClient).gotAll textCodec .merge (arrivalsOf [longResponse, longResponse])).calls ≠
        [longResponse, longResponse] := by
  refine ⟨textCodec_lawful, separated_longResponse, ?_⟩
  intro hcalls
  have hsep : ∀ output ∈ [longResponse, longResponse], Separated textCodec output := by
    simpa using separated_longResponse
  have houtgrows := (calls_le (σ := .merge) textCodec_lawful {} hsep (arrivalsOf_strings _)).2 (by rw [hcalls]; simp)
  exact not_outgrows_twice _ _ houtgrows

end ComponentsNetwork.TransportLevel.TransportClient
