import ComponentsNetwork.Transport.Client
import ComponentsNetwork.Transport.ReassemblyTheorems
/-!
# Tokens of requests

- `served_iff`: a client with a registered token is served and a client
  without one is not, if and only if the server makes no difference between
  the client's token and the empty one. `serialize` leaves the token out, so
  what the server decodes has the empty token whoever sent it.
-/

namespace ComponentsNetwork.TransportLevel.ConnectionSession

open Buffers Chunks Numerals TransportPacket TransportClient Reassembly

variable {c : Codec} {σ : Sorter TransportPacket subPacketNo}

/-- The session once the tasks for strings have run, each with what the
callback would return. -/
def processStrings (c : Codec) (σ : Sorter TransportPacket subPacketNo) (s : ConnectionSession)
    (arrivals : List (Bytes × Option Bytes)) : ConnectionSession :=
  arrivals.foldl (fun s x => s.processString c σ x.1 x.2) s

/-- A string gets as far as the token check and passes it. -/
def Passes (c : Codec) (tokenList : List Bytes) (str : Bytes) : Prop :=
  (fromString c {} str).1 = true ∧ (fromString c {} str).2.token ∈ tokenList

/-- A request with `token` that arrives as `arrivals`: with a registered token
every string passes and the callback is invoked once, with the request's
data; without one it is not invoked. -/
structure Serves (c : Codec) (σ : Sorter TransportPacket subPacketNo) (s : ConnectionSession)
    (token requestData : Bytes) (arrivals : List (Bytes × Option Bytes)) : Prop where
  accepted : token ∈ s.tokenList → (∀ x ∈ arrivals, Passes c s.tokenList x.1) ∧
    (processStrings c σ s arrivals).log.calls = s.log.calls ++ [requestData]
  rejected : token ∉ s.tokenList → (processStrings c σ s arrivals).log.calls = s.log.calls

/-! ## What the client sends -/

theorem sends_sent (cl : TransportClient) {strs : List Bytes} (h : ∀ str ∈ strs, 0 ∉ str) :
    (strs.foldl send cl).sent = cl.sent ++ strs := by
  induction strs generalizing cl with
  | nil => simp
  | cons str strs ih =>
    obtain ⟨hstr, hrest⟩ := List.forall_mem_cons.1 h
    have hwhole : str.takeWhile (· ≠ 0) = str := by
      apply List.takeWhile_eq_self_iff.2
      intro b hb
      rw [decide_eq_true_eq]
      rintro rfl
      exact hstr hb
    have hsend : cl.send str = { cl with sent := cl.sent ++ [str] } := by rw [send, hwhole]
    rw [List.foldl_cons, ih _ hrest, hsend]
    simp

/-- Every string of a request is the text of a packet without a token, and
none is cut. -/
theorem mem_requestStrings {p : TransportPacket} {str : Bytes} (h : str ∈ requestStrings c p) :
    ∃ q : TransportPacket, str = q.toString c := by
  unfold requestStrings at h
  split at h
  · obtain ⟨sp, -, rfl⟩ := List.mem_map.1 h
    exact ⟨sp, rfl⟩
  · exact ⟨p, List.mem_singleton.1 h⟩

theorem requestStrings_ne_nil (p : TransportPacket) : requestStrings c p ≠ [] := by
  unfold requestStrings
  split
  · apply List.ne_nil_of_length_pos
    rw [toSubpackets, List.length_map, length_subpackets]
    exact Nat.succ_pos _
  · exact List.cons_ne_nil _ _

theorem connectToHost_true {cl : TransportClient} {reached : Bool} (h : (cl.connectToHost reached).1 = true) :
    cl.connectToHost reached = (true, { cl with connected := true }) := by
  unfold connectToHost at h ⊢
  split
  · next ht => simp [ht] at h
  · next ht =>
    rw [if_neg ht] at h
    split
    · next hport => simp [hport] at h
    · next hport =>
      rw [if_neg hport] at h
      split
      · next hcallback => simp [hcallback] at h
      · next hcallback =>
        rw [if_neg hcallback] at h
        obtain rfl : reached = true := h
        rfl

/-- A request that finds its server sends its strings, and none is cut. -/
theorem request_sent (hc : c.Lawful) {cl : TransportClient} {reached : Bool}
    (h : (cl.connectToHost reached).1 = true) (requestData key : Bytes) :
    (cl.request c requestData key reached).sent =
      cl.sent ++ requestStrings c (cl.requestPacket c key requestData) := by
  unfold request
  rw [connectToHost_true h]
  dsimp only
  rw [sends_sent]
  · rfl
  · intro str hstr
    obtain ⟨q, rfl⟩ := mem_requestStrings hstr
    exact hc.encodeHex_nonzero _

/-! ## What the server does with it -/

/-- Whatever a string decodes to has no token. -/
theorem passes_toString_iff (hc : c.Lawful) (q : TransportPacket) (tokenList : List Bytes) :
    Passes c tokenList (q.toString c) ↔ [] ∈ tokenList := by
  unfold Passes
  rw [fromString_toString hc, load_token]
  exact and_iff_right rfl

theorem processString_rejects {s : ConnectionSession} (h : [] ∉ s.tokenList) (str : Bytes) (reply : Option Bytes) :
    (s.processString c σ str reply).log.calls = s.log.calls ∧
      (s.processString c σ str reply).tokenList = s.tokenList := by
  have htoken : (fromString c {} str).2.token = [] := fromString_token _ _
  unfold processString
  generalize fromString c {} str = x at htoken
  obtain ⟨_ | _, p⟩ := x
  · exact ⟨rfl, rfl⟩
  · have hnot : p.token ∉ s.tokenList := by rwa [show p.token = [] from htoken]
    dsimp only
    unfold process
    rw [if_pos hnot]
    exact ⟨rfl, rfl⟩

/-- Unless the empty token is registered, no callback is invoked. -/
theorem processStrings_rejects {s : ConnectionSession} (h : [] ∉ s.tokenList)
    (arrivals : List (Bytes × Option Bytes)) : (processStrings c σ s arrivals).log.calls = s.log.calls := by
  induction arrivals generalizing s with
  | nil => rfl
  | cons x arrivals ih =>
    obtain ⟨hcalls, htokens⟩ := processString_rejects (c := c) (σ := σ) h x.1 x.2
    have hcons : processStrings c σ s (x :: arrivals) = processStrings c σ (s.processString c σ x.1 x.2) arrivals := rfl
    rw [hcons, ih (htokens ▸ h), hcalls]

/-- Strings that decode to packets are processed as the packets. -/
theorem processStrings_packets {s : ConnectionSession} {arrivals : List (Bytes × Option Bytes)}
    {sps : List TransportPacket}
    (hd : (arrivals.map Prod.fst).map (fromString c {}) = sps.map fun sp => (true, sp)) :
    processStrings c σ s arrivals = processAll c σ s (sps.zip (arrivals.map Prod.snd)) := by
  induction arrivals generalizing s sps with
  | nil =>
    obtain rfl : sps = [] := by simpa using hd.symm
    rfl
  | cons x arrivals ih =>
    cases sps with
    | nil => simp at hd
    | cons sp sps =>
      simp only [List.map_cons, List.cons.injEq] at hd
      have hcons : processStrings c σ s (x :: arrivals) = processStrings c σ (s.processString c σ x.1 x.2) arrivals :=
        rfl
      have hfirst : s.processString c σ x.1 x.2 = s.process c σ sp x.2 := by
        unfold processString
        rw [hd.1]
      rw [hcons, ih hd.2, hfirst]
      rfl

/-- If the empty token is registered, the callback is invoked for a packet
that comes in subpackets, none of which is lost. -/
theorem processStrings_subpackets (hc : c.Lawful) {tokenList : List Bytes} (h : [] ∈ tokenList) (data : Bytes)
    {p : TransportPacket} (hlen : ¬ (0 < (p.toString c).length ∧ MAX_PACKET_SIZE_B ∣ (p.toString c).length))
    {arrivals : List (Bytes × Option Bytes)} (ha : arrivals.map Prod.fst = p.toSubpackets c) :
    (processStrings c σ (start tokenList data) arrivals).log.calls = [p.payload] := by
  have hd : (arrivals.map Prod.fst).map (fromString c {}) = (p.subpackets c).map fun sp => (true, sp) := by
    rw [ha, decode_toSubpackets hc]
  have hlength : (p.subpackets c).length ≤ (arrivals.map Prod.snd).length := by
    have hcount := congrArg List.length ha
    rw [List.length_map, toSubpackets, List.length_map] at hcount
    rw [List.length_map, hcount]
  have hparts : ((p.subpackets c).zip (arrivals.map Prod.snd)).map Prod.fst = p.subpackets c :=
    List.map_fst_zip hlength
  -- A family of one message.
  have harrives : Arrives [Message.ofPacket hc p hlen] (start tokenList data).tokenList
      ((p.subpackets c).zip (arrivals.map Prod.snd)) := {
    guids := List.nodup_singleton _
    each_once := by
      rw [hparts, List.flatMap_singleton]
      exact List.Perm.refl _
    accepted := by
      intro a hmem
      have hsp : a.1 ∈ p.subpackets c := hparts ▸ List.mem_map_of_mem hmem
      rw [(mem_subpackets hsp).1]
      exact h }
  have hcalls := calls_run (σ := σ) harrives (fun _ => rfl) (List.append_nil _).symm
  have hall : [Message.ofPacket hc p hlen].filter (fun m => m.complete
      (((p.subpackets c).zip (arrivals.map Prod.snd)).map Prod.fst)) = [Message.ofPacket hc p hlen] := by
    apply List.filter_eq_self.2
    intro m hm
    rw [List.mem_singleton.1 hm, hparts]
    exact Message.complete_iff.2 fun _ hsp => hsp
  rw [hall] at hcalls
  rw [processStrings_packets hd]
  exact List.perm_singleton.1 hcalls

/-- The same for a packet that comes whole. -/
theorem processString_whole (hc : c.Lawful) {s : ConnectionSession} (h : [] ∈ s.tokenList) {p : TransportPacket}
    (htotal : p.subPacketTotalCount = 0) (reply : Option Bytes) :
    (s.processString c σ (p.toString c) reply).log.calls = s.log.calls ++ [p.payload] := by
  have htoken : (({} : TransportPacket).load p.serialized).token ∈ s.tokenList := h
  have hwhole : ¬ 0 < (({} : TransportPacket).load p.serialized).subPacketTotalCount := by
    show ¬ 0 < p.subPacketTotalCount
    omega
  unfold processString
  rw [fromString_toString hc]
  dsimp only
  unfold process
  rw [if_neg (not_not_intro htoken), if_neg hwhole]
  exact (answer_calls _ _ _).1

/-- If the empty token is registered, the callback is invoked for a request,
whole or in subpackets. -/
theorem processStrings_accepts (hc : c.Lawful) {tokenList : List Bytes} (h : [] ∈ tokenList) (data : Bytes)
    {p : TransportPacket} (htotal : p.subPacketTotalCount = 0)
    (hlen : p.mustBeSeparated = true → ¬ MAX_PACKET_SIZE_B ∣ (p.toString c).length)
    {arrivals : List (Bytes × Option Bytes)} (ha : arrivals.map Prod.fst = requestStrings c p) :
    (processStrings c σ (start tokenList data) arrivals).log.calls = [p.payload] := by
  unfold requestStrings at ha
  split at ha
  · next hsep => exact processStrings_subpackets hc h data (fun hlost => hlen hsep hlost.2) ha
  · cases arrivals with
    | nil => simp at ha
    | cons x arrivals =>
      simp only [List.map_cons, List.cons.injEq, List.map_eq_nil_iff] at ha
      obtain ⟨hx, rfl⟩ := ha
      show ((start tokenList data).processString c σ x.1 x.2).log.calls = [p.payload]
      rw [hx]
      exact processString_whole hc h htotal x.2

/-! ## Requests -/

/-- A request that finds its server, on a new connection: it is served as its
token deserves exactly when its token and the empty one are both registered or
both not. -/
theorem served_iff (hc : c.Lawful) (cl : TransportClient) (hsent : cl.sent = []) (requestData key : Bytes)
    (reached : Bool) (hreached : (cl.connectToHost reached).1 = true)
    (hlen : (cl.requestPacket c key requestData).mustBeSeparated = true →
      ¬ MAX_PACKET_SIZE_B ∣ ((cl.requestPacket c key requestData).toString c).length)
    (tokenList : List Bytes) (data : Bytes) (arrivals : List (Bytes × Option Bytes))
    (ha : arrivals.map Prod.fst = (cl.request c requestData key reached).sent) :
    Serves c σ (start tokenList data) cl.token requestData arrivals ↔ (cl.token ∈ tokenList ↔ [] ∈ tokenList) := by
  rw [request_sent hc hreached, hsent, List.nil_append] at ha
  have haccepts : [] ∈ tokenList → (processStrings c σ (start tokenList data) arrivals).log.calls = [requestData] :=
    fun hempty => processStrings_accepts hc hempty data rfl hlen ha
  have hstrings : ∀ x ∈ arrivals, ∃ q : TransportPacket, x.1 = q.toString c := fun x hx =>
    mem_requestStrings (p := cl.requestPacket c key requestData) (ha ▸ List.mem_map_of_mem hx)
  constructor
  · intro hserves
    constructor
    · intro htoken
      -- Any string of the request passes only if the empty token does.
      obtain ⟨x, hx⟩ : ∃ x, x ∈ arrivals := by
        apply List.exists_mem_of_ne_nil
        rintro rfl
        exact requestStrings_ne_nil _ ha.symm
      obtain ⟨q, hq⟩ := hstrings x hx
      have hpasses := (hserves.accepted htoken).1 x hx
      rw [hq] at hpasses
      exact (passes_toString_iff hc q tokenList).1 hpasses
    · intro hempty
      by_contra htoken
      have hcalls := (haccepts hempty).symm.trans (hserves.rejected htoken)
      exact List.cons_ne_nil _ _ hcalls
  · intro hsame
    constructor
    · intro htoken
      refine ⟨?_, haccepts (hsame.1 htoken)⟩
      intro x hx
      obtain ⟨q, hq⟩ := hstrings x hx
      rw [hq]
      exact (passes_toString_iff hc q tokenList).2 (hsame.1 htoken)
    · intro htoken
      exact processStrings_rejects (fun hempty => htoken (hsame.2 hempty)) arrivals

/-- A client with a token. -/
def tokenClient : TransportClient := { token := octets "token", serverPort := 80, processorCallback := true }

/-- The strings of one of its requests. -/
def tokenArrivals (requestData : Bytes) : List (Bytes × Option Bytes) :=
  (tokenClient.request textCodec requestData (octets "key") true).sent.map fun str => (str, none)

theorem tokenArrivals_strings (requestData : Bytes) :
    (tokenArrivals requestData).map Prod.fst = (tokenClient.request textCodec requestData (octets "key") true).sent := by
  simp [tokenArrivals, Function.comp_def]

/-- The data of a request that is sent in subpackets. -/
def longRequest : Bytes := List.replicate 9000 0

theorem length_longRequest :
    (toString textCodec (tokenClient.requestPacket textCodec (octets "key") longRequest)).length = 18116 := by
  refine (length_toString_request (generateGuid textCodec (octets "key")) longRequest).trans ?_
  have hguid : (generateGuid textCodec (octets "key")).length = 10 := by decide
  have htwo : (numeral 10).length = 2 := by rw [length_numeral_step (by decide), length_numeral_digit (by decide)]
  rw [hguid, htwo, longRequest, List.length_replicate, length_numeral_four (by decide) (by decide)]

theorem length_longArrivals : (tokenArrivals longRequest).length = 3 := by
  have hstrings := congrArg List.length (tokenArrivals_strings longRequest)
  have hsep : (tokenClient.requestPacket textCodec (octets "key") longRequest).mustBeSeparated = true := by
    refine decide_eq_true ?_
    show MAX_PACKET_SIZE_B < longRequest.length
    rw [longRequest, List.length_replicate]
    decide
  have hcount : subpacketCount textCodec (tokenClient.requestPacket textCodec (octets "key") longRequest) = 3 := by
    rw [subpacketCount, length_longRequest]
    rfl
  rw [request_sent textCodec_lawful rfl, requestStrings, if_pos hsep, List.length_map, List.length_append, toSubpackets,
    List.length_map, length_subpackets, hcount] at hstrings
  exact hstrings

theorem served_iff_long :
    (tokenArrivals longRequest).length = 3 ∧
      Serves textCodec .merge (start [[], octets "token"] []) tokenClient.token longRequest
        (tokenArrivals longRequest) := by
  refine ⟨length_longArrivals, (served_iff textCodec_lawful tokenClient rfl longRequest (octets "key") true rfl (fun _ => ?_)
    [[], octets "token"] [] (tokenArrivals longRequest) (tokenArrivals_strings longRequest)).2 (by decide)⟩
  rw [length_longRequest]
  decide

/-- A client with the one registered token is not served. -/
theorem registered_token_refused :
    textCodec.Lawful ∧ tokenClient.token ∈ [octets "token"] ∧
      (processStrings textCodec .merge (start [octets "token"] []) (tokenArrivals (octets "hello"))).log.calls ≠ [octets "hello"] := by
  have hempty : [] ∉ (start [octets "token"] []).tokenList := by decide
  refine ⟨textCodec_lawful, List.mem_singleton_self _, ?_⟩
  rw [processStrings_rejects hempty]
  decide

end ComponentsNetwork.TransportLevel.ConnectionSession
