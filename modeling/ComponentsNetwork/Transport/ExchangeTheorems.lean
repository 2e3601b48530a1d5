import ComponentsNetwork.Lib.Framing
import ComponentsNetwork.Transport.Exchange
import ComponentsNetwork.Transport.RequestTheorems
import ComponentsNetwork.Transport.ServerTheorems
/-!
# What a transport client gets from its server

Where each read finds one string, the client's next one, and each task finds
what its read has left in the buffer:

- `mirrored`: what the client gets back is what it has sent itself, in order,
  none of it twice, and all of it once nothing is on its way.
- `own_requests_back`: the client's callback is called with the data of the
  client's own requests, each once when it has come back whole.
-/

namespace ComponentsNetwork.TransportLevel

open Buffers Chunks Runs Framing TransportPacket ConnectionSession

variable {c : Codec} {σ : Sorter TransportPacket subPacketNo}

/-- The strings that come to anything when they are written. -/
def onWire (strs : List Bytes) : List Bytes := strs.filter (· ≠ [])

@[simp] theorem onWire_append (xs ys : List Bytes) : onWire (xs ++ ys) = onWire xs ++ onWire ys := List.filter_append ..

theorem stream_onWire (strs : List Bytes) : stream id (onWire strs) = strs.flatten := by
  induction strs with
  | nil => rfl
  | cons str strs ih =>
    cases str with
    | nil => simpa [onWire] using ih
    | cons b str => simpa [onWire] using ih

theorem ne_nil_of_mem_onWire {strs : List Bytes} {str : Bytes} (h : str ∈ onWire strs) : str ≠ [] := by
  simpa using (List.mem_filter.1 h).2

theorem onWire_eq_self {strs : List Bytes} (h : ∀ str ∈ strs, str ≠ []) : onWire strs = strs :=
  List.filter_eq_self.2 (by simpa using h)

/-! ## What the client sends -/

namespace TransportClient

theorem send_sent (cl : TransportClient) (str : Bytes) : (cl.send str).sent = cl.sent ++ [str.takeWhile (· ≠ 0)] := rfl

theorem gotResponse_sent (cl : TransportClient) (piece : Bytes) (reply : Option Bytes) :
    ∃ new, (cl.gotResponse c σ piece reply).sent = cl.sent ++ new ∧ (reply = none → new = []) := by
  unfold gotResponse
  split
  · exact ⟨[], by simp [error], fun _ => rfl⟩
  · dsimp only
    split
    · unfold processSubpacket
      dsimp only
      split
      · cases reply with
        | none => exact ⟨[], by simp, fun _ => rfl⟩
        | some output => exact ⟨_, send_sent _ _, fun h => by cases h⟩
      · exact ⟨[], by simp, fun _ => rfl⟩
    · cases reply with
      | none => exact ⟨[], by simp, fun _ => rfl⟩
      | some output => exact ⟨_, send_sent _ _, fun h => by cases h⟩

/-- What a client has received: the calls and the subpackets it keeps. -/
def seen (cl : TransportClient) : List Bytes × (Bytes → List TransportPacket) := (cl.calls, cl.subpacketVectors)

theorem connectToHost_kept (cl : TransportClient) (reached : Bool) :
    (cl.connectToHost reached).2.sent = cl.sent ∧ (cl.connectToHost reached).2.seen = cl.seen := by
  unfold connectToHost
  split_ifs <;> exact ⟨rfl, rfl⟩

theorem sends_seen (cl : TransportClient) (strs : List Bytes) : (strs.foldl send cl).seen = cl.seen := by
  induction strs generalizing cl with
  | nil => rfl
  | cons str strs ih => exact ih (cl.send str)

/-- A request sends its strings, or nothing at all, and receives nothing. -/
theorem request_strings (hc : c.Lawful) (cl : TransportClient) (requestData key : Bytes) :
    (cl.request c requestData key true).sent = cl.sent ++
        (if (cl.connectToHost true).1 then [cl.requestPacket c key requestData] else []).flatMap (requestStrings c) ∧
      (cl.request c requestData key true).seen = cl.seen := by
  obtain ⟨hsent, hseen⟩ := connectToHost_kept cl true
  by_cases h : (cl.connectToHost true).1 = true
  · rw [if_pos h, List.flatMap_singleton, request_sent hc h]
    refine ⟨rfl, ?_⟩
    unfold request
    rw [connectToHost_true h]
    exact sends_seen _ _
  · rw [if_neg h, List.flatMap_nil, List.append_nil]
    unfold request
    generalize cl.connectToHost true = x at h hsent hseen
    obtain ⟨_ | _, cl'⟩ := x
    · exact ⟨hsent, hseen⟩
    · exact absurd rfl h

/-- What a client makes of a piece depends on what it has received. -/
theorem gotResponse_seen {cl cl' : TransportClient} (h : cl.seen = cl'.seen) (piece : Bytes) (reply : Option Bytes) :
    (cl.gotResponse c σ piece reply).seen = (cl'.gotResponse c σ piece reply).seen := by
  have hcalls : cl.calls = cl'.calls := congrArg Prod.fst h
  have hvectors : cl.subpacketVectors = cl'.subpacketVectors := congrArg Prod.snd h
  unfold gotResponse
  split
  · exact h
  · dsimp only
    split
    · unfold processSubpacket
      dsimp only
      rw [hvectors]
      split
      · cases reply <;> simp [seen, send, hcalls]
      · simp [seen, hcalls]
    · cases reply <;> simp [seen, send, hcalls, hvectors]

end TransportClient

/-! ## What the session passes on -/

namespace ConnectionSession

/-- No read fails, and a task finds what its read has delivered; those of
earlier reads have run. -/
def InTurn (s : ConnectionSession) : Action → Prop
  | .readCompletes _ => True
  | .readFails eof => eof = true
  | .runTask k _ => s.posted.head? = some k ∧ cString s.data = s.log.reads[k]?

/-- What was passed on and what is to be passed on is what was read. -/
structure Faithful (s : ConnectionSession) : Prop where
  posted : ∀ k ∈ s.posted, k < s.log.reads.length
  passed : s.log.passed.map Prod.snd ++ s.posted.map (fun k => s.log.reads[k]?) = s.log.reads.map some

theorem Faithful.passedOn_prefix {s : ConnectionSession} (h : Faithful s) : s.passedOn <+: s.log.reads := by
  have hpassed : s.log.passed.map Prod.snd <+: s.log.reads.map some := ⟨_, h.passed⟩
  have hsome := hpassed.filterMap id
  rwa [List.filterMap_map, List.filterMap_map, Function.id_comp, Function.id_comp, List.filterMap_some] at hsome

theorem Faithful.passedOn_eq {s : ConnectionSession} (h : Faithful s) (hposted : s.posted = []) :
    s.passedOn = s.log.reads := by
  have hpassed := h.passed
  rw [hposted, List.map_nil, List.append_nil] at hpassed
  have hsome := congrArg (List.filterMap id) hpassed
  rwa [List.filterMap_map, List.filterMap_map, Function.id_comp, Function.id_comp, List.filterMap_some] at hsome

theorem faithful_step {s s' : ConnectionSession} {a : Action} (h : Faithful s) (ht : InTurn s a)
    (hs : s.step c σ a = some s') : Faithful s' := by
  obtain ⟨hposted, hpassed⟩ := h
  cases a with
  | readCompletes received =>
    simp only [step, Option.ite_none_right_eq_some, Option.some.injEq] at hs
    obtain ⟨-, rfl⟩ := hs
    refine ⟨fun k hk => ?_, ?_⟩
    · rw [List.length_append, List.length_singleton]
      rcases List.mem_append.1 hk with hk | hk
      · exact Nat.lt_succ_of_lt (hposted k hk)
      · rw [List.mem_singleton.1 hk]
        exact Nat.lt_succ_self _
    · have hearlier : s.posted.map (fun k => (s.log.reads ++ [received])[k]?) = s.posted.map fun k => s.log.reads[k]? :=
        List.map_congr_left fun k hk => List.getElem?_append_left (hposted k hk)
      rw [List.map_append, hearlier, ← List.append_assoc, hpassed]
      simp
  | readFails eof =>
    cases ht
    simp only [step, Option.ite_none_right_eq_some, if_true, Option.some.injEq] at hs
    obtain ⟨-, rfl⟩ := hs
    exact ⟨hposted, hpassed⟩
  | runTask k reply =>
    obtain ⟨hnext, hbuffer⟩ := ht
    simp only [step, Option.ite_none_right_eq_some, Option.some.injEq] at hs
    obtain ⟨-, rfl⟩ := hs
    obtain ⟨-, -, -, hposted', hreads', hpassed'⟩ := frame_runTask c σ s k reply
    obtain ⟨later, hlater⟩ := List.head?_eq_some_iff.1 hnext
    rw [hlater, List.erase_cons_head] at hposted'
    refine ⟨?_, ?_⟩
    · rw [hposted', hreads']
      exact fun j hj => hposted j (by rw [hlater]; exact List.mem_cons_of_mem k hj)
    · rw [hposted', hreads', hpassed', ← hpassed, hlater, hbuffer]
      simp

end ConnectionSession

namespace Link

/-! ## One string at a time -/

/-- A read finds the next string and no more, and the session's steps come in
turn. -/
def Orderly (s : Link) : Action → Prop
  | .request .. => True
  | .sessionReads count => (onWire s.client.sent)[s.session.log.reads.length]? = some (s.toServer.take count)
  | .sessionFails eof => s.session.InTurn (.readFails eof)
  | .sessionRuns k reply => s.session.InTurn (.runTask k reply)
  | .clientReads count _ => (onWire s.session.log.written)[s.pieces.length]? = some (s.toClient.take count)

instance (s : Link) : ∀ a, Decidable (Orderly s a)
  | .request .. => isTrue trivial
  | .sessionReads _ => inferInstanceAs (Decidable (_ = _))
  | .sessionFails _ => inferInstanceAs (Decidable (_ = _))
  | .sessionRuns .. => inferInstanceAs (Decidable (_ ∧ _))
  | .clientReads .. => inferInstanceAs (Decidable (_ = _))

/-- The session has read the client's strings and writes them back, and the
client has read what it has written. -/
structure Mirrors (c : Codec) (s : Link) : Prop where
  refuses : [] ∉ s.session.tokenList
  echoes : s.session.Echoes c
  faithful : s.session.Faithful
  reads : Complete id (onWire s.client.sent) s.toServer s.session.log.reads
  pieces : Complete id (onWire s.session.log.written) s.toClient (s.pieces.map Prod.fst)

/-- What is written is on its way. -/
theorem complete_flatten {strs decoded new : List Bytes} {pending : Bytes}
    (h : Complete id (onWire strs) pending decoded) :
    Complete id (onWire (strs ++ new)) (pending ++ ((strs ++ new).drop strs.length).flatten) decoded := by
  rw [onWire_append, List.drop_left, ← stream_onWire]
  exact complete_writes h (onWire new)

theorem setClient_reads {s : Link} {client : TransportClient} {new reads : List Bytes}
    (h : client.sent = s.client.sent ++ new) (hr : Complete id (onWire s.client.sent) s.toServer reads) :
    Complete id (onWire client.sent) (s.setClient client).toServer reads := by
  unfold setClient
  rw [h]
  exact complete_flatten hr

theorem setSession_pieces {s : Link} {session : ConnectionSession} {new pieces : List Bytes}
    (h : session.log.written = s.session.log.written ++ new)
    (hp : Complete id (onWire s.session.log.written) s.toClient pieces) :
    Complete id (onWire session.log.written) (s.setSession session).toClient pieces := by
  unfold setSession
  rw [h]
  exact complete_flatten hp

theorem mirrors_step (hc : c.Lawful) (s : Link) (a : Action) (s' : Link) (hm : Mirrors c s) (ho : Orderly s a)
    (h : s.step c σ a = some s') : Mirrors c s' := by
  obtain ⟨hrefuses, hechoes, hfaithful, hreads, hpieces⟩ := hm
  cases a with
  | request requestData key =>
    cases h
    obtain ⟨hsent, -⟩ := TransportClient.request_strings hc s.client requestData key
    exact ⟨hrefuses, hechoes, hfaithful, setClient_reads hsent hreads, hpieces⟩
  | sessionReads count =>
    simp only [step, Option.ite_none_right_eq_some] at h
    obtain ⟨-, h⟩ := h
    obtain ⟨session, hs, rfl⟩ := Option.map_eq_some_iff.1 h
    obtain ⟨hechoes', htokens⟩ := ConnectionSession.echoes_step hrefuses hechoes hs
    have hfaithful' := ConnectionSession.faithful_step (a := .readCompletes (s.toServer.take count)) hfaithful trivial hs
    simp only [ConnectionSession.step, Option.ite_none_right_eq_some, Option.some.injEq] at hs
    obtain ⟨-, rfl⟩ := hs
    refine ⟨hrefuses, hechoes', hfaithful', ?_, setSession_pieces (List.append_nil _).symm hpieces⟩
    exact complete_next hreads ho (List.take_append_drop count s.toServer).symm
  | sessionFails eof =>
    obtain ⟨session, hs, rfl⟩ := Option.map_eq_some_iff.1 h
    obtain ⟨hechoes', htokens⟩ := ConnectionSession.echoes_step hrefuses hechoes hs
    have hfaithful' := ConnectionSession.faithful_step (a := .readFails eof) hfaithful ho hs
    cases ho
    simp only [ConnectionSession.step, Option.ite_none_right_eq_some, if_true, Option.some.injEq] at hs
    obtain ⟨-, rfl⟩ := hs
    exact ⟨hrefuses, hechoes', hfaithful', hreads, setSession_pieces (List.append_nil _).symm hpieces⟩
  | sessionRuns k reply =>
    obtain ⟨session, hs, rfl⟩ := Option.map_eq_some_iff.1 h
    obtain ⟨hechoes', htokens⟩ := ConnectionSession.echoes_step hrefuses hechoes hs
    have hfaithful' := ConnectionSession.faithful_step (a := .runTask k reply) hfaithful ho hs
    simp only [ConnectionSession.step, Option.ite_none_right_eq_some, Option.some.injEq] at hs
    obtain ⟨-, rfl⟩ := hs
    rw [ConnectionSession.runTask_echo hrefuses] at hechoes' hfaithful' ⊢
    exact ⟨hrefuses, hechoes', hfaithful', hreads, setSession_pieces rfl hpieces⟩
  | clientReads count reply =>
    simp only [step, Option.ite_none_right_eq_some, Option.some.injEq] at h
    obtain ⟨-, rfl⟩ := h
    obtain ⟨new, hsent, -⟩ := TransportClient.gotResponse_sent (c := c) (σ := σ) s.client (s.toClient.take count) reply
    refine ⟨hrefuses, hechoes, hfaithful, setClient_reads hsent hreads, ?_⟩
    rw [List.map_append]
    refine complete_next hpieces ?_ (List.take_append_drop count s.toClient).symm
    rw [List.length_map]
    exact ho

theorem mirrors_start {client : TransportClient} (hsent : client.sent = []) {tokenList : List Bytes}
    (htokens : [] ∉ tokenList) (data : Bytes) : Mirrors c (start client tokenList data) where
  refuses := htokens
  echoes := ⟨rfl, fun _ => rfl, rfl⟩
  faithful := ⟨by simp [start, ConnectionSession.start], rfl⟩
  reads := ⟨[], by simp [start, ConnectionSession.start, hsent, onWire], rfl⟩
  pieces := ⟨[], rfl, rfl⟩

/-- Nothing is on its way. -/
structure Quiet (s : Link) : Prop where
  toServer : s.toServer = []
  posted : s.session.posted = []
  toClient : s.toClient = []

/-- What the client gets back in the end. -/
def echoed (c : Codec) (s : Link) : List Bytes := onWire ((onWire s.client.sent).filterMap (echo c))

theorem Mirrors.pieces_prefix {s : Link} (h : Mirrors c s) :
    s.pieces.map Prod.fst <+: echoed c s ∧ (Quiet s → s.pieces.map Prod.fst = echoed c s) := by
  have hwritten := h.echoes.written
  unfold echoed
  constructor
  · refine h.pieces.isPrefix.trans ?_
    rw [hwritten]
    exact ((h.faithful.passedOn_prefix.trans h.reads.isPrefix).filterMap _).filter _
  · rintro ⟨htoServer, hposted, htoClient⟩
    have hpieces := h.pieces
    have hreads := h.reads
    rw [htoClient] at hpieces
    rw [htoServer] at hreads
    rw [hpieces.eq_of_nil fun m hm => ne_nil_of_mem_onWire hm, hwritten, h.faithful.passedOn_eq hposted,
      hreads.eq_of_nil fun m hm => ne_nil_of_mem_onWire hm]

/-- In every run whose reads and tasks are orderly, with a server that does
not accept the empty token: the pieces the client reads are the first of what
its own strings decode to, in the order it has sent them, and all of them if
nothing is on its way. The server's callback is not called. -/
theorem mirrored (hc : c.Lawful) (client : TransportClient) (hsent : client.sent = []) (tokenList : List Bytes)
    (htokens : [] ∉ tokenList) (data : Bytes) {as : List Action} {s : Link}
    (horderly : Meets (step c σ) Orderly (start client tokenList data) as)
    (h : run (step c σ) (start client tokenList data) as = some s) :
    s.session.log.calls = [] ∧ s.pieces.map Prod.fst <+: echoed c s ∧
      (Quiet s → s.pieces.map Prod.fst = echoed c s) := by
  have hmirrors : Mirrors c s := run_inv_of_meets (mirrors_step hc) (mirrors_start hsent htokens data) horderly h
  exact ⟨hmirrors.echoes.calls, hmirrors.pieces_prefix⟩

/-! ## The client's own requests -/

open TransportClient (requestStrings)

/-- The client's callback returns false. -/
def Silent : Action → Prop
  | .clientReads _ reply => reply = none
  | _ => True

/-- The keys that were generated. -/
def keys (as : List Action) : List Bytes :=
  as.filterMap fun
    | .request _ key => some key
    | _ => none

/-- What the client has sent are the strings of its requests, and what it has
received comes from the pieces it has read. -/
structure Requested (c : Codec) (σ : Sorter TransportPacket subPacketNo) (client : TransportClient) (s : Link)
    (as : List Action) : Prop where
  sent : s.client.sent = s.requests.flatMap (requestStrings c)
  seen : s.client.seen = (client.gotAll c σ s.pieces).seen
  guids : (s.requests.map guid).Sublist ((keys as).map (generateGuid c))
  whole : ∀ p ∈ s.requests, p.subPacketTotalCount = 0

theorem requested_step (hc : c.Lawful) {client : TransportClient} {s s' : Link} {as : List Action} {a : Action}
    (hr : Requested c σ client s as) (hsilent : Silent a) (h : s.step c σ a = some s') :
    Requested c σ client s' (as ++ [a]) := by
  have hkeys : keys (as ++ [a]) = keys as ++ keys [a] := List.filterMap_append
  obtain ⟨hsent, hseen, hguids, hwhole⟩ := hr
  cases a with
  | request requestData key =>
    cases h
    obtain ⟨hstrings, hkept⟩ := TransportClient.request_strings hc s.client requestData key
    refine ⟨?_, hkept.trans hseen, ?_, ?_⟩
    · show (s.client.request c requestData key true).sent = (s.requests ++ _).flatMap _
      rw [hstrings, hsent, List.flatMap_append]
    · show ((s.requests ++ _).map guid).Sublist _
      rw [hkeys, List.map_append, List.map_append]
      refine hguids.append ?_
      split
      · exact List.Sublist.refl _
      · exact List.nil_sublist _
    · intro p hp
      rcases List.mem_append.1 hp with hp | hp
      · exact hwhole p hp
      · split at hp
        · rw [List.mem_singleton.1 hp]
          rfl
        · cases hp
  | sessionReads count =>
    simp only [step, Option.ite_none_right_eq_some] at h
    obtain ⟨session, -, rfl⟩ := Option.map_eq_some_iff.1 h.2
    exact ⟨hsent, hseen, hkeys.trans (List.append_nil _) ▸ hguids, hwhole⟩
  | sessionFails eof | sessionRuns k reply =>
    obtain ⟨session, -, rfl⟩ := Option.map_eq_some_iff.1 h
    exact ⟨hsent, hseen, hkeys.trans (List.append_nil _) ▸ hguids, hwhole⟩
  | clientReads count reply =>
    simp only [step, Option.ite_none_right_eq_some, Option.some.injEq] at h
    obtain ⟨-, rfl⟩ := h
    obtain ⟨new, hnew, hnone⟩ := TransportClient.gotResponse_sent (c := c) (σ := σ) s.client (s.toClient.take count) reply
    refine ⟨?_, ?_, hkeys.trans (List.append_nil _) ▸ hguids, hwhole⟩
    · show (s.client.gotResponse c σ _ reply).sent = _
      rw [hnew, hnone hsilent, List.append_nil]
      exact hsent
    · show (s.client.gotResponse c σ _ reply).seen = (client.gotAll c σ (s.pieces ++ [_])).seen
      rw [TransportClient.gotAll_concat]
      exact TransportClient.gotResponse_seen hseen _ _

theorem requested_run (hc : c.Lawful) {client : TransportClient} (hsent : client.sent = []) {tokenList : List Bytes}
    {data : Bytes} {as : List Action} {s : Link} (hsilent : ∀ a ∈ as, Silent a)
    (h : run (step c σ) (start client tokenList data) as = some s) : Requested c σ client s as := by
  refine run_history (R := fun s as => (∀ a ∈ as, Silent a) → Requested c σ client s as) ?_ ?_ h hsilent
  · intro _
    exact ⟨hsent, rfl, List.Sublist.refl _, by simp [start]⟩
  · intro s as a s' ih hs hall
    rw [List.forall_mem_append, List.forall_mem_singleton] at hall
    exact requested_step hc (ih hall.1) hall.2 hs

/-- In every such run of a client whose callback returns false: its callback
is called with the data of its own requests, in their order and once for each
whose strings have all come back, which in the end are all. -/
theorem own_requests_back (hc : c.Lawful) (hk : c.Compact) (htext : ∀ p, toString c p ≠ []) (client : TransportClient)
    (hsent : client.sent = []) (hempty : ∀ guid, client.subpacketVectors guid = []) (tokenList : List Bytes)
    (htokens : [] ∉ tokenList) (data : Bytes) {as : List Action} {s : Link}
    (horderly : Meets (step c σ) Orderly (start client tokenList data) as) (hsilent : ∀ a ∈ as, Silent a)
    (hkeys : (keys as).Nodup) (hlength : ∀ key ∈ keys as, key.length = 16)
    (h : run (step c σ) (start client tokenList data) as = some s)
    (hlost : ∀ p ∈ s.requests, p.mustBeSeparated = true → ¬ MAX_PACKET_SIZE_B ∣ (p.toString c).length) :
    s.client.calls = client.calls ++ (wholeIn (requestStrings c) s.requests s.pieces.length).map (·.payload) ∧
      (Quiet s → s.client.calls = client.calls ++ s.requests.map (·.payload)) := by
  have hmirrors : Mirrors c s := run_inv_of_meets (mirrors_step hc) (mirrors_start hsent htokens data) horderly h
  obtain ⟨hstrings, hseen, hguids, hwhole⟩ := requested_run hc hsent hsilent h
  have hnodup : (s.requests.map guid).Nodup := by
    refine hguids.nodup (List.Nodup.map_on ?_ hkeys)
    intro key hkey key' hkey' he
    exact generateGuid_inj hc hk (hlength key hkey) (hlength key' hkey') he
  -- Every string comes back as it is.
  have hechoed : echoed c s = s.requests.flatMap (requestStrings c) := by
    have hsame : ∀ str ∈ s.requests.flatMap (requestStrings c), echo c str = some str ∧ str ≠ [] := by
      intro str hstr
      obtain ⟨p, -, hp⟩ := List.mem_flatMap.1 hstr
      obtain ⟨q, rfl⟩ := mem_requestStrings hp
      refine ⟨?_, htext q⟩
      rw [echo, TransportClient.decoded_toString hc]
      rfl
    unfold echoed
    rw [hstrings, onWire_eq_self fun str hstr => (hsame str hstr).2,
      List.filterMap_congr (fun str hstr => (hsame str hstr).1), List.filterMap_some]
    exact onWire_eq_self fun str hstr => (hsame str hstr).2
  obtain ⟨hpieces, hall⟩ := hmirrors.pieces_prefix
  rw [hechoed] at hpieces hall
  have hcalls : s.client.calls =
      client.calls ++ (wholeIn (requestStrings c) s.requests s.pieces.length).map (·.payload) :=
    (congrArg Prod.fst hseen).trans (TransportClient.gotAll_requests hc client (fun p hp => ⟨hwhole p hp, hlost p hp⟩)
      hnodup (fun p _ => hempty p.guid) hpieces)
  refine ⟨hcalls, fun hquiet => ?_⟩
  have hlen := congrArg List.length (hall hquiet)
  rw [List.length_map] at hlen
  rw [hcalls, wholeIn_eq_self (Nat.le_of_eq hlen.symm)]

/-- Two requests, one written before the other is read, and their way back. -/
def helloExchange : List Action :=
  [.request (octets "hello") (octets "0123456789abcdef"), .request (octets "again") (octets "fedcba9876543210"),
    .sessionReads 172, .sessionRuns 0 none, .sessionReads 172, .clientReads 172 none, .sessionRuns 1 none,
    .clientReads 172 none]

def helloLink : Link := start tokenClient [octets "DEVELOP_TOKEN"] (List.replicate 200 0)

def helloRequests : List TransportPacket :=
  [tokenClient.requestPacket textCodec (octets "0123456789abcdef") (octets "hello"),
    tokenClient.requestPacket textCodec (octets "fedcba9876543210") (octets "again")]

theorem helloExchange_orderly : Meets (step textCodec .merge) Orderly helloLink helloExchange := by
  decide +kernel

theorem helloExchange_run :
    ∃ s ∈ run (step textCodec .merge) helloLink helloExchange, s.requests = helloRequests ∧ s.toServer = [] ∧
      s.session.posted = [] ∧ s.toClient = [] := by
  decide +kernel

theorem mirrored_hello :
    ∃ s, run (step textCodec .merge) helloLink helloExchange = some s ∧ s.session.log.calls = [] ∧
      s.pieces.map Prod.fst = echoed textCodec s := by
  obtain ⟨s, hs, -, hserver, hposted, hclient⟩ := helloExchange_run
  obtain ⟨hcalls, -, hall⟩ := mirrored textCodec_lawful tokenClient rfl [octets "DEVELOP_TOKEN"] (by decide)
    (List.replicate 200 0) helloExchange_orderly hs
  exact ⟨s, hs, hcalls, hall ⟨hserver, hposted, hclient⟩⟩

theorem own_requests_back_hello :
    ∃ s, run (step textCodec .merge) helloLink helloExchange = some s ∧
      s.client.calls = [octets "hello", octets "again"] := by
  obtain ⟨s, hs, hrequests, hserver, hposted, hclient⟩ := helloExchange_run
  have htext : ∀ p, toString textCodec p ≠ [] := by
    intro p
    apply List.ne_nil_of_length_pos
    rw [length_toString]
    have hheader : archiveHeader.length = 32 := by decide
    omega
  have hshort : ∀ p ∈ s.requests, p.mustBeSeparated = true → ¬ MAX_PACKET_SIZE_B ∣ (p.toString textCodec).length := by
    intro p hp hsep
    rw [hrequests] at hp
    rcases List.mem_pair.1 hp with rfl | rfl <;> cases hsep
  obtain ⟨-, hcalls⟩ := own_requests_back textCodec_lawful textCodec_compact htext tokenClient rfl (fun _ => rfl)
    [octets "DEVELOP_TOKEN"] (by decide) (List.replicate 200 0) helloExchange_orderly
    (by simp [helloExchange, Silent]) (by decide) (by decide) hs hshort
  refine ⟨s, hs, (hcalls ⟨hserver, hposted, hclient⟩).trans ?_⟩
  rw [hrequests]
  rfl

end Link

end ComponentsNetwork.TransportLevel
