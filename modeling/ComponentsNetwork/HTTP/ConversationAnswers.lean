import ComponentsNetwork.HTTP.AnswerTheorems
import ComponentsNetwork.HTTP.ConversationTheorems
/-!
# What the calls of a conversation are answered with

`calls_answered`: every response is read by one call at most, as the session
meant it. Only the call that makes the connection can read the answer to its
own request: the others read what was there before they wrote theirs.
-/

namespace ComponentsNetwork.HTTP

open Buffers Asio Runs

/-! ## What a call makes of a response -/

/-- The packet as its reader gets it. -/
def Packet.onWire (pkt : Packet) : Packet := { pkt with body := if bodiless pkt.statusCode then [] else pkt.body }

namespace Client

/-- The packet a call makes of an answer of the server. -/
def answerTo (pkt answer : Packet) : Packet :=
  { target := pkt.target
    acceptableType := pkt.acceptableType
    statusCode := answer.statusCode
    bodyType := answer.bodyType
    body := answer.body }

/-- What a call hands to its caller if it is answered with the packet. -/
def fromAnswer (call : Call) (answer : Packet) : Result :=
  match call with
  | .setClientName _ | .setHost .. => .nothing
  | .request _ pkt =>
    .packet (.returns { answerTo pkt answer with isFile := pkt.isFile, fileSavepath := pkt.fileSavepath })
  | .requestConst _ pkt => .packet (.returns (answerTo pkt answer))
  | .requestAsync _ pkt cbk => .callbacks (invoke cbk (some (answerTo pkt answer)))
  | .downloadFile _ file =>
    if file.opens then .downloaded (.returns (answer.statusCode = 200)) (some (file.keeps answer.body))
    else .downloaded (.returns false) file.content
  | .uploadFile .. => .uploaded (.returns (answer.statusCode = 200))

/-- A client without TLS is connected whenever it is reached. -/
theorem connectToHost_reaches {c : Client} (hc : c.secure = false) :
    ∃ c', c.connectToHost reaches = (.returns true, c') ∧ c'.secure = false ∧ c'.socketOpen = true := by
  unfold connectToHost
  split
  · next hopen =>
    simp only [isConnected, reaches, Bool.and_true] at hopen
    exact ⟨c, rfl, hc, hopen⟩
  · refine ⟨c.connected .succeeds, ?_, hc, rfl⟩
    simp [reaches, hc, Connect.ok]

theorem step_reaches {c c' : Client} {call : Call} {x : Exchange} {req : Request} (hc : c.secure = false)
    (hm : c.message call = some req) (h : c.step ⟨call, reaches, x⟩ = some c') :
    c'.secure = false ∧ c'.socketOpen = true := by
  obtain ⟨c₁, hconnect, hplain, hopen⟩ := connectToHost_reaches hc
  rw [step_message (show c.message (Action.mk call reaches x).call = some req from hm) h, sent, hconnect]
  exact ⟨hplain, hopen⟩

/-- A call without a request leaves the connection as it is. -/
theorem step_silent {c c' : Client} {call : Call} {x : Exchange} (hm : c.message call = none)
    (h : c.step ⟨call, reaches, x⟩ = some c') : c'.secure = c.secure ∧ c'.socketOpen = c.socketOpen := by
  cases call with
  | setClientName | setHost =>
    cases h
    exact ⟨rfl, rfl⟩
  | request method pkt | requestConst method pkt | requestAsync method pkt =>
    have hv : requestMethod method = none := Option.map_eq_none_iff.1 hm
    simp only [step, request, requestConst, requestAsync, hv, Option.some.injEq] at h
    subst h
    exact ⟨rfl, rfl⟩
  | downloadFile => cases hm
  | uploadFile target content =>
    cases Option.map_eq_none_iff.1 hm
    cases h
    exact ⟨rfl, rfl⟩

/-- What a call makes of a response depends on the packet that the response
answers with, and on nothing else of the response. -/
theorem result_eq_fromAnswer {c : Client} (hc : c.secure = false) {call : Call} {req : Request}
    (hm : c.message call = some req) {serverName : String} {answer : Packet} {body : ResponseBody} {res : Response}
    (h : ConnectionSession.Answers serverName answer body res) :
    c.result call reaches { res := res.onWire } =
      fromAnswer call ({ answer with body := body.octets } : Packet).onWire := by
  obtain ⟨c', hconnect, -, -⟩ := connectToHost_reaches hc
  have htype : res.onWire.fields.value .content_type = some (Packet.toString answer.bodyType) := h.contentType
  have hbody : res.onWire.body.octets = if bodiless answer.statusCode then [] else body.octets := by
    rw [← h.body, ← h.result]
    rfl
  have hstatus : res.onWire.result = answer.statusCode := h.result
  have hpacket : ∀ pkt : Packet, responsePacket pkt res.onWire =
      answerTo pkt ({ answer with body := body.octets } : Packet).onWire := by
    intro pkt
    simp [responsePacket, answerTo, Packet.onWire, Fields.bodyType, htype, Packet.fromString_toString, hbody, hstatus]
  cases call with
  | setClientName | setHost => rfl
  | request method pkt =>
    obtain ⟨verb, hv, -⟩ := Option.map_eq_some_iff.1 hm
    simp [result, request, fromAnswer, answerTo, Packet.onWire, hconnect, hv, htype, hbody, hstatus,
      Packet.fromString_toString]
  | requestConst method pkt =>
    obtain ⟨verb, hv, -⟩ := Option.map_eq_some_iff.1 hm
    simp [result, requestConst, fromAnswer, hconnect, hv, hpacket]
  | requestAsync method pkt cbk =>
    obtain ⟨verb, hv, -⟩ := Option.map_eq_some_iff.1 hm
    simp [result, requestAsync, fromAnswer, hconnect, hv, hpacket, writeHandler, readHandler]
  | downloadFile target file =>
    simp only [result, downloadFile, fromAnswer, hconnect, hbody, hstatus, Packet.onWire, Bool.and_self, if_true]
    split <;> rfl
  | uploadFile target content =>
    obtain ⟨content, rfl, -⟩ := Option.map_eq_some_iff.1 hm
    simp [result, uploadFile, fromAnswer, hconnect, hstatus, Packet.onWire]

end Client

namespace Conversation

open ConnectionSession

variable {H : Type} (reason : Nat → String)

/-! ## Where the responses are -/

/-- The responses read, and after them those on the connection, are in the
order in which the session has started them. -/
structure Placed (s : Conversation H) : Prop where
  ordered : (s.ended.filterMap Ended.source ++ s.toClient.filterMap id).Pairwise (· < ·)
  started : ∀ j ∈ s.ended.filterMap Ended.source ++ s.toClient.filterMap id, j < s.session.log.started.length

theorem leftOf_sublist (xs : List (Option Nat)) (gone : Nat) (torn : Bool) :
    ((Client.Link.leftOf xs gone torn).filterMap id).Sublist (xs.filterMap id) := by
  unfold Client.Link.leftOf
  split
  · rw [List.filterMap_cons_none rfl]
    exact (List.drop_sublist _ xs).filterMap id
  · exact (List.drop_sublist _ xs).filterMap id

/-- A response read to its end is gone. -/
theorem leftOf_sublist_tail (j : Nat) (xs : List (Option Nat)) {gone : Nat} {torn : Bool} (h : 0 < gone ∨ torn = true) :
    ((Client.Link.leftOf (some j :: xs) gone torn).filterMap id).Sublist (xs.filterMap id) := by
  unfold Client.Link.leftOf
  split
  · rw [List.filterMap_cons_none rfl]
    exact (List.drop_sublist gone xs).filterMap id
  · next hrest =>
    cases gone with
    | zero => simp_all
    | succ gone => exact (List.drop_sublist gone xs).filterMap id

theorem next_eq {s : Conversation H} {x : Nat × Response} (h : s.next = some x) :
    ∃ o resp rest, s.toClient = some x.1 :: rest ∧ s.session.log.started[x.1]? = some (o, resp) ∧ x.2 = resp.onWire := by
  obtain ⟨j, hj, h⟩ := Option.bind_eq_some_iff.1 h
  obtain ⟨⟨o, resp⟩, hstarted, rfl⟩ := Option.map_eq_some_iff.1 h
  cases hclient : s.toClient with
  | nil => simp [hclient] at hj
  | cons y rest =>
    rw [hclient] at hj
    cases hj
    exact ⟨o, resp, rest, rfl, hstarted, rfl⟩

theorem found_eq {s : Conversation H} {ok : Bool} {x : Nat × Response} (h : s.found ok = some x) :
    ok = true ∧ s.next = some x := by
  simp only [found, Option.ite_none_right_eq_some, Bool.and_eq_true] at h
  exact ⟨h.1.1, h.2⟩

/-- A handler of the session takes no response back. -/
theorem started_grows {c c' : ConnectionSession H} {a : ConnectionSession.Action H}
    (h : ConnectionSession.step reason c a = some c') : c.log.started <+: c'.log.started := by
  obtain ⟨-, hsends⟩ := step_sending reason h
  split at hsends
  · rw [hsends.1]
  · obtain ⟨resp, -, hnew, -⟩ := hsends
    rw [hnew]
    exact List.prefix_append _ _

/-- What a read takes and leaves is in order on the connection before. -/
theorem found_sublist {s : Conversation H} {ok : Bool} {gone : Nat} {torn : Bool}
    (complete : ok = true → s.complete gone torn = true) :
    (((s.found ok).map Prod.fst).toList ++ (Client.Link.leftOf s.toClient gone torn).filterMap id).Sublist
      (s.toClient.filterMap id) := by
  cases hfound : s.found ok with
  | none => exact leftOf_sublist s.toClient gone torn
  | some y =>
    obtain ⟨hok, hnext⟩ := found_eq hfound
    obtain ⟨o, resp, rest, hclient, -, -⟩ := next_eq hnext
    have hgone : 0 < gone ∨ torn = true := by
      have hcomplete := complete hok
      simp only [Conversation.complete, Bool.and_eq_true, Bool.or_eq_true, decide_eq_true_eq] at hcomplete
      exact hcomplete.2.imp_right fun htorn => htorn.1
    rw [hclient]
    exact (leftOf_sublist_tail y.1 rest hgone).cons_cons y.1

/-- What a handler of the session starts comes after all it has started. -/
theorem Placed.sends {s : Conversation H} (hp : Placed s) {c : ConnectionSession H}
    (hle : s.session.log.started.length ≤ c.log.started.length) (toServer : List (Option Request)) :
    Placed { s with session := c, toServer, toClient := s.toClient ++ s.sends c } := by
  obtain ⟨hordered, hstarted⟩ := hp
  have hkept : ∀ j ∈ s.ended.filterMap Ended.source ++ s.toClient.filterMap id, j < c.log.started.length :=
    fun j hj => Nat.lt_of_lt_of_le (hstarted j hj) hle
  unfold Conversation.sends
  split
  · next hnew =>
    simp only [Bool.and_eq_true, decide_eq_true_eq] at hnew
    have hlast : ([some s.session.log.started.length] : List (Option Nat)).filterMap id =
      [s.session.log.started.length] := rfl
    refine ⟨?_, ?_⟩
    · rw [List.filterMap_append, hlast, ← List.append_assoc, List.pairwise_append]
      refine ⟨hordered, List.pairwise_singleton _ _, fun i hi j hj => ?_⟩
      cases List.mem_singleton.1 hj
      exact hstarted i hi
    · rw [List.filterMap_append, hlast, ← List.append_assoc, List.forall_mem_append, List.forall_mem_singleton]
      exact ⟨hkept, hnew.2⟩
  · rw [List.append_nil]
    exact ⟨hordered, hkept⟩

theorem placed_step (s : Conversation H) (a : Action H) (s' : Conversation H) (hp : Placed s)
    (h : step reason s a = some s') : Placed s' := by
  cases step_taken reason h with
  | silent | asks => exact ⟨hp.ordered, hp.started⟩
  | cut | unsent =>
    refine ⟨?_, ?_⟩
    · simpa [List.filterMap_append] using hp.ordered
    · simpa [List.filterMap_append] using hp.started
  | session stepped => exact hp.sends (started_grows reason stepped).length_le _
  | @reads asking ok gone torn res client x waiting complete =>
    have hsub := (found_sublist complete).append_left (s.ended.filterMap Ended.source)
    have hone : ∀ e : Ended, [e].filterMap Ended.source = e.source.toList := by
      intro e
      cases he : e.source <;> simp [he]
    rw [← List.append_assoc] at hsub
    refine ⟨?_, fun j hj => hp.started j (hsub.subset ?_)⟩
    · rw [List.filterMap_append, hone]
      exact hp.ordered.sublist hsub
    · rwa [List.filterMap_append, hone] at hj

/-! ## What a call reads -/

/-- How the call whose read has not ended stands to the connection. -/
structure Pending (s : Conversation H) (a : Asking) : Prop where
  request : ∃ req, s.client.message a.call = some req ∧ s.written[a.number]? = some (some (a.call, req))
  before : a.before ≤ s.session.log.started.length
  alone : a.connects = true → a.number = 0 ∧ s.written.length = 1
  peeked : a.connects = false → s.toClient ≠ [] ∧ ∀ j, s.toClient.head?.join = some j → j < a.before
  earlier : none ∉ s.written.take a.number → ∀ x ∈ s.session.log.started.take a.before,
    ∀ k, x.1.request = some k → k < a.number

/-- Response `j`, which the session sent for `o`, is what the call has read:
its result is made of the packet that the run accounts for. A call that found
the connection there reads a response started before it wrote its request, and
so, as long as no request was cut, none that answers this request or a later
one. -/
structure Answered (s : Conversation H) (as : List (Action H)) (e : Ended) (j : Nat) (o : Origin) : Prop where
  started : s.session.log.started[j]?.map Prod.fst = some o
  result : ∃ answer, Caused reason (as.filterMap Action.side) o answer ∧
    e.result = Client.fromAnswer e.call answer.onWire
  request : ∃ req, s.written[e.number]? = some (some (e.call, req))
  earlier : e.connects = false → j < e.before
  own : none ∉ s.written.take e.number → ∀ k, o.request = some k →
    if e.connects then k = e.number else k < e.number

/-- How a conversation stands to what was done in it. -/
structure Accounted (s : Conversation H) (as : List (Action H)) : Prop where
  plain : s.client.secure = false
  wired : Wired s
  placed : Placed s
  shows : ∀ x ∈ s.session.log.started, Shows reason (as.filterMap Action.side) x ∧
    ∀ k, x.1.request = some k → k < s.session.log.received.length
  fresh : s.client.socketOpen = false → s.waiting = none → s.written = []
  pending : ∀ a, s.waiting = some a → s.Pending a
  answered : ∀ e ∈ s.ended, ∀ j, e.source = some j → ∃ o, Answered reason s as e j o

/-- Without a cut, no more requests are read than were written. -/
theorem Wired.received_le {s : Conversation H} (h : Wired s) (hcut : none ∉ s.written) :
    s.session.log.received.length ≤ s.written.length := by
  have hfifo := congrArg List.length (h.carried.fifo (by simpa using hcut))
  simp only [List.length_map, List.length_append] at hfifo
  omega

theorem pending_asks {s : Conversation H} {as : List (Action H)} (ha : Accounted reason s as) {call : Client.Call}
    {req : Request} (free : s.waiting = none) (message : s.client.message call = some req)
    (peek : s.client.socketOpen = true → s.toClient ≠ []) :
    Pending { s with
      waiting := some (s.asking call)
      toServer := s.toServer ++ [some req]
      written := s.written ++ [some (call, req)] } (s.asking call) := by
  refine ⟨⟨req, message, List.getElem?_concat_length⟩, Nat.le_refl _, fun hconnects => ?_, fun hconnects => ?_,
    fun hcut x hx k hk => ?_⟩
  · -- Nothing was written before the connection was made.
    have hnone := ha.fresh (by simpa [asking] using hconnects) free
    simp [asking, hnone]
  · refine ⟨peek (by simpa [asking] using hconnects), fun j hj => ?_⟩
    refine ha.placed.started j (List.mem_append_right _ ?_)
    exact List.mem_filterMap.2 ⟨some j, List.mem_of_mem_head? (Option.join_eq_some_iff.1 hj), rfl⟩
  · have hwritten : none ∉ s.written := by simpa [asking] using hcut
    exact Nat.lt_of_lt_of_le ((ha.shows x (List.mem_of_mem_take hx)).2 k hk) (ha.wired.received_le hwritten)

theorem Pending.session {s : Conversation H} {p : Asking} (hp : s.Pending p) {a : ConnectionSession.Action H}
    {c : ConnectionSession H} (stepped : s.session.step reason a = some c) (toServer : List (Option Request)) :
    Pending { s with session := c, toServer, toClient := s.toClient ++ s.sends c } p := by
  obtain ⟨hrequest, hbefore, halone, hpeeked, hearlier⟩ := hp
  obtain ⟨new, hnew⟩ := started_grows reason stepped
  have htake : c.log.started.take p.before = s.session.log.started.take p.before := by
    rw [← hnew, List.take_append_of_le_length hbefore]
  refine ⟨hrequest, ?_, halone, fun hconnects => ?_, ?_⟩
  · exact Nat.le_trans hbefore (started_grows reason stepped).length_le
  · obtain ⟨hne, hhead⟩ := hpeeked hconnects
    refine ⟨List.append_ne_nil_of_left_ne_nil hne _, fun j hj => hhead j ?_⟩
    rw [← hj, List.head?_append_of_ne_nil _ hne]
  · rw [htake]
    exact hearlier

theorem getElem?_extended {A : Type} {xs ys : List A} (h : xs <+: ys) {i : Nat} {x : A} (hx : xs[i]? = some x) :
    ys[i]? = some x := by
  obtain ⟨hlt, rfl⟩ := List.getElem?_eq_some_iff.1 hx
  exact List.prefix_iff_getElem?.1 h i hlt

theorem Answered.grow {s s' : Conversation H} {as : List (Action H)} {e : Ended} {j : Nat} {o : Origin}
    (ha : Answered reason s as e j o) (a : Action H) (hstarted : s.session.log.started <+: s'.session.log.started)
    (hwritten : s.written <+: s'.written) : Answered reason s' (as ++ [a]) e j o := by
  obtain ⟨hj, ⟨answer, hcaused, hresult⟩, ⟨req, hreq⟩, hearlier, hown⟩ := ha
  have htake : s'.written.take e.number = s.written.take e.number := by
    obtain ⟨new, hnew⟩ := hwritten
    obtain ⟨hlt, -⟩ := List.getElem?_eq_some_iff.1 hreq
    rw [← hnew, List.take_append_of_le_length (Nat.le_of_lt hlt)]
  refine ⟨?_, ⟨answer, hcaused.mono reason ?_, hresult⟩, ⟨req, getElem?_extended hwritten hreq⟩, hearlier, htake ▸ hown⟩
  · obtain ⟨x, hx, rfl⟩ := Option.map_eq_some_iff.1 hj
    rw [getElem?_extended hstarted hx]
    rfl
  · rw [List.filterMap_append]
    exact List.subset_append_left _ _

/-- The call whose read ends with a response of the session is answered. -/
theorem answered_reads {s : Conversation H} {as : List (Action H)} (ha : Accounted reason s as) {asking : Asking}
    (waiting : s.waiting = some asking) {ok : Bool} {j : Nat} {read : Response} (hfound : s.found ok = some (j, read))
    (res : Response) :
    ∃ o, Answered reason s as
      { asking with
        source := some j
        result := s.client.result asking.call Client.reaches
          { read := ok, res := ((s.found ok).map Prod.snd).getD res } } j o := by
  obtain ⟨rfl, hnext⟩ := found_eq hfound
  obtain ⟨o, resp, rest, hclient, hstarted, hread⟩ := next_eq hnext
  obtain ⟨⟨req, hmessage, hwritten⟩, -, halone, hpeeked, hearlier⟩ := ha.pending asking waiting
  obtain ⟨⟨serverName, pkt, body, hanswers, hcaused⟩, hknown⟩ := ha.shows (o, resp) (List.mem_of_getElem? hstarted)
  have hbefore : asking.connects = false → j < asking.before := by
    intro hconnects
    exact (hpeeked hconnects).2 j (by rw [hclient]; rfl)
  refine ⟨o, by rw [hstarted]; rfl, ⟨_, hcaused, ?_⟩, ⟨req, hwritten⟩, hbefore, fun hcut k hk => ?_⟩
  · dsimp only
    rw [hfound]
    rw [Option.map_some, Option.getD_some, show read = resp.onWire from hread]
    exact Client.result_eq_fromAnswer ha.plain hmessage hanswers
  · dsimp only at hcut ⊢
    split
    · next hconnects =>
      -- One request has been written, and it is whole.
      obtain ⟨hnumber, hone⟩ := halone hconnects
      have hwhole : none ∉ s.written := by
        obtain ⟨w, hw⟩ := List.length_eq_one_iff.1 hone
        rw [hw, hnumber] at hwritten
        cases hwritten
        rw [hw]
        simp
      have hlt : k < s.session.log.received.length := hknown k hk
      have hle := ha.wired.received_le hwhole
      omega
    · next hconnects =>
      have hlt := hbefore (by simpa using hconnects)
      refine hearlier hcut (o, resp) ?_ k hk
      exact List.mem_of_getElem? ((List.getElem?_take_of_lt hlt).trans hstarted)

theorem accounted_step (s : Conversation H) (as : List (Action H)) (a : Action H) (s' : Conversation H)
    (ha : Accounted reason s as)
    (hshows : ∀ x ∈ s'.session.log.started, Shows reason ((as ++ [a]).filterMap Action.side) x ∧
      ∀ k, x.1.request = some k → k < s'.session.log.received.length)
    (h : step reason s a = some s') : Accounted reason s' (as ++ [a]) := by
  have hwired := wired_step reason s a s' ha.wired h
  have hplaced := placed_step reason s a s' ha.placed h
  have hold : s.session.log.started <+: s'.session.log.started → s.written <+: s'.written →
      ∀ e ∈ s.ended, ∀ j, e.source = some j → ∃ o, Answered reason s' (as ++ [a]) e j o := by
    intro hstarted hwritten e he j hj
    obtain ⟨o, hanswered⟩ := ha.answered e he j hj
    exact ⟨o, hanswered.grow reason a hstarted hwritten⟩
  -- A call that ends unread adds nothing that has to be answered for.
  have hunread : s.session.log.started <+: s'.session.log.started → s.written <+: s'.written →
      ∀ e : Ended, e.source = none → s'.ended = s.ended ++ [e] →
      ∀ e' ∈ s'.ended, ∀ j, e'.source = some j → ∃ o, Answered reason s' (as ++ [a]) e' j o := by
    intro hstarted hwritten e hnone hended e' he' j hj
    rw [hended] at he'
    rcases List.mem_append.1 he' with he' | he'
    · exact hold hstarted hwritten e' he' j hj
    · cases List.mem_singleton.1 he'
      cases hnone.symm.trans hj
  cases step_taken reason h with
  | silent free message stepped =>
    obtain ⟨hplain, hopen⟩ := Client.step_silent message stepped
    refine ⟨hplain.trans ha.plain, hwired, hplaced, hshows, ?_, ?_, hold (List.prefix_refl _) (List.prefix_refl _)⟩
    · exact fun hclosed => ha.fresh (hopen.symm.trans hclosed)
    · exact fun p hp => by cases free.symm.trans hp
  | asks free message peek =>
    refine ⟨ha.plain, hwired, hplaced, hshows, fun _ hnone => (by cases hnone), fun p hp => ?_,
      hold (List.prefix_refl _) (List.prefix_append _ _)⟩
    cases hp
    exact pending_asks reason ha free message peek
  | cut free message stepped =>
    obtain ⟨hplain, hopen⟩ := Client.step_reaches ha.plain message stepped
    refine ⟨hplain, hwired, hplaced, hshows, fun hclosed => ?_, fun p hp => (by cases hp),
      hunread (List.prefix_refl _) (List.prefix_append _ _) _ rfl rfl⟩
    cases hclosed.symm.trans hopen
  | unsent free message stepped =>
    obtain ⟨hplain, hopen⟩ := Client.step_reaches ha.plain message stepped
    refine ⟨hplain, hwired, hplaced, hshows, fun hclosed => ?_, fun p hp => (by cases hp),
      hunread (List.prefix_refl _) (List.prefix_refl _) _ rfl rfl⟩
    cases hclosed.symm.trans hopen
  | @session a c toServer stepped taken =>
    exact ⟨ha.plain, hwired, hplaced, hshows, ha.fresh, fun p hp => (ha.pending p hp).session reason stepped toServer,
      hold (started_grows reason stepped) (List.prefix_refl _)⟩
  | @reads asking ok gone torn res client x waiting complete exchange stepped =>
    obtain ⟨⟨req, hmessage, -⟩, -⟩ := ha.pending asking waiting
    obtain ⟨hplain, hopen⟩ := Client.step_reaches ha.plain hmessage stepped
    refine ⟨hplain, hwired, hplaced, hshows, fun hclosed => ?_, fun p hp => (by cases hp), fun e he j hj => ?_⟩
    · cases hclosed.symm.trans hopen
    · rcases List.mem_append.1 he with he | he
      · exact hold (List.prefix_refl _) (List.prefix_refl _) e he j hj
      · cases List.mem_singleton.1 he
        obtain ⟨⟨j', read⟩, hfound, rfl⟩ := Option.map_eq_some_iff.1 hj
        obtain ⟨o, hanswered⟩ := answered_reads reason ha waiting hfound res
        subst exchange
        rw [hfound] at hanswered ⊢
        exact ⟨o, hanswered.grow reason _ (List.prefix_refl _) (List.prefix_refl _)⟩

theorem accounted_start (client : Client) (processors : Processors H) (selfServerName : String) (now : Nat) :
    Accounted reason (start client processors selfServerName now) [] := by
  have hnone : (start client processors selfServerName now).session.log.started = [] :=
    congrArg View.started (kept_proceed (accept processors selfServerName false now) .succeeds).view
  refine ⟨rfl, wired_start client processors selfServerName now, ⟨List.Pairwise.nil, fun j hj => ?_⟩, ?_,
    fun _ _ => rfl, fun p hp => (by cases hp), fun e he => absurd he List.not_mem_nil⟩
  · exact absurd hj List.not_mem_nil
  · rw [hnone]
    exact fun x hx => absurd hx List.not_mem_nil

end Conversation

end ComponentsNetwork.HTTP
