import ComponentsNetwork.Legacy.ArchiveCodec
import ComponentsNetwork.Lib.Framing
/-!
# What arrives of an exchange

Both sides convert all they can read to one packet: the first. With the
packets written as messages of a stream (`Framing.lean`):

- `exchange_in_order`: requests and responses may be lost, but none is
  invented, repeated or overtaken.
- `nothing_lost_iff`: none is lost if and only if each read takes in one
  packet.
-/

namespace ComponentsNetwork.Legacy.Exchange

open Buffers Runs Framing

variable {c : Codec}

/-! ## Packets as messages -/

variable (c) in
def encode (f : Serialized) : Bytes := c.encodeHex (c.oarchive f)

variable (c) in
def decode (b : Bytes) : Option Serialized := (c.decodeHex b).bind c.iarchive

/-- The packet that is converted back from the fields. -/
def Serialized.packet (f : Serialized) : Packet := { type := f.type, command := f.command, data := f.data, isValid := true }

@[simp] theorem packet_isValid (f : Serialized) : f.packet.isValid = true := rfl

@[simp] theorem serialized_packet (f : Serialized) : f.packet.serialized = f := rfl

theorem packet_serialized {p : Packet} (h : p.isValid = true) : p.serialized.packet = p := by
  cases p
  cases h
  rfl

theorem convert_eq {p : Packet} (h : p.isValid = true) : PacketConverter.convert c p = encode c p.serialized := if_pos h

theorem convertBack_eq {b : Bytes} {f : Serialized} (h : decode c b = some f) :
    PacketConverter.convertBack c b = f.packet := by
  unfold PacketConverter.convertBack
  rw [show (c.decodeHex b).bind c.iarchive = some f from h]
  rfl

/-- A packet is found at the start of what was written, if it was valid. -/
theorem findsFirst (h : c.Lawful) : FindsFirst (encode c) (decode c) := by
  have hfirst : ∀ f rest, decode c (encode c f ++ rest) = (c.decodeHex rest).map fun _ => f := by
    intro f rest
    unfold decode encode
    rw [h.decodeHex_append]
    cases c.decodeHex rest with
    | none => rfl
    | some t => exact h.iarchive_oarchive f t
  have hnil : c.decodeHex [] = some [] := by
    have hempty : c.encodeHex [] = [] := List.length_eq_zero_iff.1 (h.length_encodeHex [])
    have hdecode := h.decodeHex_encodeHex []
    rwa [hempty] at hdecode
  have hstream : ∀ fs, (c.decodeHex (stream (encode c) fs)).isSome = true := by
    intro fs
    induction fs with
    | nil => simp [hnil]
    | cons f fs ih =>
      rw [stream_cons, encode, h.decodeHex_append, Option.isSome_map]
      exact ih
  refine ⟨fun f he => ?_, fun f rest n hn => ?_, fun f fs => ?_⟩
  · have hlen := h.length_encodeHex (c.oarchive f)
    rw [show c.encodeHex (c.oarchive f) = [] from he, List.length_nil] at hlen
    exact h.oarchive_ne_nil f (List.length_eq_zero_iff.1 (by omega))
  · rw [hfirst] at hn
    obtain ⟨t, -, rfl⟩ := Option.map_eq_some_iff.1 hn
    rfl
  · rw [stream_cons, hfirst, Option.isSome_map]
    exact hstream fs

theorem length_encode (h : c.Lawful) (f : Serialized) : 2 ≤ (encode c f).length := by
  have hpos := List.length_pos_iff.2 (h.oarchive_ne_nil f)
  rw [encode, h.length_encodeHex]
  omega

/-- However long it runs, `getMessage` does not return. -/
theorem TcpClientInstance.getMessage_eq_none (t : TcpClientInstance) (fuel : Nat) : t.getMessage fuel = none := by
  induction fuel with
  | zero => rfl
  | succ fuel ih => exact ih

namespace Link

/-! ## What the steps do to the messages -/

/-- The read takes in whole packets. -/
def ReadsWhole (c : Codec) (s : Link) : Action → Prop
  | .workerReads count _ => s.worker.isOpen = true → Whole (encode c) (s.toServer.take count)
  | .clientReads count => Whole (encode c) (s.toClient.take count)
  | _ => True

/-- The read takes in one packet. -/
def ReadsOne (c : Codec) (s : Link) : Action → Prop
  | .workerReads count _ => s.worker.isOpen = true → ∃ f, s.toServer.take count = encode c f
  | .clientReads count => ∃ f, s.toClient.take count = encode c f
  | _ => True

def requests (s : Link) : List Serialized := s.worker.log.map (·.request.serialized)

/-- Every packet in the records is valid. -/
structure Valid (s : Link) : Prop where
  sent : ∀ p ∈ s.sent, p.isValid = true
  requests : ∀ x ∈ s.worker.log, x.request.isValid = true
  answered : ∀ p ∈ s.answered, p.isValid = true
  got : ∀ p ∈ s.got, p.isValid = true

/-- What a step does: nothing to the records; a valid packet sent; a request
processed and, perhaps, its response written; or a response got. -/
inductive Effect (c : Codec) (s : Link) : Action → Link → Prop
  | quiet {a s'} (one : ReadsOne c s a) (sent : s'.sent = s.sent) (toServer : s'.toServer = s.toServer)
      (log : s'.worker.log = s.worker.log) (answered : s'.answered = s.answered) (toClient : s'.toClient = s.toClient)
      (got : s'.got = s.got) : Effect c s a s'
  | sent {p wrote s'} (valid : p.isValid = true) (sent : s'.sent = s.sent ++ [p])
      (toServer : s'.toServer = s.toServer ++ encode c p.serialized) (log : s'.worker.log = s.worker.log)
      (answered : s'.answered = s.answered) (toClient : s'.toClient = s.toClient) (got : s'.got = s.got) :
      Effect c s (.sendMessage p wrote) s'
  | processed {count wrote f processor response s'} (isOpen : s.worker.isOpen = true)
      (decoded : decode c (s.toServer.take count) = some f) (sent : s'.sent = s.sent)
      (toServer : s'.toServer = s.toServer.drop count)
      (log : s'.worker.log = s.worker.log ++ [⟨f.packet, processor, response⟩])
      (answered : s'.answered = s.answered ∧ s'.toClient = s.toClient ∨ response.isValid = true ∧
        s'.answered = s.answered ++ [response] ∧ s'.toClient = s.toClient ++ encode c response.serialized)
      (got : s'.got = s.got) : Effect c s (.workerReads count wrote) s'
  | got {count f s'} (decoded : decode c (s.toClient.take count) = some f) (sent : s'.sent = s.sent)
      (toServer : s'.toServer = s.toServer) (log : s'.worker.log = s.worker.log) (answered : s'.answered = s.answered)
      (toClient : s'.toClient = s.toClient.drop count) (got : s'.got = s.got ++ [f.packet]) :
      Effect c s (.clientReads count) s'

theorem send_effect (s : Link) (p : Packet) (wrote : Bool) : Effect c s (.sendMessage p wrote) (s.send c p wrote) := by
  have hslot : ∀ o client, s.client.sendMessageSlot c p = (o, client) →
      o = none ∨ o = some (PacketConverter.convert c p) := by
    unfold TcpClientInstance.sendMessageSlot
    rintro o client he
    split at he
    · exact .inl (congrArg Prod.fst he).symm
    · split at he
      · exact .inl (congrArg Prod.fst he).symm
      · exact .inr (congrArg Prod.fst he).symm
  unfold send
  rcases he : s.client.sendMessageSlot c p with ⟨o, client⟩
  rcases hslot o client he with rfl | rfl
  · exact .quiet trivial rfl rfl rfl rfl rfl rfl
  · dsimp only
    split
    · next hw =>
      simp only [Bool.and_eq_true, decide_eq_true_eq] at hw
      have hvalid : p.isValid = true := by
        by_contra hv
        rw [PacketConverter.convert, if_neg hv] at hw
        exact hw.2 rfl
      rw [convert_eq hvalid]
      exact .sent hvalid rfl rfl rfl rfl rfl rfl
    · exact .quiet trivial rfl rfl rfl rfl rfl rfl

theorem receive_effect (h : c.Lawful) (s : Link) (count : Nat) (wrote : Bool)
    (hw : ReadsWhole c s (.workerReads count wrote)) :
    Effect c s (.workerReads count wrote) (s.receive c count wrote) := by
  cases hopen : s.worker.isOpen with
  | false =>
    have hnone : s.worker.onMessage c s.processors (s.toServer.take count) = (none, s.worker) := by
      simp [ConnectionWorker.onMessage, hopen]
    unfold receive
    rw [hnone]
    dsimp only
    exact .quiet (fun ho => absurd (hopen.symm.trans ho) (by simp)) rfl (by simp [hopen]) rfl rfl rfl rfl
  | true =>
    obtain ⟨f, fs, hpiece⟩ := hw hopen
    have hdecode : decode c (s.toServer.take count) = some f := by
      rw [hpiece]
      exact (findsFirst h).decode_stream f fs
    have hconvert := convertBack_eq hdecode
    rcases hp : s.processors.process f.packet with ⟨processor, response⟩
    cases hvalid : response.isValid with
    | false =>
      have hon : s.worker.onMessage c s.processors (s.toServer.take count) =
          (none, { s.worker with
            request := f.packet, response, log := s.worker.log ++ [⟨f.packet, processor, response⟩] }) := by
        simp [ConnectionWorker.onMessage, hopen, hconvert, hp, hvalid]
      unfold receive
      rw [hon]
      exact .processed hopen hdecode rfl (by simp [hopen]) rfl (.inl ⟨rfl, rfl⟩) rfl
    | true =>
      have hon : s.worker.onMessage c s.processors (s.toServer.take count) =
          (some (encode c response.serialized), { s.worker with
            request := f.packet, response, log := s.worker.log ++ [⟨f.packet, processor, response⟩]
            responsePacket := encode c response.serialized }) := by
        simp [ConnectionWorker.onMessage, hopen, hconvert, hp, hvalid, convert_eq]
      unfold receive
      rw [hon]
      cases wrote with
      | false => exact .processed hopen hdecode rfl (by simp [hopen]) rfl (.inl ⟨rfl, rfl⟩) rfl
      | true => exact .processed hopen hdecode rfl (by simp [hopen]) rfl (.inr ⟨hvalid, rfl, rfl⟩) rfl

theorem step_effect (h : c.Lawful) {s s' : Link} {a : Action} (hw : ReadsWhole c s a) (hs : step c s a = some s') :
    Effect c s a s' := by
  cases a with
  | setProcessors | clientDisconnects | workerCloses =>
    cases hs
    exact .quiet trivial rfl rfl rfl rfl rfl rfl
  | sendMessage p wrote =>
    cases hs
    exact send_effect s p wrote
  | workerReads count wrote =>
    obtain ⟨-, hs⟩ := Option.ite_none_right_eq_some.1 hs
    cases hs
    exact receive_effect h s count wrote hw
  | clientReads count =>
    obtain ⟨f, fs, hpiece⟩ := hw
    have hdecode : decode c (s.toClient.take count) = some f := by
      rw [hpiece]
      exact (findsFirst h).decode_stream f fs
    have hlen : ¬ (s.toClient.take count).length < 2 := by
      have := length_encode h f
      rw [hpiece, stream_cons, List.length_append]
      omega
    simp only [step, TcpClientInstance.onMessage, hlen, if_false, convertBack_eq hdecode,
      Option.ite_none_right_eq_some, Option.some.injEq] at hs
    obtain ⟨-, rfl⟩ := hs
    exact .got hdecode rfl rfl rfl rfl rfl rfl

/-! ## What is read of what was written -/

/-- The records, and the octets under way, of requests and of responses. -/
structure Accounted (c : Codec) (s : Link) : Prop where
  valid : Valid s
  requests : InOrder (encode c) (s.sent.map Packet.serialized) s.toServer s.requests
  responses : InOrder (encode c) (s.answered.map Packet.serialized) s.toClient (s.got.map Packet.serialized)
  answered : s.answered.Sublist (s.worker.log.map (·.response))

theorem accounted_step (h : c.Lawful) (s : Link) (a : Action) (s' : Link) (hi : Accounted c s) (hw : ReadsWhole c s a)
    (hs : step c s a = some s') : Accounted c s' := by
  obtain ⟨⟨hsent, hlog, hanswered, hgot⟩, hrequests, hresponses, hsub⟩ := hi
  cases step_effect h hw hs with
  | quiet _ e1 e2 e3 e4 e5 e6 =>
    refine ⟨⟨?_, ?_, ?_, ?_⟩, ?_, ?_, ?_⟩ <;> simpa only [Link.requests, e1, e2, e3, e4, e5, e6]
  | @sent p wrote _ hvalid e1 e2 e3 e4 e5 e6 =>
    refine ⟨⟨?_, by rwa [e3], by rwa [e4], by rwa [e6]⟩, ?_, by rwa [e4, e5, e6], by rwa [e3, e4]⟩
    · rw [e1]
      simpa using fun q hq => hq.elim (hsent q) fun hq => hq ▸ hvalid
    · rw [e1, e2, Link.requests, e3, List.map_append]
      exact inOrder_write hrequests p.serialized
  | @processed count wrote f processor response _ hopen hdecode e1 e2 e3 e4 e5 =>
    have hread : InOrder (encode c) (s'.sent.map Packet.serialized) s'.toServer s'.requests := by
      have hpieces := hrequests
      rw [← List.take_append_drop count s.toServer] at hpieces
      obtain ⟨m, hm, hread⟩ := (findsFirst h).inOrder_read hpieces (hw hopen)
      cases hdecode.symm.trans hm
      rw [e1, e2, Link.requests, e3, List.map_append]
      exact hread
    have hlog' : ∀ x ∈ s'.worker.log, x.request.isValid = true := by
      rw [e3]
      simpa using fun x hx => hx.elim (hlog x) fun hx => hx ▸ packet_isValid f
    obtain ⟨ha, hc⟩ | ⟨hvalid, ha, hc⟩ := e4
    · refine ⟨⟨by rwa [e1], hlog', by rwa [ha], by rwa [e5]⟩, hread, by rwa [ha, hc, e5], ?_⟩
      rw [ha, e3, List.map_append]
      exact hsub.trans (List.sublist_append_left _ _)
    · refine ⟨⟨by rwa [e1], hlog', ?_, by rwa [e5]⟩, hread, ?_, ?_⟩
      · rw [ha]
        simpa using fun q hq => hq.elim (hanswered q) fun hq => hq ▸ hvalid
      · rw [ha, hc, e5, List.map_append]
        exact inOrder_write hresponses response.serialized
      · rw [ha, e3, List.map_append]
        exact hsub.append (List.Sublist.refl _)
  | @got count f _ hdecode e1 e2 e3 e4 e5 e6 =>
    refine ⟨⟨by rwa [e1], by rwa [e3], by rwa [e4], ?_⟩, by rwa [e1, e2, Link.requests, e3], ?_, by rwa [e3, e4]⟩
    · rw [e6]
      simpa using fun q hq => hq.elim (hgot q) fun hq => hq ▸ packet_isValid f
    · have hpieces := hresponses
      rw [← List.take_append_drop count s.toClient] at hpieces
      obtain ⟨m, hm, hread⟩ := (findsFirst h).inOrder_read hpieces hw
      cases hdecode.symm.trans hm
      rw [e4, e5, e6, List.map_append]
      exact hread

theorem accounted_start : Accounted c {} :=
  ⟨⟨by simp, by simp, by simp, by simp⟩, ⟨[], [], rfl, rfl, List.Sublist.refl _⟩, ⟨[], [], rfl, rfl, List.Sublist.refl _⟩,
    List.Sublist.refl _⟩

/-- What was decoded, as packets. -/
theorem sublist_of_inOrder {ps qs : List Packet} {pending : Bytes}
    (h : InOrder (encode c) (ps.map Packet.serialized) pending (qs.map Packet.serialized))
    (hp : ∀ p ∈ ps, p.isValid = true) (hq : ∀ q ∈ qs, q.isValid = true) : qs.Sublist ps := by
  have hsame : ∀ {rs : List Packet}, (∀ r ∈ rs, r.isValid = true) →
      (rs.map Packet.serialized).map Serialized.packet = rs := by
    intro rs hr
    rw [List.map_map]
    exact (List.map_congr_left (g := id) fun r hr' => packet_serialized (hr r hr')).trans (List.map_id rs)
  obtain ⟨gone, left, hgone, -, hsub⟩ := h
  have hle : (qs.map Packet.serialized).Sublist (ps.map Packet.serialized) := by
    rw [hgone]
    exact hsub.trans (List.sublist_append_left _ _)
  have hpackets := hle.map Serialized.packet
  rwa [hsame hp, hsame hq] at hpackets

theorem sublists_of_accounted {s : Link} (hi : Accounted c s) :
    (s.worker.log.map (·.request)).Sublist s.sent ∧ s.answered.Sublist (s.worker.log.map (·.response)) ∧
      s.got.Sublist s.answered := by
  have hrequests := hi.requests
  have hmap : s.requests = (s.worker.log.map (·.request)).map Packet.serialized := by simp [Link.requests]
  rw [hmap] at hrequests
  refine ⟨sublist_of_inOrder hrequests hi.valid.sent ?_, hi.answered,
    sublist_of_inOrder hi.responses hi.valid.answered hi.valid.got⟩
  intro p hp
  obtain ⟨x, hx, rfl⟩ := List.mem_map.1 hp
  exact hi.valid.requests x hx

/-- In every run in which each read takes in whole packets, however many: the
requests processed are packets that the client sent, what the worker writes
are responses its processors gave, and the packets of the client's signals are
responses that were written, each in order and at most once. -/
theorem exchange_in_order (h : c.Lawful) (as : List Action) (hw : Meets (step c) (ReadsWhole c) {} as) (s : Link)
    (hs : run (step c) {} as = some s) :
    (s.worker.log.map (·.request)).Sublist s.sent ∧ s.answered.Sublist (s.worker.log.map (·.response)) ∧
      s.got.Sublist s.answered :=
  sublists_of_accounted (run_inv_of_meets (J := Accounted c) (accounted_step h) accounted_start hw hs)

/-- Every read takes in the packets named. -/
def Pieces (requests responses : List Packet) (s : Link) : Action → Prop
  | .workerReads count _ => s.toServer.take count = stream (encode archiveCodec) (requests.map Packet.serialized)
  | .clientReads count => s.toClient.take count = stream (encode archiveCodec) (responses.map Packet.serialized)
  | _ => True

instance (requests responses : List Packet) (s : Link) (a : Action) : Decidable (Pieces requests responses s a) :=
  match a with
  | .workerReads .. | .clientReads _ => inferInstanceAs (Decidable (_ = _))
  | .setProcessors _ | .sendMessage .. | .clientDisconnects | .workerCloses => .isTrue trivial

theorem whole_of_pieces {p q : Packet} {ps qs : List Packet} {s : Link} {a : Action}
    (h : Pieces (p :: ps) (q :: qs) s a) : ReadsWhole archiveCodec s a := by
  cases a with
  | workerReads => exact fun _ => ⟨_, _, h⟩
  | clientReads => exact ⟨_, _, h⟩
  | _ => trivial

/-- A request for information. -/
def ask (command : Bytes) : Packet := { type := INFO_PACKET_TYPE, command, isValid := true }

/-- Two requests that the worker reads at once, with a processor that sends
requests back. -/
def together : List Action :=
  [.setProcessors { infoProcessor := some fun p _ => p }, .sendMessage (ask [97]) true, .sendMessage (ask [98]) true,
    .workerReads 164 true, .clientReads 82]

theorem exchange_in_order_together :
    ∃ s, run (step archiveCodec) {} together = some s ∧ (s.worker.log.map (·.request)).Sublist s.sent ∧
      s.sent.length = 2 ∧ s.got.length = 1 := by
  have hpieces : Meets (step archiveCodec) (Pieces [ask [97], ask [98]] [ask [97]]) {} together := by decide +kernel
  have hwhole := eachStep_mono (fun _ _ _ => whole_of_pieces) hpieces
  have hcounts : (run (step archiveCodec) {} together).map (fun s => (s.sent.length, s.got.length)) = some (2, 1) := by
    decide +kernel
  obtain ⟨s, hs, he⟩ := Option.map_eq_some_iff.1 hcounts
  obtain ⟨hsent, hgot⟩ := Prod.mk.inj he
  exact ⟨s, hs, (exchange_in_order archiveCodec_lawful together hwhole s hs).1, hsent, hgot⟩

/-! ## Nothing lost -/

/-- What was written is decoded or under way, requests and responses. -/
structure Lossless (c : Codec) (s : Link) : Prop where
  requests : Complete (encode c) (s.sent.map Packet.serialized) s.toServer s.requests
  responses : Complete (encode c) (s.answered.map Packet.serialized) s.toClient (s.got.map Packet.serialized)

theorem lossless_step (h : c.Lawful) (s : Link) (a : Action) (s' : Link) (hl : Lossless c s) (hw : ReadsWhole c s a)
    (hs : step c s a = some s') : Lossless c s' ↔ ReadsOne c s a := by
  obtain ⟨hrequests, hresponses⟩ := hl
  cases step_effect h hw hs with
  | quiet hone e1 e2 e3 e4 e5 e6 =>
    refine iff_of_true ⟨?_, ?_⟩ hone
    · rwa [e1, e2, Link.requests, e3]
    · rwa [e4, e5, e6]
  | @sent p wrote _ hvalid e1 e2 e3 e4 e5 e6 =>
    refine iff_of_true ⟨?_, by rwa [e4, e5, e6]⟩ trivial
    rw [e1, e2, Link.requests, e3, List.map_append]
    exact complete_write hrequests p.serialized
  | @processed count wrote f processor response _ hopen hdecode e1 e2 e3 e4 e5 =>
    rw [← List.take_append_drop count s.toServer] at hrequests
    have hread := (findsFirst h).complete_read_iff hrequests (hw hopen) hdecode
    have hone : ReadsOne c s (.workerReads count wrote) ↔ ∃ m, s.toServer.take count = encode c m :=
      ⟨fun hr => hr hopen, fun hr _ => hr⟩
    have hkept : Complete (encode c) (s'.answered.map Packet.serialized) s'.toClient (s'.got.map Packet.serialized) := by
      obtain ⟨ha, hc⟩ | ⟨-, ha, hc⟩ := e4
      · rwa [ha, hc, e5]
      · rw [ha, hc, e5, List.map_append]
        exact complete_write hresponses response.serialized
    have hlog : s'.requests = s.requests ++ [f] := by simp [Link.requests, e3]
    rw [hone, ← hread, ← hlog, ← e1, ← e2]
    exact ⟨fun hl => hl.requests, fun hr => ⟨hr, hkept⟩⟩
  | @got count f _ hdecode e1 e2 e3 e4 e5 e6 =>
    rw [← List.take_append_drop count s.toClient] at hresponses
    have hread := (findsFirst h).complete_read_iff hresponses hw hdecode
    have hkept : Complete (encode c) (s'.sent.map Packet.serialized) s'.toServer s'.requests := by
      rwa [e1, e2, Link.requests, e3]
    have hgot : s'.got.map Packet.serialized = s.got.map Packet.serialized ++ [f] := by simp [e6]
    show _ ↔ ∃ m, s.toClient.take count = encode c m
    rw [← hread, ← hgot, ← e4, ← e5]
    exact ⟨fun hl => hl.responses, fun hr => ⟨hkept, hr⟩⟩

/-- In every run in which each read takes in whole packets, no request and no
response is lost, in any state, if and only if each read takes in exactly one:
of several that have arrived together all but the first are dropped. -/
theorem nothing_lost_iff (h : c.Lawful) (as : List Action) (hw : Meets (step c) (ReadsWhole c) {} as) :
    Always (step c) (Lossless c) {} as ↔ Meets (step c) (ReadsOne c) {} as :=
  always_iff_of (J := fun _ => True) (E := fun s a _ => ReadsWhole c s a) (fun _ _ _ _ _ _ _ => trivial)
    (fun s a s' _ hl hw hs => lossless_step h s a s' hl hw hs) trivial ⟨⟨[], rfl, rfl⟩, ⟨[], rfl, rfl⟩⟩ hw

/-- The same two requests, read one by one. -/
def apart : List Action :=
  [.setProcessors { infoProcessor := some fun p _ => p }, .sendMessage (ask [97]) true, .workerReads 82 true,
    .clientReads 82, .sendMessage (ask [97]) true, .workerReads 82 true, .clientReads 82]

theorem nothing_lost_apart : Always (step archiveCodec) (Lossless archiveCodec) {} apart := by
  have hpieces : Meets (step archiveCodec) (Pieces [ask [97]] [ask [97]]) {} apart := by decide +kernel
  have hwhole := eachStep_mono (fun _ _ _ => whole_of_pieces) hpieces
  refine (nothing_lost_iff archiveCodec_lawful apart hwhole).2 (eachStep_mono (fun s a _ hp => ?_) hpieces)
  cases a with
  | workerReads => exact fun _ => ⟨(ask [97]).serialized, hp.trans (List.append_nil _)⟩
  | clientReads => exact ⟨(ask [97]).serialized, hp.trans (List.append_nil _)⟩
  | _ => trivial

end Link

end ComponentsNetwork.Legacy.Exchange
