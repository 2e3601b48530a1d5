import ComponentsNetwork.HTTP.Client
/-!
# Theorems about the HTTP client

`step_effect` sums up a call: it writes its request, if `connectToHost`
returns true, and does nothing else to the stream but what `connectToHost`
does. The results on what is written are case analyses over the cases of
`connectToHost`. `requests_agree_iff` compares the three functions that make a
request.
-/

namespace ComponentsNetwork.HTTP.Client

open Buffers Runs

/-! ## What a request says -/

/-- The server reads the packet's body type from the request. -/
theorem buildRequest_bodyType (c : Client) (verb : Verb) (pkt : Packet) :
    (c.buildRequest verb pkt).fields.bodyType = pkt.bodyType := by
  have htype : (c.buildRequest verb pkt).fields.value .content_type = some (Packet.toString pkt.bodyType) := by
    unfold buildRequest
    rw [Request.preparePayload_value _ (by decide)]
    simp [Fields.value_set]
  rw [Fields.bodyType, htype]
  exact Packet.fromString_toString pkt.bodyType

/-! ## What a call does to the stream -/

/-- The request a call makes; none for a method without a verb and for a file
that cannot be read. -/
def message (c : Client) : Call → Option Request
  | .setClientName _ | .setHost .. => none
  | .request method pkt | .requestConst method pkt | .requestAsync method pkt _ =>
    (requestMethod method).map fun verb => c.buildRequest verb pkt
  | .downloadFile target _ => some (c.downloadRequest target)
  | .uploadFile target content => content.map (c.uploadRequest target)

/-- The client after `connectToHost` and, if it returns true, the write. -/
def sent (c : Client) (req : Request) (a : Attempt) : Client :=
  match c.connectToHost a with
  | (.returns true, c) => c.write req
  | (_, c) => c

theorem step_message {c c' : Client} {act : Action} {req : Request} (hm : c.message act.call = some req)
    (h : step c act = some c') : c' = c.sent req act.attempt := by
  obtain ⟨call, a, x⟩ := act
  unfold sent
  cases call with
  | setClientName | setHost => cases hm
  | request method pkt | requestConst method pkt | requestAsync method pkt =>
    obtain ⟨verb, hv, rfl⟩ := Option.map_eq_some_iff.1 hm
    simp only [step, request, requestConst, requestAsync, hv, Option.some.injEq] at h
    subst h
    rcases c.connectToHost a with ⟨⟨_ | _⟩ | _, c'⟩ <;> grind
  | downloadFile target file =>
    cases hm
    simp only [step, downloadFile, Option.some.injEq] at h
    subst h
    rcases c.connectToHost a with ⟨⟨_ | _⟩ | _, c'⟩ <;> grind
  | uploadFile target content =>
    obtain ⟨content, rfl, rfl⟩ := Option.map_eq_some_iff.1 hm
    simp only [step, uploadFile, Option.some.injEq] at h
    subst h
    rcases c.connectToHost a with ⟨⟨_ | _⟩ | _, c'⟩ <;> grind

theorem step_no_message {c c' : Client} {act : Action} (hm : c.message act.call = none)
    (h : step c act = some c') : c'.secure = c.secure ∧ c'.log = c.log := by
  obtain ⟨call, a, x⟩ := act
  cases call with
  | setClientName | setHost => cases h; exact ⟨rfl, rfl⟩
  | request method pkt | requestConst method pkt | requestAsync method pkt =>
    have hv : requestMethod method = none := Option.map_eq_none_iff.1 hm
    simp only [step, request, requestConst, requestAsync, hv, Option.some.injEq] at h
    subst h
    exact ⟨rfl, rfl⟩
  | downloadFile => cases hm
  | uploadFile target content =>
    cases Option.map_eq_none_iff.1 hm
    cases h
    exact ⟨rfl, rfl⟩

theorem sent_log (c : Client) (req : Request) (a : Attempt) :
    (c.sent req a).secure = (c.connectToHost a).2.secure ∧
      (c.sent req a).log = (c.connectToHost a).2.log ++
        if (c.connectToHost a).1 = .returns true then [.write req] else [] := by
  unfold sent
  rcases c.connectToHost a with ⟨⟨_ | _⟩ | _, c'⟩ <;> simp [write]

/-! ## Writes to a secured stream -/

/-- What a stream's history amounts to: whether its last TCP connect
succeeded, and whether a handshake has since. -/
structure StreamState where
  connected : Bool := false
  handshaken : Bool := false
deriving DecidableEq

def StreamState.next (s : StreamState) : StreamEvent → StreamState
  | .connect ok => { connected := ok, handshaken := false }
  | .handshake ok => { s with handshaken := s.handshaken || ok }
  | .write _ => s

def streamState (log : List StreamEvent) : StreamState := log.foldl StreamState.next {}

/-- The last TCP connect succeeded and a handshake has succeeded since. -/
def Secured (log : List StreamEvent) : Prop := streamState log = ⟨true, true⟩

/-- Every request was written to a secured stream. -/
def WritesSecured (log : List StreamEvent) : Prop :=
  ∀ pre e post, log = pre ++ e :: post → e matches .write _ → Secured pre

/-- The last handshake tried, in this call or an earlier one, succeeded. -/
def LastHandshake (log : List StreamEvent) : Prop :=
  (log.filter fun e => e matches .handshake _).getLast? = some (.handshake true)

theorem streamState_concat (log : List StreamEvent) (e : StreamEvent) :
    streamState (log ++ [e]) = (streamState log).next e := by
  simp [streamState, List.foldl_append]

theorem lastHandshake_handshake (log : List StreamEvent) (ok : Bool) :
    LastHandshake (log ++ [.handshake ok]) ↔ ok = true := by
  simp [LastHandshake, List.filter_append]

theorem lastHandshake_write (log : List StreamEvent) (req : Request) :
    LastHandshake (log ++ [.write req]) ↔ LastHandshake log := by
  simp [LastHandshake, List.filter_append]

theorem secured_write (log : List StreamEvent) (req : Request) :
    Secured (log ++ [.write req]) ↔ Secured log := by
  unfold Secured
  rw [streamState_concat]
  rfl

theorem secured_connect (log : List StreamEvent) (connect handshake : Bool) :
    Secured (log ++ [.connect connect] ++ [.handshake handshake]) ↔ connect = true ∧ handshake = true := by
  unfold Secured
  rw [streamState_concat, streamState_concat]
  simp [StreamState.next]

theorem writesSecured_concat {log : List StreamEvent} {e : StreamEvent} :
    WritesSecured (log ++ [e]) ↔ WritesSecured log ∧ (e matches .write _ → Secured log) :=
  forall_split_concat (P := fun pre (e : StreamEvent) => e matches .write _ → Secured pre)

/-- `connectToHost` does without a handshake (the socket is open and the peek
succeeds, or the host name cannot be set) only if the last one succeeded, and
handshakes successfully only over a connect of its own that did. -/
def ConnectsSecurely (c : Client) (a : Attempt) : Prop :=
  if c.isConnected a then LastHandshake c.log
  else ∀ first others, a.resolved = some (first, others) →
    if a.sni then a.handshake = true → (a.connect first).ok = true else LastHandshake c.log

/-- Between calls a TLS stream is secured if its last handshake succeeded. -/
def SecuredByHandshake (c : Client) : Prop := c.secure = true ∧ (Secured c.log ↔ LastHandshake c.log)

/-- `connectToHost` of a TLS client writes nothing, and returns true on a
secured stream exactly when it connects securely. -/
theorem connectToHost_effect {c : Client} (hc : SecuredByHandshake c) (a : Attempt) :
    (WritesSecured (c.connectToHost a).2.log ↔ WritesSecured c.log) ∧
      (((c.connectToHost a).1 = .returns true → Secured (c.connectToHost a).2.log) ↔ ConnectsSecurely c a) ∧
      (ConnectsSecurely c a → SecuredByHandshake (c.connectToHost a).2) := by
  obtain ⟨hsecure, hlog⟩ := hc
  unfold connectToHost ConnectsSecurely
  by_cases hopen : c.isConnected a
  · simp only [hopen, if_true]
    exact ⟨trivial, by simp [hlog], fun _ => ⟨hsecure, hlog⟩⟩
  · simp only [hopen, hsecure, if_true, if_false, Bool.false_eq_true]
    rcases hres : a.resolved with _ | ⟨first, others⟩
    · exact ⟨Iff.rfl, by simp, fun _ => ⟨hsecure, hlog⟩⟩
    · by_cases hsni : a.sni
      · simp only [hsni, if_true, handshaken, connected]
        refine ⟨?_, ?_, fun h => ⟨hsecure, ?_⟩⟩
        · rw [writesSecured_concat, writesSecured_concat]
          simp
        · simp only [secured_connect, Outcome.returns.injEq, Option.some.injEq, Prod.mk.injEq, and_imp]
          grind
        · rw [secured_connect, lastHandshake_handshake]
          exact ⟨fun hok => hok.2, fun hok => ⟨h first others rfl hok, hok⟩⟩
      · simp only [hsni, if_false, Bool.false_eq_true]
        exact ⟨trivial, by simp [hlog], fun _ => ⟨hsecure, hlog⟩⟩

/-- If the call makes a request, it connects securely. -/
def CallsSecurely (c : Client) (act : Action) : Prop :=
  c.message act.call ≠ none → ConnectsSecurely c act.attempt

theorem step_securedByHandshake {c c' : Client} {act : Action} (hc : SecuredByHandshake c)
    (hcall : CallsSecurely c act) (h : step c act = some c') : SecuredByHandshake c' := by
  rcases hm : c.message act.call with _ | req
  · obtain ⟨hsecure, hlog⟩ := step_no_message hm h
    unfold SecuredByHandshake
    rw [hsecure, hlog]
    exact hc
  · obtain ⟨-, -, hkeep⟩ := connectToHost_effect hc act.attempt
    obtain ⟨hsecure, hlog⟩ := hkeep (hcall (by simp [hm]))
    cases step_message hm h
    obtain ⟨hsecure', hlog'⟩ := sent_log c req act.attempt
    refine ⟨hsecure'.trans hsecure, ?_⟩
    rw [hlog']
    split
    · rw [secured_write, lastHandshake_write]; exact hlog
    · simpa using hlog

theorem step_writesSecured {c c' : Client} {act : Action} (hc : SecuredByHandshake c)
    (hw : WritesSecured c.log) (h : step c act = some c') : WritesSecured c'.log ↔ CallsSecurely c act := by
  unfold CallsSecurely
  rcases hm : c.message act.call with _ | req
  · simp [(step_no_message hm h).2, hw]
  · obtain ⟨hwrites, hsecured, -⟩ := connectToHost_effect hc act.attempt
    cases step_message hm h
    rw [(sent_log c req act.attempt).2, ← hsecured]
    split
    · next hok => simp [writesSecured_concat, hwrites, hw, hok]
    · next hok => simp [hwrites, hw, hok]

/-- `connectToHost`, if the call comes to it, returns true only on a secured
stream. -/
def TrueWhenSecured (c : Client) (act : Action) : Prop :=
  c.message act.call ≠ none → (c.connectToHost act.attempt).1 = .returns true →
    Secured (c.connectToHost act.attempt).2.log

/-- In every run of a TLS client, every request is written to a secured
stream, and `connectToHost` returns true only on one, if and only if every
call connects securely. -/
theorem writesSecured_iff (acts : List Action) :
    (Always step (fun c => WritesSecured c.log) { secure := true } acts ↔
        Meets step CallsSecurely { secure := true } acts) ∧
      (EachStep step (fun c act _ => TrueWhenSecured c act) { secure := true } acts ↔
        Meets step CallsSecurely { secure := true } acts) := by
  have hnew : SecuredByHandshake { secure := true } := by
    simp [SecuredByHandshake, Secured, streamState, LastHandshake]
  have hkeep : ∀ c act c', SecuredByHandshake c → CallsSecurely c act → step c act = some c' →
      SecuredByHandshake c' := fun _ _ _ hc hcall h => step_securedByHandshake hc hcall h
  refine ⟨?_, ?_⟩
  · apply always_iff hkeep (fun _ _ _ hc hw h => step_writesSecured hc hw h) hnew
    intro pre e post he
    simp at he
  · apply eachStep_iff _ hkeep hnew
    intro c act c' hc _
    exact imp_congr_right fun _ => (connectToHost_effect hc act.attempt).2.1

/-- The server's certificate is refused, the socket stays open, and the next
call writes to it. -/
theorem unverified_write :
    ∃ c, run step { secure := true }
        [⟨.request .Get {}, { resolved := some (⟨"10.0.0.1", 443⟩, []), handshake := false }, {}⟩,
          ⟨.request .Get {}, { resolved := none, peek := true }, {}⟩] = some c ∧
      (∃ req, c.log = [.connect true, .handshake false, .write req]) ∧ ¬ WritesSecured c.log := by
  refine ⟨_, rfl, ⟨_, rfl⟩, fun h => ?_⟩
  have hs : Secured [.connect true, .handshake false] := h _ _ [] rfl rfl
  cases hs

/-! ## The callback of `requestAsync` -/

/-- `connectToHost` does not fail, by the code's own account. -/
def Connects (c : Client) (a : Attempt) : Prop :=
  c.isConnected a = true ∨ ∃ first others, a.resolved = some (first, others) ∧
    if c.secure then a.sni = true → a.handshake = true else (a.connectAny (first :: others)).ok = true

theorem connectToHost_true_iff (c : Client) (a : Attempt) :
    (c.connectToHost a).1 = .returns true ↔ Connects c a := by
  unfold connectToHost Connects
  by_cases hopen : c.isConnected a
  · simp [hopen]
  · rcases hres : a.resolved with _ | ⟨first, others⟩
    · simp [hopen]
    · by_cases hsecure : c.secure
      · by_cases hsni : a.sni <;> simp [hopen, hsecure, hsni]
      · simp [hopen, hsecure]

/-- What the callback is to be called with. -/
def report (c : Client) (pkt : Packet) (a : Attempt) (x : Exchange) : Option Packet :=
  if (c.connectToHost a).1 = .returns true ∧ x.write ∧ x.read then some (responsePacket pkt x.res) else none

/-- The callback is called once, with the right argument, exactly when the
method has a verb, the client connects, and a write that succeeds is followed
by a read that does. -/
theorem requestAsync_once_iff (c : Client) (method : MethodType) (pkt : Packet) (a : Attempt) (x : Exchange) :
    (c.requestAsync method pkt true a x).2.1 = [report c pkt a x] ↔
      requestMethod method ≠ none ∧ Connects c a ∧ (x.write = true → x.read = true) := by
  unfold requestAsync report
  rw [← connectToHost_true_iff]
  rcases requestMethod method with _ | verb
  · simp
  · rcases c.connectToHost a with ⟨⟨_ | _⟩ | _, c'⟩
    · simp
    · rcases hw : x.write <;> rcases hr : x.read <;> simp [writeHandler, readHandler, invoke, hw, hr]
    · simp

/-- A failed read: the failure is reported, and then a packet made up of the
empty response. -/
theorem read_failure_reported_twice :
    (requestAsync { secure := false } .Get {} true { resolved := some (⟨"10.0.0.1", 80⟩, []) } { read := false }).2.1 =
        [none, some { statusCode := 200 }] ∧
      report { secure := false } {} { resolved := some (⟨"10.0.0.1", 80⟩, []) } { read := false } = none :=
  ⟨rfl, rfl⟩

/-! ## Three functions for one request -/

/-- The three functions report the same: each its failure, or all the same
packet. -/
def Agree (r₁ r₂ : Outcome Packet) (called : List (Option Packet)) : Prop :=
  (r₁ = .returns {} ∧ r₂ = .returns {} ∧ called = [none]) ∨
    ∃ p, r₁ = .returns p ∧ r₂ = .returns p ∧ called = [some p]

/-- Nothing of the request's packet is left in the packet that the first
`request` returns, but the target and the acceptable type. -/
def Replaces (pkt : Packet) (res : Response) : Prop :=
  pkt.isFile = false ∧ pkt.fileSavepath = "" ∧ (res.fields.value .content_type = none → pkt.bodyType = .Undefined)

/-- The packet of a request, filled in with the response. -/
def filled (pkt : Packet) (res : Response) : Packet :=
  let pkt := { pkt with statusCode := res.result }
  let pkt := match res.fields.value .content_type with
    | some v => { pkt with bodyType := Packet.fromString v }
    | none => pkt
  { pkt with body := res.body.octets }

theorem filled_eq_iff (pkt : Packet) (res : Response) : filled pkt res = responsePacket pkt res ↔ Replaces pkt res := by
  unfold filled responsePacket Replaces Fields.bodyType
  rcases res.fields.value .content_type with _ | v
  · simp only [Packet.mk.injEq]
    tauto
  · simp only [Packet.mk.injEq]
    tauto

/-- The three functions leave the stream alike: the same is written to it. -/
theorem requests_write_alike (c : Client) (method : MethodType) (pkt : Packet) (cbk : Bool) (a : Attempt)
    (x : Exchange) :
    (c.requestConst method pkt a x).2 = (c.request method pkt a x).2 ∧
      (c.requestAsync method pkt cbk a x).2.2 = (c.request method pkt a x).2 := by
  unfold requestConst request requestAsync
  rcases requestMethod method with _ | verb
  · exact ⟨rfl, rfl⟩
  · rcases c.connectToHost a with ⟨⟨_ | _⟩ | _, c'⟩
    · exact ⟨rfl, rfl⟩
    · dsimp only
      split <;> exact ⟨rfl, rfl⟩
    · exact ⟨rfl, rfl⟩

/-- For a method that has a verb, the three functions write the same. They
report the same if and only if the client connects, the write and the read
succeed, and the packet that is sent has no file settings and, if the response
has no Content-Type, no body type. -/
theorem requests_agree_iff (c : Client) (method : MethodType) (h : requestMethod method ≠ none) (pkt : Packet)
    (a : Attempt) (x : Exchange) :
    ((c.requestConst method pkt a x).2 = (c.request method pkt a x).2 ∧
        (c.requestAsync method pkt true a x).2.2 = (c.request method pkt a x).2) ∧
      (Agree (c.request method pkt a x).1 (c.requestConst method pkt a x).1 (c.requestAsync method pkt true a x).2.1 ↔
        Connects c a ∧ x.write = true ∧ x.read = true ∧ Replaces pkt x.res) := by
  refine ⟨requests_write_alike c method pkt true a x, ?_⟩
  obtain ⟨verb, hverb⟩ := Option.ne_none_iff_exists'.1 h
  rw [← connectToHost_true_iff, ← filled_eq_iff]
  unfold request requestConst requestAsync Agree
  rw [hverb]
  dsimp only
  rcases c.connectToHost a with ⟨⟨_ | _⟩ | _, c'⟩
  · simp
  · rcases hw : x.write
    · simp
    · rcases hr : x.read
      · simp
      · simp only [Bool.and_self, if_true, writeHandler, readHandler, invoke, List.nil_append, hw, hr, true_and]
        constructor
        · rintro (⟨-, -, hcalled⟩ | ⟨p, hfilled, hbuilt, -⟩)
          · cases hcalled
          · cases hbuilt
            exact Outcome.returns.inj hfilled
        · intro hfilled
          exact .inr ⟨_, congrArg Outcome.returns hfilled, rfl, rfl⟩
  · simp

/-- A POST of a JSON document, answered with a page. -/
theorem requests_agree_post :
    let pkt : Packet := { target := "/a", bodyType := .Json, acceptableType := .Html, body := [123, 125] }
    let x : Exchange := { res := { result := 201, fields := [(.content_type, "text/html")], body := .dynamic [60] } }
    let a : Attempt := { resolved := some (⟨"10.0.0.1", 80⟩, []) }
    Agree (request { secure := false } .Post pkt a x).1 (requestConst { secure := false } .Post pkt a x).1
      (requestAsync { secure := false } .Post pkt true a x).2.1 :=
  (requests_agree_iff { secure := false } .Post (by decide) _ _ _).2.2
    ⟨.inr ⟨_, _, rfl, rfl⟩, rfl, rfl, rfl, rfl, fun _ => by contradiction⟩

/-- A JSON request answered without a Content-Type: the first `request`
returns a JSON packet. -/
theorem body_type_kept :
    (request { secure := false } .Post { bodyType := .Json } { resolved := some (⟨"10.0.0.1", 80⟩, []) } {}).1 =
        .returns { bodyType := .Json, statusCode := 200 } ∧
      (requestConst { secure := false } .Post { bodyType := .Json } { resolved := some (⟨"10.0.0.1", 80⟩, []) } {}).1 =
        .returns { statusCode := 200 } ∧
      ¬ Agree (request { secure := false } .Post { bodyType := .Json } { resolved := some (⟨"10.0.0.1", 80⟩, []) } {}).1
        (requestConst { secure := false } .Post { bodyType := .Json } { resolved := some (⟨"10.0.0.1", 80⟩, []) } {}).1
        (requestAsync { secure := false } .Post { bodyType := .Json } true { resolved := some (⟨"10.0.0.1", 80⟩, []) }
          {}).2.1 := by
  refine ⟨rfl, rfl, ?_⟩
  rintro (⟨-, -, hcalled⟩ | ⟨p, hreturned, hbuilt, -⟩)
  · cases hcalled
  · have hkept : Outcome.returns { bodyType := .Json, statusCode := 200 } = Outcome.returns p := hreturned
    have hfresh : Outcome.returns { statusCode := 200 } = Outcome.returns p := hbuilt
    cases hkept.trans hfresh.symm

end ComponentsNetwork.HTTP.Client
