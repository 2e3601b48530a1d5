import ComponentsNetwork.HTTP.RoutingTheorems
/-!
# The responses a session writes

A response is made of its packet, its body and the server's name, and of
nothing that `m_response` held before (`Answers`).

- `one_response_written`: `sendResponse` and `sendErrorResponse`, which call
  each other, end and start one write.
- `errors_match_iff`: the errors a session answers with carry the reason
  phrase of their status, if and only if the deadline never expires: its 504
  goes out with the body of the error before it.
-/

namespace ComponentsNetwork.HTTP.ConnectionSession

open Buffers Asio Runs

variable {H : Type} (reason : Nat → String)

/-! ## Messages -/

/-- The response answers the packet with the content, and has no other fields. -/
structure Answers (selfServerName : String) (pkt : Packet) (content : ResponseBody) (resp : Response) : Prop where
  version : resp.version = 11
  result : resp.result = pkt.statusCode
  body : resp.body = content
  contentType : resp.fields.value .content_type = some (Packet.toString pkt.bodyType)
  server : resp.fields.value .server = some selfServerName
  contentLength : resp.fields.value .content_length = some content.octets.length.repr
  fields : resp.fields.map Prod.fst = [.content_length, .server, .content_type]

/-- A call of `sendResponse` starts one write, of a response that answers the
packet with the body. -/
structure Writes (s : ConnectionSession H) (o : Origin) (pkt : Packet) (body : ResponseBody)
    (x : ConnectionSession H × Exit) : Prop where
  returns : x.2 = .returns
  started : x.1.log.started = s.log.started ++ [(o, x.1.response)]
  inFlight : x.1.inFlight = s.inFlight + 1
  answers : Answers s.selfServerName pkt body x.1.response

/-- What the two `std::visit`s make of a fresh response with its payload prepared. -/
theorem settings_answers (s : ConnectionSession H) (pkt : Packet) (body : ResponseBody) {r : Response}
    (hbody : r.body = body) (hfields : r.fields = [(.content_length, body.octets.length.repr)]) :
    Answers s.selfServerName pkt body { settings { s with response := r } pkt with result := pkt.statusCode } := by
  constructor
  · rfl
  · rfl
  · exact hbody
  all_goals simp [settings, hfields, Fields.set, Fields.value]

theorem writeResponse_writes {s t : ConnectionSession H} {pkt : Packet} {body : ResponseBody} (o : Origin)
    (hstatus : pkt.statusCode ≤ 999) (hlog : t.log.started = s.log.started) (hflight : t.inFlight = s.inFlight)
    (hname : t.selfServerName = s.selfServerName)
    (hresp : t.response = ({ body := body } : Response).preparePayload) :
    Writes s o pkt body (writeResponse t pkt o) := by
  unfold writeResponse
  rw [if_pos hstatus]
  refine ⟨rfl, ?_, ?_, ?_⟩
  · show t.log.started ++ _ = _
    rw [hlog]
  · show t.inFlight + 1 = _
    rw [hflight]
  · rw [← hname]
    exact settings_answers (r := t.response) t pkt body (by rw [hresp]; rfl) (by rw [hresp]; rfl)

theorem sendBody_writes (s : ConnectionSession H) (pkt : Packet) (o : Origin) (h : pkt.statusCode ≤ 999) :
    Writes s o pkt (.dynamic pkt.body) (sendBody s pkt o) := by
  refine writeResponse_writes o h rfl rfl rfl ?_
  -- `prepare_payload` sets the Content-Length that was set before it once more.
  simp [assignResponse, Response.preparePayload, Fields.set]

theorem sendErrorResponse_writes (s : ConnectionSession H) {status : Nat} (o : Origin) (h : status ≤ 999) :
    Writes s o (createErrorPacket reason status) (.dynamic (octets (reason status)))
      (sendErrorResponse reason s status o) := by
  have hsend := sendBody_writes { s with responseErrorPacket := createErrorPacket reason status }
    (createErrorPacket reason status) o h
  exact ⟨hsend.returns, hsend.started, hsend.inFlight, hsend.answers⟩

/-- What `sendResponse` answers a packet with, given what opening its file
gives: itself, with its body or the file, or an error packet. -/
def answered (pkt : Packet) (opened : Option Bytes) : Packet × ResponseBody :=
  if pkt.isFile then
    match opened with
    | none => (createErrorPacket reason 400, .dynamic (octets (reason 400)))
    | some content => (pkt, .file (some content))
  else (pkt, .dynamic pkt.body)

theorem sendResponse_writes (s : ConnectionSession H) (pkt : Packet) (opened : Option Bytes) (o : Origin)
    (h : pkt.statusCode ≤ 999) :
    Writes s o (answered reason pkt opened).1 (answered reason pkt opened).2 (sendResponse reason s pkt opened o) := by
  unfold sendResponse answered
  by_cases hf : pkt.isFile = true
  · rw [if_pos hf, if_pos hf]
    cases opened with
    | none =>
      have herror := sendErrorResponse_writes reason (s.assignResponse { body := .file none }) o
        (show 400 ≤ 999 by decide)
      exact ⟨herror.returns, herror.started, herror.inFlight, herror.answers⟩
    | some content =>
      refine writeResponse_writes o h rfl rfl rfl ?_
      rfl
  · rw [if_neg hf, if_neg hf]
    exact sendBody_writes s pkt o h

/-! ## `sendResponse` and `sendErrorResponse` call each other -/

/-- The `const Packet&` of `sendResponse`: a packet of the caller, or the
session's own `m_responseErrorPacket`, which the call may change. -/
inductive PacketRef
  | own (pkt : Packet)
  | responseErrorPacket

def PacketRef.read (s : ConnectionSession H) : PacketRef → Packet
  | .own pkt => pkt
  | .responseErrorPacket => s.responseErrorPacket

mutual

/-- `sendResponse`, for `opens` the content of each file that opens. -/
def sendResponseCall (opens : String → Option Bytes) (o : Origin) (s : ConnectionSession H) (pkt : PacketRef) :
    Nat → Option (ConnectionSession H × Exit)
  | 0 => none
  | fuel + 1 =>
    if (pkt.read s).isFile then
      let s := s.assignResponse { body := .file none }
      match opens (pkt.read s).target with
      | none => sendErrorResponseCall opens o s 400 fuel
      | some content =>
        let r := { s.response with body := .file (some content) }
        some (writeResponse { s with response := r.preparePayload } (pkt.read s) o)
    else some (sendBody s (pkt.read s) o)

/-- `sendErrorResponse`. -/
def sendErrorResponseCall (opens : String → Option Bytes) (o : Origin) (s : ConnectionSession H) (status : Nat) :
    Nat → Option (ConnectionSession H × Exit)
  | 0 => none
  | fuel + 1 =>
    let s := { s with responseErrorPacket := createErrorPacket reason status }
    sendResponseCall opens o s .responseErrorPacket fuel

end

/-- Three calls are enough: an error packet is not a file. -/
theorem sendResponseCall_eq (opens : String → Option Bytes) (o : Origin) (s : ConnectionSession H) (pkt : PacketRef)
    (fuel : Nat) :
    sendResponseCall reason opens o s pkt (fuel + 3) =
      some (sendResponse reason s (pkt.read s) (opens (pkt.read s).target) o) := by
  have hread : ∀ r, pkt.read (s.assignResponse r) = pkt.read s := fun r => by cases pkt <;> rfl
  unfold sendResponse
  rw [sendResponseCall]
  by_cases hf : (pkt.read s).isFile = true
  · rw [if_pos hf, if_pos hf]
    dsimp only
    rw [hread]
    cases opens (pkt.read s).target with
    | none => rfl
    | some content => rfl
  · rw [if_neg hf, if_neg hf]

/-- Whatever the packet is (also the session's own error packet), whatever
opening its file gives, and whatever the response and the error packet held
before, `sendResponse` of a packet with a status of at most 999 ends and
starts one write, of a message made of that packet: with its body or the
file's content, or, for a file that does not open, of the packet that
`createErrorPacket` makes for a 400. -/
theorem one_response_written (opens : String → Option Bytes) (o : Origin) (s : ConnectionSession H) (pkt : PacketRef)
    (h : (pkt.read s).statusCode ≤ 999) (fuel : Nat) :
    ∃ x, sendResponseCall reason opens o s pkt (fuel + 3) = some x ∧
      ((pkt.read s).isFile = false → Writes s o (pkt.read s) (.dynamic (pkt.read s).body) x) ∧
      ((pkt.read s).isFile = true → ∀ content, opens (pkt.read s).target = some content →
        Writes s o (pkt.read s) (.file (some content)) x) ∧
      ((pkt.read s).isFile = true → opens (pkt.read s).target = none →
        Writes s o (createErrorPacket reason 400) (.dynamic (createErrorPacket reason 400).body) x) := by
  have hwrites := sendResponse_writes reason s (pkt.read s) (opens (pkt.read s).target) o h
  unfold answered at hwrites
  refine ⟨_, sendResponseCall_eq reason opens o s pkt fuel, ?_, ?_, ?_⟩
  · intro hf
    rw [if_neg (by simp [hf])] at hwrites
    exact hwrites
  · intro hf content hopen
    rw [if_pos hf, hopen] at hwrites
    rw [hopen]
    exact hwrites
  · intro hf hopen
    rw [if_pos hf, hopen] at hwrites
    rw [hopen]
    exact hwrites

/-- A file that does not open, with an older response still in `m_response`. -/
theorem one_response_written_unopenable :
    ∃ x : ConnectionSession Unit × Exit,
      sendResponseCall (fun _ => "Bad Request") (fun _ => none) (.reply 0)
          { accept (fun _ => none) "server" false 0 with
            response := { result := 206, fields := [(.host, "old")], body := .file (some [1, 2]) } }
          (.own { target := "missing", isFile := true, statusCode := 200 }) 3 = some x ∧
        x.1.response.result = 400 ∧ x.1.response.body = .dynamic (octets "Bad Request") := by
  obtain ⟨x, hx, -, -, hclosed⟩ := one_response_written (fun _ => "Bad Request") (fun _ => none) (.reply 0)
    { accept (H := Unit) (fun _ => none) "server" false 0 with
      response := { result := 206, fields := [(.host, "old")], body := .file (some [1, 2]) } }
    (.own { target := "missing", isFile := true, statusCode := 200 }) (by decide) 0
  have hwrites := hclosed rfl rfl
  exact ⟨x, hx, hwrites.answers.result, hwrites.answers.body⟩

/-! ## The session's own errors -/

/-- The status of the error that the session itself answers an action with. -/
def ownError (s : ConnectionSession H) : Action H → Option Nat
  | .readCompletes incoming garbage _ => dispatchError s incoming garbage
  | .reply _ pkt opened => if pkt.isFile && opened.isNone then some 400 else none
  | .deadlineExpires _ => some 504
  | _ => none

/-- A response was started whose status, body and Content-Type are those of
`createErrorPacket` for the status. -/
def SendsError (s s' : ConnectionSession H) (status : Nat) : Prop :=
  ∃ o resp, s'.log.started = s.log.started ++ [(o, resp)] ∧ resp.result = status ∧
    resp.body.octets = octets (reason status) ∧ resp.fields.value .content_type = some (Packet.toString .Undefined)

/-- An error that the session chooses matches its status. -/
def ErrorMatches (s : ConnectionSession H) (a : Action H) (s' : ConnectionSession H) : Prop :=
  ∀ status, ownError s a = some status → SendsError reason s s' status

/-- The reason phrases of the errors a session sends. -/
structure ReasonPhrases : Prop where
  badRequest : reason 400 = "Bad Request"
  notFound : reason 404 = "Not Found"
  methodNotAllowed : reason 405 = "Method Not Allowed"
  notImplemented : reason 501 = "Not Implemented"
  gatewayTimeout : reason 504 = "Gateway Timeout"

theorem sendErrorResponse_sendsError (s : ConnectionSession H) {status : Nat} (h : status ≤ 999) (o : Origin) :
    SendsError reason s (sendErrorResponse reason s status o).1 status := by
  have hwrites := sendErrorResponse_writes reason s o h
  refine ⟨o, _, hwrites.started, hwrites.answers.result, ?_, hwrites.answers.contentType⟩
  rw [hwrites.answers.body]
  rfl

theorem sendErrorResponse_packet (s : ConnectionSession H) (status : Nat) (o : Origin) :
    (sendErrorResponse reason s status o).1.responseErrorPacket = createErrorPacket reason status := by
  unfold sendErrorResponse sendBody writeResponse
  dsimp only
  split <;> rfl

theorem sendsError_log {s s' t t' : ConnectionSession H} {status : Nat} (h : SendsError reason t t' status)
    (hlog : s'.log = t'.log) (hstarted : t.log.started = s.log.started) : SendsError reason s s' status := by
  obtain ⟨o, resp, hs, h⟩ := h
  refine ⟨o, resp, ?_, h⟩
  rw [hlog, hs, hstarted]

/-! ### The error packet -/

theorem sendResponse_packet (s : ConnectionSession H) (pkt : Packet) (opened : Option Bytes) (o : Origin) :
    (sendResponse reason s pkt opened o).1.responseErrorPacket =
      if pkt.isFile && opened.isNone then createErrorPacket reason 400 else s.responseErrorPacket := by
  have hwrite : ∀ t : ConnectionSession H, (writeResponse t pkt o).1.responseErrorPacket = t.responseErrorPacket := by
    intro t
    unfold writeResponse
    split <;> rfl
  unfold sendResponse
  by_cases hf : pkt.isFile = true
  · rw [if_pos hf, hf]
    cases opened with
    | none => exact sendErrorResponse_packet reason _ 400 o
    | some content => exact hwrite _
  · rw [if_neg hf, if_neg (by simp [hf])]
    exact hwrite _

/-- The error packet is the one of the last error, as long as no deadline
patches it. -/
theorem step_packet {s s' : ConnectionSession H} {a : Action H} (ha : ∀ closes, a ≠ .deadlineExpires closes)
    (h : step reason s a = some s') :
    s'.responseErrorPacket = (ownError s a).elim s.responseErrorPacket (createErrorPacket reason) := by
  cases step_taken reason h with
  | setHandler | processorThrows | tick | deadlineElapses | writeCompletes => rfl
  | @readCompletes incoming garbage hs =>
    rw [(kept_readHandler reason s incoming garbage hs).responseErrorPacket, ownError]
    have ht := dispatch_taken reason s incoming garbage s.log.received.length
    generalize dispatch reason (received s incoming) garbage s.log.received.length = x at ht ⊢
    cases ht with
    | refused he =>
      rw [he]
      exact sendErrorResponse_packet reason _ _ _
    | called he =>
      rw [he]
      rfl
  | readFails =>
    split
    · rfl
    · exact (kept_closeConnection _ _).responseErrorPacket
  | @reply k pkt opened =>
    rw [sendResponse_packet, ownError]
    split <;> rfl
  | @processorReturns hs => exact (kept_proceed s hs).responseErrorPacket
  | @deadlineExpires closes => exact absurd rfl (ha closes)

/-- What the error packet holds before any deadline expires: no error, or one
that is not a 504. -/
structure Untimed (s : ConnectionSession H) : Prop where
  isFile : s.responseErrorPacket.isFile = false
  body : s.responseErrorPacket.body ≠ octets (reason 504)

theorem ownError_mem {s : ConnectionSession H} {a : Action H} (ha : ∀ closes, a ≠ .deadlineExpires closes)
    {status : Nat} (h : ownError s a = some status) : status ∈ [400, 404, 405, 501] := by
  cases a with
  | readCompletes incoming garbage hs => exact List.mem_cons_of_mem _ (dispatchError_mem h)
  | reply k pkt opened =>
    simp only [ownError, Option.ite_none_right_eq_some, Option.some.injEq] at h
    simp [← h.2]
  | deadlineExpires closes => exact absurd rfl (ha closes)
  | _ => cases h

theorem ReasonPhrases.ne_gatewayTimeout (hr : ReasonPhrases reason) {status : Nat} (h : status ∈ [400, 404, 405, 501]) :
    octets (reason status) ≠ octets (reason 504) := by
  simp only [List.mem_cons, List.not_mem_nil, or_false] at h
  rw [hr.gatewayTimeout]
  rcases h with rfl | rfl | rfl | rfl
  · rw [hr.badRequest]; decide
  · rw [hr.notFound]; decide
  · rw [hr.methodNotAllowed]; decide
  · rw [hr.notImplemented]; decide

theorem untimed_step (hr : ReasonPhrases reason) {s s' : ConnectionSession H} {a : Action H} (hu : Untimed reason s)
    (ha : ∀ closes, a ≠ .deadlineExpires closes) (h : step reason s a = some s') : Untimed reason s' := by
  have hpacket := step_packet reason ha h
  cases he : ownError s a with
  | none =>
    rw [he] at hpacket
    exact ⟨by rw [hpacket]; exact hu.isFile, by rw [hpacket]; exact hu.body⟩
  | some status =>
    rw [he] at hpacket
    exact ⟨by rw [hpacket]; rfl, by rw [hpacket]; exact hr.ne_gatewayTimeout reason (ownError_mem ha he)⟩

/-! ### Errors in a run -/

/-- The deadline's 504 carries the body that is in the error packet. -/
theorem deadlineHandler_started (s : ConnectionSession H) (closes : Bool) (hf : s.responseErrorPacket.isFile = false) :
    ∃ o resp, (deadlineHandler reason s closes).log.started = s.log.started ++ [(o, resp)] ∧
      resp.body = .dynamic s.responseErrorPacket.body := by
  have hwrites := sendResponse_writes reason s.patched s.patched.responseErrorPacket none s.patched.oldestUnanswered
    (show 504 ≤ 999 by decide)
  unfold answered at hwrites
  rw [if_neg (show ¬ s.patched.responseErrorPacket.isFile = true by simp [patched, hf])] at hwrites
  refine ⟨s.oldestUnanswered, _, ?_, hwrites.answers.body⟩
  rw [(kept_deadlineHandler reason s closes).log]
  exact hwrites.started

theorem step_errorMatches_iff {s s' : ConnectionSession H} (hu : Untimed reason s) {a : Action H}
    (h : step reason s a = some s') : ErrorMatches reason s a s' ↔ ∀ closes, a ≠ .deadlineExpires closes := by
  cases step_taken reason h with
  | setHandler | processorThrows | tick | deadlineElapses | writeCompletes | readFails | processorReturns =>
    exact iff_of_true (fun status he => by cases he) (fun closes => by simp)
  | @readCompletes incoming garbage hs =>
    refine iff_of_true (fun status he => ?_) (fun closes => by simp)
    have he : dispatchError s incoming garbage = some status := he
    have hsend := sendErrorResponse_sendsError reason (handedOver s incoming garbage) (dispatchError_le he)
      (.error s.log.received.length)
    rw [← dispatch_error reason he] at hsend
    exact sendsError_log reason hsend (kept_readHandler reason s incoming garbage hs).log rfl
  | @reply k pkt opened =>
    refine iff_of_true (fun status he => ?_) (fun closes => by simp)
    simp only [ownError, Option.ite_none_right_eq_some, Option.some.injEq, Bool.and_eq_true, Option.isNone_iff_eq_none] at he
    obtain ⟨⟨hf, rfl⟩, rfl⟩ := he
    have hsend := sendErrorResponse_sendsError reason
      ({ s with pending := s.pending.erase k }.assignResponse { body := .file none }) (show 400 ≤ 999 by decide) (.reply k)
    refine sendsError_log reason hsend ?_ rfl
    unfold sendResponse
    rw [if_pos hf]
  | @deadlineExpires closes t =>
    refine iff_of_false (fun hmatches => ?_) (fun hne => hne closes rfl)
    obtain ⟨o, resp, hstarted, -, hbody, -⟩ := hmatches 504 rfl
    obtain ⟨o', resp', hstarted', hbody'⟩ := deadlineHandler_started reason { s with deadlineTimer := t } closes hu.isFile
    rw [hstarted'] at hstarted
    obtain ⟨-, hlast⟩ := List.append_inj' hstarted rfl
    cases hlast
    rw [hbody'] at hbody
    exact hu.body hbody

/-- In every run, each error that the session answers with itself (400, 404,
405, 501 or the deadline's 504) has the reason phrase of its status as its
body, and the body type Undefined, if and only if the deadline does not expire
in the run. -/
theorem errors_match_iff (hr : ReasonPhrases reason) (processors : Processors H) (selfServerName : String)
    (secure : Bool) (now : Nat) (hs : Handshake) (as : List (Action H)) :
    EachStep (step reason) (ErrorMatches reason) (start processors selfServerName secure now hs) as ↔
      Meets (step reason) (fun _ a => ∀ closes, a ≠ .deadlineExpires closes)
        (start processors selfServerName secure now hs) as := by
  refine eachStep_iff (J := Untimed reason) (fun s a s' hu h => ?_) (fun s a s' hu ha h => ?_) ?_ as
  · exact step_errorMatches_iff reason hu h
  · exact untimed_step reason hr hu ha h
  · have hpacket : (start processors selfServerName secure now hs).responseErrorPacket = {} := by
      rw [start, (kept_proceed _ hs).responseErrorPacket]
      rfl
    constructor
    · rw [hpacket]
    · rw [hpacket, hr.gatewayTimeout]
      decide

/-- Beast's reason phrases of the statuses a session sends. -/
def obsoleteReason : Nat → String
  | 400 => "Bad Request"
  | 404 => "Not Found"
  | 405 => "Method Not Allowed"
  | 501 => "Not Implemented"
  | 504 => "Gateway Timeout"
  | _ => ""

theorem obsoleteReason_phrases : ReasonPhrases obsoleteReason := ⟨rfl, rfl, rfl, rfl, rfl⟩

/-- A request that nothing is registered for, then one with an unknown method. -/
def twoErrors : List (Action Unit) :=
  [.readCompletes { method := .get, target := "/" } 0 .succeeds,
    .readCompletes { method := .other "HEAD", target := "/" } 7 .succeeds]

theorem errors_match_two :
    EachStep (step obsoleteReason) (ErrorMatches obsoleteReason) (start (fun _ => none) "server" false 0 .succeeds)
      twoErrors :=
  (errors_match_iff obsoleteReason obsoleteReason_phrases (fun _ => none) "server" false 0 .succeeds twoErrors).2 <| by
    refine eachStep_of_forall (fun a ha closes => ?_) _
    rintro rfl
    simp [twoErrors] at ha

/-- A deadline that expires after a 501 sends a 504 with the body "Not
Implemented". -/
theorem gateway_timeout_not_implemented :
    ¬ EachStep (step obsoleteReason) (ErrorMatches obsoleteReason)
      (start (H := Unit) (fun _ => none) "server" false 0 .succeeds)
      [.readCompletes { method := .get, target := "/" } 0 .succeeds, .tick (seconds 10), .deadlineElapses,
        .deadlineExpires true] := by
  intro h
  obtain ⟨-, h⟩ := h _ rfl
  obtain ⟨-, h⟩ := h _ rfl
  obtain ⟨-, h⟩ := h _ rfl
  obtain ⟨hmatches, -⟩ := h _ rfl
  obtain ⟨o, resp, hstarted, -, hbody, -⟩ := hmatches 504 rfl
  obtain ⟨-, hlast⟩ := List.append_inj' hstarted rfl
  cases hlast
  exact absurd hbody (by decide)

end ComponentsNetwork.HTTP.ConnectionSession
