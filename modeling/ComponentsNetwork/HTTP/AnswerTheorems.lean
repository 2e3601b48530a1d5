import ComponentsNetwork.HTTP.ResponseTheorems
/-!
# What the responses of a session are made of

`caused_run`: in every run, each response that a session has started answers
with a packet that the run accounts for (`Caused`), and for no request that
has not been read.
-/

namespace ComponentsNetwork.HTTP.ConnectionSession

open Buffers Asio Runs

variable {H : Type} (reason : Nat → String)

/-- The packet that a reply shows. -/
def shown (pkt : Packet) (opened : Option Bytes) : Packet :=
  { (answered reason pkt opened).1 with body := (answered reason pkt opened).2.octets }

/-- What is left in a body that no error has been sent for yet, or one has. -/
def ErrorBody (body : Bytes) : Prop :=
  body = [] ∨ ∃ status ∈ [400, 404, 405, 501], body = octets (reason status)

/-- What makes a session answer with a packet: the call of a reply function, an
error for want of a processor, or the deadline, whose packet keeps the body of
the error before it. -/
inductive Caused (as : List (Action H)) : Origin → Packet → Prop
  | replied {k pkt opened} (called : .reply k pkt opened ∈ as) (starts : starts pkt opened = true) :
      Caused as (.reply k) (shown reason pkt opened)
  | refused {k status} (known : status ∈ [404, 405, 501]) : Caused as (.error k) (createErrorPacket reason status)
  | expired {o closes body} (expires : .deadlineExpires closes ∈ as) (own : ∀ k, o ≠ .reply k)
      (kept : ErrorBody reason body) : Caused as o { body, statusCode := 504 }

theorem Caused.mono {as bs : List (Action H)} {o : Origin} {pkt : Packet} (h : Caused reason as o pkt) (hs : as ⊆ bs) :
    Caused reason bs o pkt := by
  cases h with
  | replied called starts => exact .replied (hs called) starts
  | refused known => exact .refused known
  | expired expires own kept => exact .expired (hs expires) own kept

/-- The response answers with a packet that the actions account for. -/
def Shows (as : List (Action H)) (x : Origin × Response) : Prop :=
  ∃ serverName pkt body, Answers serverName pkt body x.2 ∧ Caused reason as x.1 { pkt with body := body.octets }

/-- The error packet holds what the last error left in it. -/
def Erring (s : ConnectionSession H) : Prop :=
  ∃ body statusCode, s.responseErrorPacket = { body, statusCode } ∧ ErrorBody reason body

theorem erring_step {s s' : ConnectionSession H} {a : Action H} (he : Erring reason s)
    (h : step reason s a = some s') : Erring reason s' := by
  obtain ⟨body, statusCode, hpacket, hbody⟩ := he
  by_cases ha : ∀ closes, a ≠ .deadlineExpires closes
  · have hnext := step_packet reason ha h
    cases hown : ownError s a with
    | none =>
      rw [hown] at hnext
      exact ⟨body, statusCode, hnext.trans hpacket, hbody⟩
    | some status =>
      rw [hown] at hnext
      exact ⟨_, status, hnext, .inr ⟨status, ownError_mem ha hown, rfl⟩⟩
  · simp only [ne_eq, not_forall, not_not] at ha
    obtain ⟨closes, rfl⟩ := ha
    cases step_taken reason h with
    | @deadlineExpires _ t =>
      refine ⟨body, 504, ?_, hbody⟩
      have hfile : (patched { s with deadlineTimer := t }).responseErrorPacket = { body, statusCode := 504 } := by
        simp [patched, hpacket]
      rw [(kept_deadlineHandler reason _ closes).responseErrorPacket, sendResponse_packet, hfile]
      rfl

/-- A reply that starts a write starts that of a response showing its packet. -/
theorem reply_started (s : ConnectionSession H) {k : Nat} {pkt : Packet} {opened : Option Bytes}
    (hst : starts pkt opened = true) :
    ∃ resp, (sendResponse reason s pkt opened (.reply k)).1.log.started = s.log.started ++ [(.reply k, resp)] ∧
      Shows reason [(.reply k pkt opened : Action H)] (.reply k, resp) := by
  have hcaused : Caused reason [(.reply k pkt opened : Action H)] (.reply k) (shown reason pkt opened) :=
    .replied List.mem_cons_self hst
  by_cases hstatus : pkt.statusCode ≤ 999
  · have hwrites := sendResponse_writes reason s pkt opened (.reply k) hstatus
    exact ⟨_, hwrites.started, _, _, _, hwrites.answers, hcaused⟩
  · -- Only the error for a file that does not open takes no notice of the status.
    simp only [starts, hstatus, decide_false, Bool.false_or, Bool.and_eq_true, Option.isNone_iff_eq_none] at hst
    obtain ⟨hfile, rfl⟩ := hst
    have hwrites := sendErrorResponse_writes reason (s.assignResponse { body := .file none }) (.reply k)
      (show 400 ≤ 999 by decide)
    have hsent : sendResponse reason s pkt none (.reply k) =
        sendErrorResponse reason (s.assignResponse { body := .file none }) 400 (.reply k) := by
      unfold sendResponse
      rw [if_pos hfile]
    have hshown : shown reason pkt none = { createErrorPacket reason 400 with body := octets (reason 400) } := by
      unfold shown answered
      rw [if_pos hfile]
      rfl
    rw [hsent]
    rw [hshown] at hcaused
    exact ⟨_, hwrites.started, _, _, _, hwrites.answers, hcaused⟩

/-- What a step adds to the responses started shows a packet that the action
accounts for. -/
theorem step_started {s s' : ConnectionSession H} {a : Action H} (he : Erring reason s)
    (h : step reason s a = some s') :
    ∃ l, s'.log.started = s.log.started ++ l ∧ ∀ x ∈ l, Shows reason [a] x := by
  cases step_taken reason h with
  | setHandler | processorThrows | tick | deadlineElapses | writeCompletes => exact ⟨[], by simp [leave], by simp⟩
  | readFails =>
    refine ⟨[], ?_, by simp⟩
    split
    · simp
    · rw [(kept_closeConnection _ _).log]
      simp
  | @processorReturns hs =>
    refine ⟨[], ?_, by simp⟩
    rw [(kept_proceed s hs).log]
    simp
  | @readCompletes incoming garbage hs =>
    rw [(kept_readHandler reason s incoming garbage hs).log]
    have ht := dispatch_taken reason s incoming garbage s.log.received.length
    generalize dispatch reason (received s incoming) garbage s.log.received.length = x at ht ⊢
    cases ht with
    | refused error =>
      have hwrites := sendErrorResponse_writes reason (handedOver s incoming garbage) (.error s.log.received.length)
        (dispatchError_le error)
      refine ⟨_, hwrites.started, fun x hx => ?_⟩
      cases List.mem_singleton.1 hx
      exact ⟨_, _, _, hwrites.answers, .refused (dispatchError_mem error)⟩
    | called => exact ⟨[], by simp [calling, handedOver, received], by simp⟩
  | @reply k pkt opened =>
    cases hst : starts pkt opened with
    | true =>
      obtain ⟨resp, hstarted, hshows⟩ := reply_started reason { s with pending := s.pending.erase k } (k := k) hst
      refine ⟨_, hstarted, fun x hx => ?_⟩
      cases List.mem_singleton.1 hx
      exact hshows
    | false =>
      obtain ⟨resp, hresp, hview, -⟩ :=
        sendResponse_sends reason { s with pending := s.pending.erase k } pkt opened (.reply k)
      rw [hst, Option.isSome_eq_false_iff, Option.isNone_iff_eq_none] at hresp
      subst hresp
      exact ⟨[], congrArg View.started hview, by simp⟩
  | @deadlineExpires closes t =>
    obtain ⟨body, statusCode, hpacket, hbody⟩ := he
    have hpatched : (patched { s with deadlineTimer := t }).responseErrorPacket = { body, statusCode := 504 } := by
      simp [patched, hpacket]
    have hwrites := sendResponse_writes reason (patched { s with deadlineTimer := t })
      (patched { s with deadlineTimer := t }).responseErrorPacket none (patched { s with deadlineTimer := t }).oldestUnanswered
      (show 504 ≤ 999 by decide)
    rw [hpatched] at hwrites
    rw [(kept_deadlineHandler reason _ closes).log, hpatched]
    refine ⟨_, hwrites.started, fun x hx => ?_⟩
    cases List.mem_singleton.1 hx
    refine ⟨_, _, _, hwrites.answers, .expired (List.mem_cons_self : Action.deadlineExpires closes ∈ _) (fun k => ?_) hbody⟩
    show oldestUnanswered _ ≠ _
    unfold oldestUnanswered
    split <;> simp

/-- How the responses started stand to the actions taken. -/
structure Accounted (s : ConnectionSession H) (as : List (Action H)) : Prop where
  erring : Erring reason s
  pending : PendingRead s.view
  shows : ∀ x ∈ s.log.started, Shows reason as x
  read : ∀ x ∈ s.log.started, ∀ k, x.1.request = some k → k < s.log.received.length

theorem accounted_step (s : ConnectionSession H) (as : List (Action H)) (a : Action H) (s' : ConnectionSession H)
    (ha : Accounted reason s as) (h : step reason s a = some s') : Accounted reason s' (as ++ [a]) := by
  refine ⟨erring_step reason ha.erring h, pendingRead_step reason s a s' ha.pending h, ?_, ?_⟩
  · obtain ⟨l, hstarted, hshows⟩ := step_started reason ha.erring h
    rw [hstarted]
    rintro x hx
    rcases List.mem_append.1 hx with hx | hx
    · obtain ⟨serverName, pkt, body, hanswers, hcaused⟩ := ha.shows x hx
      exact ⟨serverName, pkt, body, hanswers, hcaused.mono reason (List.subset_append_left as [a])⟩
    · obtain ⟨serverName, pkt, body, hanswers, hcaused⟩ := hshows x hx
      exact ⟨serverName, pkt, body, hanswers, hcaused.mono reason (List.subset_append_right as [a])⟩
  · obtain ⟨hle, hsends⟩ := step_sending reason h
    intro x hx k hk
    cases hsend : sending s a with
    | none =>
      rw [hsend] at hsends
      rw [hsends.1] at hx
      exact Nat.lt_of_lt_of_le (ha.read x hx k hk) hle
    | some sent =>
      obtain ⟨o, writes⟩ := sent
      rw [hsend] at hsends
      obtain ⟨resp, -, hstarted, -, -, hread⟩ := hsends
      rw [hstarted] at hx
      rcases List.mem_append.1 hx with hx | hx
      · exact Nat.lt_of_lt_of_le (ha.read x hx k hk) hle
      · obtain ⟨r, -, rfl⟩ := List.mem_map.1 hx
        rcases hread k hk with hpending | hlt
        · exact Nat.lt_of_lt_of_le (ha.pending k hpending) hle
        · exact hlt

end ComponentsNetwork.HTTP.ConnectionSession
