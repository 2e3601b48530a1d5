import ComponentsNetwork.Lib.Pipeline
import ComponentsNetwork.HTTP.SessionEffects
/-!
# Requests and responses of a kept-alive connection

Three properties of every run of a session, each with the exact condition
under which the code has it.

- `requests_isolated_iff`: the processors get the requests as sent, if no
  request but the last has a body. `m_request` keeps its body between reads.
- `exclusive_iff`: one write at a time, if nothing is sent while a write is
  outstanding. `sendResponse` does not wait for the one before.
- `inOrder_iff`: responses in request order, if each is sent for the oldest
  request without one. Replies are sent in the order they are made, and the
  deadline sends a 504 whether or not a request waits for an answer.
-/

namespace ComponentsNetwork.HTTP.ConnectionSession

open Buffers Runs Pipeline

variable {H : Type} (reason : Nat → String)

/-! ## What is received -/

/-- The request an action reads. -/
def Action.request : Action H → Option Request
  | .readCompletes incoming _ _ => some incoming
  | _ => none

/-- The requests read in a run, in order. -/
def requests (as : List (Action H)) : List Request := as.filterMap Action.request

theorem requests_concat (as : List (Action H)) (a : Action H) :
    requests (as ++ [a]) = requests as ++ (Action.request a).toList := by
  cases h : Action.request a <;> simp [requests, List.filterMap_append, h]

/-- One of the four methods that are dispatched by name. -/
def Supported (m : Verb) : Prop := m ∈ [Verb.get, .put, .post, .delete_]

instance (m : Verb) : Decidable (Supported m) := inferInstanceAs (Decidable (m ∈ _))

theorem targetMethodType_supported {m : Verb} (h : Supported m) (garbage : Int) :
    targetMethodType m garbage = targetMethodType m 0 ∧
      targetMethodType m garbage ∈ [MethodType.Get, .Put, .Post, .Delete] := by
  cases m with
  | other name => simp [Supported] at h
  | _ => simp [targetMethodType]

/-- What `m_processors` is called with for a request: the function of its
method, with its packet. -/
def call (r : Request) : MethodType × Packet := (targetMethodType r.method 0, requestPacket r)

/-- The calls that the requests lead to with `bodies` in place of theirs. -/
def callsWith (rs : List Request) (bodies : List Bytes) : List (MethodType × Packet) :=
  (rs.zip bodies).map fun x => call { x.1 with body := x.2 }

theorem callsWith_concat {rs : List Request} {bodies : List Bytes} (hlen : rs.length = bodies.length)
    (r : Request) (b : Bytes) :
    callsWith (rs ++ [r]) (bodies ++ [b]) = callsWith rs bodies ++ [call { r with body := b }] := by
  simp [callsWith, List.zip_append hlen]

theorem callsWith_eq_iff {rs : List Request} {bodies : List Bytes} (hlen : rs.length = bodies.length) :
    callsWith rs bodies = rs.map call ↔ bodies = rs.map (·.body) := by
  induction rs generalizing bodies with
  | nil => cases bodies with
    | nil => simp [callsWith]
    | cons => simp at hlen
  | cons r rs ih => cases bodies with
    | nil => simp at hlen
    | cons b bodies =>
      have hb : call { r with body := b } = call r ↔ b = r.body := by
        simp [call, requestPacket]
      have hlen : rs.length = bodies.length := by simpa using hlen
      have ih := ih hlen
      simp only [callsWith] at ih
      simp only [callsWith, List.zip_cons_cons, List.map_cons, List.cons.injEq, hb, ih]

/-- How a session stands to the requests it has read. -/
def Received (v : View) (rs : List Request) : Prop :=
  v.processors = [.Get, .Put, .Post, .Delete] ∧ v.received = rs ∧ v.request.body = (rs.map (·.body)).flatten ∧
    ((∀ r ∈ rs, Supported r.method) → v.handed = callsWith rs (carried [] (rs.map (·.body))))

theorem received_receive {s : ConnectionSession H} {rs : List Request} (h : Received s.view rs)
    (incoming : Request) (garbage : Int) :
    Received (s.view.receive incoming (handedFor s incoming garbage)) (rs ++ [incoming]) := by
  obtain ⟨hp, hrec, hbody, hhanded⟩ := h
  refine ⟨hp, by rw [← hrec]; rfl, ?_, fun hm => ?_⟩
  · simp [View.receive, Request.readInto, hbody]
  · obtain ⟨hsame, hmem⟩ := targetMethodType_supported (hm incoming (by simp)) garbage
    rw [← hp] at hmem
    have hcall : handedFor s incoming garbage = [call { incoming with body := (rs.map (·.body)).flatten ++ incoming.body }] := by
      rw [← hbody]
      exact (if_pos hmem).trans (by rw [hsame]; rfl)
    rw [List.map_append, List.map_singleton, carried_concat, callsWith_concat (by simp), List.nil_append, ← hcall,
      ← hhanded fun r hr => hm r (by simp [hr])]
    rfl

theorem received_step (s : ConnectionSession H) (as : List (Action H)) (a : Action H) (s' : ConnectionSession H)
    (hr : Received s.view (requests as)) (h : step reason s a = some s') :
    Received s'.view (requests (as ++ [a])) := by
  have he := step_effect reason h
  rw [requests_concat]
  generalize s'.view = v at he ⊢
  cases he with
  | quiet hq =>
    have hnone : Action.request a = none := by cases a <;> first | rfl | cases hq
    simpa [hnone] using hr
  | @called incoming garbage hs _ => exact received_receive hr incoming garbage
  | @refused incoming garbage hs e resp _ => exact received_receive hr incoming garbage
  | replied | expired | written =>
    simp only [Action.request, Option.toList_none, List.append_nil]
    exact hr

theorem received_start (processors : Processors H) (selfServerName : String) (secure : Bool) (now : Nat)
    (hs : Handshake) : Received (start processors selfServerName secure now hs).view [] := by
  rw [start, (kept_proceed _ hs).view]
  exact ⟨rfl, rfl, rfl, fun _ => rfl⟩

/-- In every run that reads requests with the four methods, each call of
`m_processors` gets the request it is made for, exactly as it was sent, if and
only if every request but the last has an empty body. -/
theorem requests_isolated_iff (processors : Processors H) (selfServerName : String) (secure : Bool) (now : Nat)
    (hs : Handshake) (as : List (Action H)) (s : ConnectionSession H)
    (h : run (step reason) (start processors selfServerName secure now hs) as = some s)
    (hm : ∀ r ∈ requests as, Supported r.method) :
    s.log.handed = (requests as).map call ↔ ∀ r ∈ (requests as).dropLast, r.body = [] := by
  obtain ⟨-, -, -, hhanded⟩ := run_history (R := fun s as => Received s.view (requests as))
    (received_start processors selfServerName secure now hs) (received_step reason) h
  have hhanded : s.log.handed = _ := hhanded hm
  rw [hhanded, callsWith_eq_iff (by simp), carried_eq_iff]
  simp [← List.map_dropLast]

/-- Two POST requests on one connection, with a processor that replies later. -/
def twoPosts (b₁ b₂ : Bytes) : List (Action Unit) :=
  [.readCompletes { method := .post, target := "/", body := b₁ } 0 .succeeds, .processorReturns .succeeds,
    .readCompletes { method := .post, target := "/", body := b₂ } 0 .succeeds, .processorReturns .succeeds]

theorem requests_isolated_last :
    ∃ s, run (step fun _ => "") (start (fun _ => some fun _ => some ()) "server" false 0 .succeeds)
        (twoPosts [] [98]) = some s ∧ s.log.handed = (requests (twoPosts [] [98])).map call :=
  ⟨_, rfl, (requests_isolated_iff (fun _ => "") (fun _ => some fun _ => some ()) "server" false 0 .succeeds
    (twoPosts [] [98]) _ rfl (by decide)).2 (by decide)⟩

/-- The body of the first request is still in front of the second's. -/
theorem second_body_leaks :
    ∃ s, run (step fun _ => "") (start (fun _ => some fun _ => some ()) "server" false 0 .succeeds)
        (twoPosts [97] [98]) = some s ∧
      s.log.handed.map (·.2.body) = [[97], [97, 98]] ∧ s.log.handed ≠ (requests (twoPosts [97] [98])).map call :=
  ⟨_, rfl, rfl, by decide⟩

/-! ## What is sent -/

/-- The response an action sends, if it sends one, and whether a write is
started for it. -/
def sending (s : ConnectionSession H) : Action H → Option (Origin × Bool)
  | .readCompletes incoming garbage _ =>
    (dispatchError s incoming garbage).map fun _ => (.error s.log.received.length, true)
  | .reply k pkt opened => some (.reply k, starts pkt opened)
  | .deadlineExpires _ => some (s.oldestUnanswered, true)
  | _ => none

/-- What a step does to the responses: nothing, except that it may end a
write, or one response more, to a request that has been read. -/
theorem step_sending {s s' : ConnectionSession H} {a : Action H} (h : step reason s a = some s') :
    s.log.received.length ≤ s'.log.received.length ∧
    match sending s a with
    | none => s'.log.started = s.log.started ∧ s'.log.overwritten = s.log.overwritten ∧ s'.inFlight ≤ s.inFlight
    | some (o, writes) => ∃ resp : Option Response, resp.isSome = writes ∧
        s'.log.started = s.log.started ++ resp.toList.map (fun r => (o, r)) ∧
        s'.log.overwritten = (s.log.overwritten || s.inFlight != 0) ∧
        s'.inFlight = s.inFlight + resp.toList.length ∧
        ∀ k, o.request = some k → k ∈ s.pending ∨ k < s'.log.received.length := by
  have he := step_effect reason h
  generalize hv : s'.view = v at he
  have hreceived : s'.log.received = v.received := congrArg View.received hv
  have hstarted : s'.log.started = v.started := congrArg View.started hv
  have hover : s'.log.overwritten = v.overwritten := congrArg View.overwritten hv
  have hflight : s'.inFlight = v.inFlight := congrArg View.inFlight hv
  rw [hreceived, hstarted, hover, hflight]
  cases he with
  | quiet hq =>
    have hnone : sending s a = none := by cases a <;> first | rfl | cases hq
    rw [hnone]
    exact ⟨Nat.le_refl _, rfl, rfl, Nat.le_refl _⟩
  | called he =>
    simp only [sending, he, Option.map_none]
    exact ⟨by simp [View.receive, view], rfl, rfl, Nat.le_refl _⟩
  | refused he =>
    simp only [sending, he, Option.map_some]
    refine ⟨by simp [View.send, View.receive, view], _, rfl, rfl, rfl, rfl, ?_⟩
    rintro k ⟨⟩
    exact .inr (by simp [View.send, View.receive, view])
  | replied hk hr =>
    refine ⟨Nat.le_refl _, _, hr, rfl, rfl, rfl, ?_⟩
    rintro k ⟨⟩
    exact .inl hk
  | expired =>
    refine ⟨Nat.le_refl _, _, rfl, rfl, rfl, rfl, fun k hk => .inr ?_⟩
    unfold oldestUnanswered at hk
    split at hk
    · next hlt => cases hk; exact hlt
    · cases hk
  | written => exact ⟨Nat.le_refl _, rfl, rfl, Nat.sub_le _ _⟩

/-- At most one write is outstanding, and `m_response` has never been assigned
while one was. -/
def Exclusive (s : ConnectionSession H) : Prop := s.inFlight ≤ 1 ∧ s.log.overwritten = false

theorem exclusive_step (s : ConnectionSession H) (a : Action H) (s' : ConnectionSession H) (hs : Exclusive s)
    (h : step reason s a = some s') : Exclusive s' ↔ (sending s a ≠ none → s.inFlight = 0) := by
  have he := step_sending reason h
  obtain ⟨hle, hover⟩ := hs
  unfold Exclusive
  cases hsend : sending s a with
  | none =>
    rw [hsend] at he
    obtain ⟨-, -, ho, hi⟩ := he
    simp only [ne_eq, not_true_eq_false, false_implies, iff_true]
    exact ⟨Nat.le_trans hi hle, ho.trans hover⟩
  | some x =>
    obtain ⟨o, writes⟩ := x
    rw [hsend] at he
    obtain ⟨-, resp, -, -, ho, hi, -⟩ := he
    have hresp : resp.toList.length ≤ 1 := by cases resp <;> simp
    rw [ho, hi, hover]
    simp only [Bool.false_or, bne_eq_false_iff_eq, ne_eq, reduceCtorEq, not_false_eq_true, true_implies]
    omega

theorem exclusive_start (processors : Processors H) (selfServerName : String) (secure : Bool) (now : Nat)
    (hs : Handshake) : Exclusive (start processors selfServerName secure now hs) := by
  have hv : (start processors selfServerName secure now hs).view =
      (accept processors selfServerName secure now).view := (kept_proceed _ hs).view
  have hflight : (start processors selfServerName secure now hs).inFlight = 0 := congrArg View.inFlight hv
  exact ⟨by omega, congrArg View.overwritten hv⟩

/-- In every run, writes stay exclusive in every state if and only if every
action that sends a response is taken with no write outstanding. -/
theorem exclusive_iff (processors : Processors H) (selfServerName : String) (secure : Bool) (now : Nat)
    (hs : Handshake) (as : List (Action H)) :
    Always (step reason) Exclusive (start processors selfServerName secure now hs) as ↔
      Meets (step reason) (fun s a => sending s a ≠ none → s.inFlight = 0)
        (start processors selfServerName secure now hs) as :=
  always_iff (J := fun _ => True) (fun _ _ _ _ _ _ => trivial) (fun s a s' _ => exclusive_step reason s a s') trivial
    (exclusive_start processors selfServerName secure now hs) as

/-- Two requests answered at once, the second before the write of the first
answer has ended. -/
theorem two_writes_in_flight :
    ∃ s, run (step fun _ => "") (start (fun _ => some fun _ => some ()) "server" false 0 .succeeds)
        [.readCompletes { method := .get, target := "/" } 0 .succeeds, .reply 0 { statusCode := 200 } none,
          .processorReturns .succeeds,
          .readCompletes { method := .get, target := "/" } 0 .succeeds, .reply 1 { statusCode := 200 } none] = some s ∧
      s.inFlight = 2 ∧ s.log.overwritten = true ∧ ¬ Exclusive s :=
  ⟨_, rfl, rfl, rfl, by rintro ⟨-, h⟩; cases h⟩

/-! ## In which order it is sent -/

/-- The responses started are a prefix of the answers to the requests read. -/
def Ordered (s : ConnectionSession H) : Prop :=
  InOrder (fun x : Origin × Response => x.1.request) s.log.received.length s.log.started

/-- Only requests that were read have reply functions. -/
def PendingRead (v : View) : Prop := ∀ k ∈ v.pending, k < v.received.length

theorem pendingRead_step (s : ConnectionSession H) (a : Action H) (s' : ConnectionSession H) (hs : PendingRead s.view)
    (h : step reason s a = some s') : PendingRead s'.view := by
  have he := step_effect reason h
  generalize s'.view = v at he ⊢
  cases he with
  | @called incoming garbage _ _ =>
    intro k hk
    simp only [List.mem_append, List.mem_singleton] at hk
    simp only [View.receive, List.length_append, List.length_singleton]
    rcases hk with hk | rfl
    · exact Nat.lt_succ_of_lt (hs k hk)
    · exact Nat.lt_succ_self _
  | @refused incoming garbage _ _ _ _ =>
    intro k hk
    simp only [View.send, View.receive, List.length_append, List.length_singleton]
    exact Nat.lt_succ_of_lt (hs k hk)
  | replied _ _ => exact fun k hk => hs k (List.mem_of_mem_erase hk)
  | quiet | expired | written => exact hs

theorem ordered_step (s : ConnectionSession H) (a : Action H) (s' : ConnectionSession H) (hp : PendingRead s.view)
    (hs : Ordered s) (h : step reason s a = some s') :
    Ordered s' ↔ ∀ o, sending s a = some (o, true) → o.request = some s.log.started.length := by
  obtain ⟨hrec, he⟩ := step_sending reason h
  unfold Ordered at hs ⊢
  cases hsend : sending s a with
  | none =>
    rw [hsend] at he
    rw [he.1]
    exact iff_of_true (hs.mono hrec) (by simp)
  | some x =>
    obtain ⟨o, writes⟩ := x
    rw [hsend] at he
    obtain ⟨resp, hresp, hst, -, -, hread⟩ := he
    rw [hst]
    cases resp with
    | none =>
      subst hresp
      simp only [Option.toList_none, List.map_nil, List.append_nil]
      exact iff_of_true (hs.mono hrec) (by simp)
    | some r =>
      subst hresp
      -- What is answered was pending, and so read before.
      have hlt : o.request = some s.log.started.length → s.log.started.length < s'.log.received.length := by
        intro ho
        rcases hread _ ho with hk | hk
        · exact Nat.lt_of_lt_of_le (hp _ hk) hrec
        · exact hk
      simp only [Option.toList_some, List.map_cons, List.map_nil, inOrder_concat, hs.mono hrec, true_and,
        Option.isSome_some, Option.some.injEq, Prod.mk.injEq, and_true, forall_eq']
      exact ⟨fun ho => ho.1, fun ho => ⟨ho, hlt ho⟩⟩

theorem ordered_start (processors : Processors H) (selfServerName : String) (secure : Bool) (now : Nat)
    (hs : Handshake) : PendingRead (start processors selfServerName secure now hs).view ∧
      Ordered (start processors selfServerName secure now hs) := by
  have hv : (start processors selfServerName secure now hs).view =
      (accept processors selfServerName secure now).view := (kept_proceed _ hs).view
  constructor
  · rw [hv]; exact fun k hk => absurd hk List.not_mem_nil
  · have hstarted : (start processors selfServerName secure now hs).log.started = [] := congrArg View.started hv
    rw [Ordered, hstarted]
    exact inOrder_nil fun k => ⟨(.error k, {}), rfl⟩

/-- In every run, the responses started are in request order in every state if
and only if each response is sent for the request after those answered. -/
theorem inOrder_iff (processors : Processors H) (selfServerName : String) (secure : Bool) (now : Nat)
    (hs : Handshake) (as : List (Action H)) :
    Always (step reason) Ordered (start processors selfServerName secure now hs) as ↔
      Meets (step reason) (fun s a => ∀ o, sending s a = some (o, true) → o.request = some s.log.started.length)
        (start processors selfServerName secure now hs) as :=
  have hstart := ordered_start processors selfServerName secure now hs
  always_iff (J := fun s => PendingRead s.view) (fun s a s' hp _ => pendingRead_step reason s a s' hp)
    (ordered_step reason) hstart.1 hstart.2 as

/-- The processor of the second request replies before that of the first. -/
theorem replies_swapped :
    ∃ s, run (step fun _ => "") (start (fun _ => some fun _ => some ()) "server" false 0 .succeeds)
        (twoPosts [] [] ++ [.reply 1 { statusCode := 200 } none, .writeCompletes]) = some s ∧
      s.log.started.map (·.1) = [.reply 1] ∧ ¬ Ordered s := by
  refine ⟨_, rfl, rfl, fun h => ?_⟩
  have h : InOrder (fun x : Origin × Response => x.1.request) 2 ([] ++ [(.reply 1, _)]) := h
  obtain ⟨-, hfirst, -⟩ := inOrder_concat.1 h
  cases hfirst

-- On an idle connection the deadline sends a response nobody asked for.
example :
    ∃ s, run (step fun _ => "") (start (fun _ => some fun _ => some ()) "server" false 0 .succeeds)
        [.tick (Asio.seconds 10), .deadlineElapses, .deadlineExpires true] = some s ∧
      s.log.received = [] ∧ s.log.started.map (·.1) = [.deadline] :=
  ⟨_, rfl, rfl, rfl⟩

end ComponentsNetwork.HTTP.ConnectionSession
