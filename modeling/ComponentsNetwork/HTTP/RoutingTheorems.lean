import ComponentsNetwork.HTTP.SessionTheorems
/-!
# Routing

A table of processors is what the `set…Handler` calls made it, the last one
for a target and a method in force (`route`). `route_table` proves that the
two-level map of the server finds just that.

- `routed_iff`: every request takes its route, whatever was registered for
  other targets, and its handler gets the packet of the request if and only if
  the requests before it on the connection had no body.
- `unsupported_refused_iff`: a request with another method is refused if and
  only if what `targetMethodType` holds is no method.
-/

namespace ComponentsNetwork.HTTP

/-- A call of one of the `set…Handler` functions. -/
structure Registration (H : Type) where
  target : String
  method : MethodType
  cbk : H

/-- What becomes of a request: a handler is called, or a 404 or a 501 sent. -/
inductive Route (H : Type)
  | handler (cbk : H)
  | notFound
  | notImplemented

variable {H : Type}

/-- The handler registered last for the target and the method; 404 if there is
none and another method of the target has one. -/
def route (regs : List (Registration H)) (target : String) (method : MethodType) : Route H :=
  match regs.reverse.find? fun r => r.target = target ∧ r.method = method with
  | some r => .handler r.cbk
  | none => if regs.any fun r => r.target = target then .notFound else .notImplemented

namespace Processors

/-- `m_processors` after the calls. -/
def table (regs : List (Registration H)) : Processors H :=
  regs.foldl (fun ps r => ps.setHandler r.target r.method r.cbk) fun _ => none

/-- What the two look-ups of `handleMethod` come to. -/
def find (ps : Processors H) (target : String) (method : MethodType) : Route H :=
  match ps target with
  | none => .notImplemented
  | some methods =>
    match methods method with
    | none => .notFound
    | some cbk => .handler cbk

end Processors

/-- How a registration changes the route of a request. -/
def Route.register (x : Route H) (r : Registration H) (target : String) (method : MethodType) : Route H :=
  if r.target = target then
    if r.method = method then .handler r.cbk
    else
      match x with
      | .notImplemented => .notFound
      | x => x
  else x

theorem Route.register_other (x : Route H) {r : Registration H} {target : String} (h : r.target ≠ target)
    (method : MethodType) : x.register r target method = x := if_neg h

theorem route_concat (regs : List (Registration H)) (r : Registration H) (target : String) (method : MethodType) :
    route (regs ++ [r]) target method = (route regs target method).register r target method := by
  unfold route Route.register
  rw [List.reverse_append, List.reverse_singleton, List.singleton_append, List.find?_cons, List.any_append]
  by_cases ht : r.target = target
  · by_cases hm : r.method = method
    · simp [ht, hm]
    · simp only [ht, hm, and_false, decide_false, List.any_cons, decide_true, Bool.true_or, Bool.or_true, if_true,
        if_false]
      cases regs.reverse.find? fun r => r.target = target ∧ r.method = method with
      | some last => rfl
      | none => cases regs.any fun r => r.target = target <;> rfl
  · simp [ht]

theorem Processors.find_setHandler (ps : Processors H) (r : Registration H) (target : String) (method : MethodType) :
    (ps.setHandler r.target r.method r.cbk).find target method = (ps.find target method).register r target method := by
  unfold Processors.find Processors.setHandler Route.register
  by_cases ht : r.target = target
  · subst ht
    by_cases hm : r.method = method
    · simp [hm]
    · have hm' : ¬ method = r.method := fun h => hm h.symm
      simp only [if_true, hm, hm', if_false]
      cases ps r.target with
      | none => rfl
      | some methods =>
        dsimp only [Option.bind_some]
        cases methods method <;> rfl
  · have ht' : ¬ target = r.target := fun h => ht h.symm
    simp [ht, ht']

theorem Processors.table_append (regs more : List (Registration H)) :
    Processors.table (regs ++ more) =
      more.foldl (fun ps r => ps.setHandler r.target r.method r.cbk) (Processors.table regs) := List.foldl_append

/-- The map finds the handler registered last. -/
theorem route_table (regs : List (Registration H)) (target : String) (method : MethodType) :
    (Processors.table regs).find target method = route regs target method := by
  induction regs using List.reverseRecOn with
  | nil => rfl
  | append_singleton regs r ih =>
    rw [route_concat, ← ih, Processors.table_append]
    exact Processors.find_setHandler _ r target method

namespace ConnectionSession

open Buffers Runs

variable (reason : Nat → String)

/-! ## What a request does -/

/-- No handler is called, and one response with the status is sent. -/
def Refuses (s s' : ConnectionSession H) (status : Nat) : Prop :=
  s'.log.called = s.log.called ∧ ∃ resp : Response, resp.result = status ∧
    s'.log.started = s.log.started ++ [(.error s.log.received.length, resp)]

/-- From `s` to `s'`, a request takes the route: its handler is called once
with the packet and nothing is sent, or it is refused. -/
def Follows (s s' : ConnectionSession H) (pkt : Packet) : Route H → Prop
  | .handler cbk => s'.log.called = s.log.called ++ [(cbk, pkt)] ∧ s'.log.started = s.log.started
  | .notFound => Refuses s s' 404
  | .notImplemented => Refuses s s' 501

theorem sendErrorResponse_refuses (s : ConnectionSession H) {status : Nat} (h : status ≤ 999) (o : Origin) :
    (sendErrorResponse reason s status o).2 = .returns ∧
      (sendErrorResponse reason s status o).1.log.called = s.log.called ∧
      ∃ resp : Response, resp.result = status ∧
        (sendErrorResponse reason s status o).1.log.started = s.log.started ++ [(o, resp)] := by
  have hcode : (createErrorPacket reason status).statusCode ≤ 999 := h
  unfold sendErrorResponse sendBody writeResponse
  dsimp only
  rw [if_pos hcode]
  exact ⟨rfl, rfl, _, rfl, rfl⟩

theorem dispatch_refuses {s : ConnectionSession H} {incoming : Request} {garbage : Int} {status : Nat}
    (h : dispatchError s incoming garbage = some status) :
    Refuses s (dispatch reason (received s incoming) garbage s.log.received.length).1 status := by
  rw [dispatch_error reason h]
  exact (sendErrorResponse_refuses reason _ (dispatchError_le h) _).2

theorem dispatch_follows (s : ConnectionSession H) (incoming : Request) (garbage : Int)
    (hm : targetMethodType incoming.method garbage ∈ s.processors) :
    Follows s (dispatch reason (received s incoming) garbage s.log.received.length).1
      (requestPacket (s.request.readInto incoming))
      (s.serverProcessors.find incoming.target (targetMethodType incoming.method garbage)) := by
  unfold Processors.find
  cases hp : s.serverProcessors incoming.target with
  | none => exact dispatch_refuses reason (by simp [dispatchError, hm, hp])
  | some methods =>
    dsimp only
    cases hc : methods (targetMethodType incoming.method garbage) with
    | none => exact dispatch_refuses reason (by simp [dispatchError, hm, hp, hc])
    | some cbk =>
      have ht := dispatch_taken reason s incoming garbage s.log.received.length
      generalize dispatch reason (received s incoming) garbage s.log.received.length = x at ht ⊢
      cases ht with
      | refused he => simp [dispatchError, hm, hp, hc] at he
      | called _ target method =>
        rw [hp] at target
        cases target
        rw [hc] at method
        cases method
        exact ⟨rfl, rfl⟩

theorem follows_log {s s' t : ConnectionSession H} {pkt : Packet} {x : Route H} (h : Follows s t pkt x)
    (hlog : s'.log = t.log) : Follows s s' pkt x := by
  cases x <;> simpa [Follows, Refuses, hlog] using h

/-- A request takes the route that the map of the server gives it, with what
is then in `m_request`. -/
theorem step_follows {s s' : ConnectionSession H} (hp : s.processors = [.Get, .Put, .Post, .Delete])
    {incoming : Request} (hm : Supported incoming.method) {garbage : Int} {hs : Handshake}
    (h : step reason s (.readCompletes incoming garbage hs) = some s') :
    Follows s s' (requestPacket (s.request.readInto incoming))
      (s.serverProcessors.find incoming.target (targetMethodType incoming.method 0)) := by
  simp only [step, Option.ite_none_right_eq_some, Option.some.injEq] at h
  obtain ⟨-, rfl⟩ := h
  obtain ⟨hsame, hmem⟩ := targetMethodType_supported hm garbage
  rw [← hsame]
  rw [← hp] at hmem
  exact follows_log (dispatch_follows reason s incoming garbage hmem)
    (kept_readHandler reason s incoming garbage hs).log

/-! ## What registers a handler -/

/-- The registration an action makes. -/
def Action.registration : Action H → Option (Registration H)
  | .setHandler target method cbk => some ⟨target, method, cbk⟩
  | _ => none

/-- The registrations of a run, in order. -/
def registrations (as : List (Action H)) : List (Registration H) := as.filterMap Action.registration

theorem registrations_concat (as : List (Action H)) (a : Action H) :
    registrations (as ++ [a]) = registrations as ++ (Action.registration a).toList := by
  cases h : Action.registration a <;> simp [registrations, List.filterMap_append, h]

@[simp] theorem writeResponse_serverProcessors (s : ConnectionSession H) (pkt : Packet) (o : Origin) :
    (writeResponse s pkt o).1.serverProcessors = s.serverProcessors := by
  unfold writeResponse
  split <;> rfl

@[simp] theorem sendErrorResponse_serverProcessors (s : ConnectionSession H) (status : Nat) (o : Origin) :
    (sendErrorResponse reason s status o).1.serverProcessors = s.serverProcessors :=
  writeResponse_serverProcessors _ _ _

@[simp] theorem sendResponse_serverProcessors (s : ConnectionSession H) (pkt : Packet) (opened : Option Bytes)
    (o : Origin) : (sendResponse reason s pkt opened o).1.serverProcessors = s.serverProcessors := by
  unfold sendResponse
  split
  · cases opened with
    | none => exact sendErrorResponse_serverProcessors reason _ _ _
    | some content => exact writeResponse_serverProcessors _ _ _
  · exact writeResponse_serverProcessors _ _ _

@[simp] theorem dispatch_serverProcessors (s : ConnectionSession H) (incoming : Request) (garbage : Int) (k : Nat) :
    (dispatch reason (received s incoming) garbage k).1.serverProcessors = s.serverProcessors := by
  have ht := dispatch_taken reason s incoming garbage k
  generalize dispatch reason (received s incoming) garbage k = x at ht ⊢
  cases ht with
  | refused => exact sendErrorResponse_serverProcessors reason _ _ _
  | called => rfl

/-- Handlers and replies leave the map of the server alone. -/
theorem step_serverProcessors {s s' : ConnectionSession H} {a : Action H} (h : step reason s a = some s') :
    s'.serverProcessors =
      (Action.registration a).toList.foldl (fun ps r => ps.setHandler r.target r.method r.cbk) s.serverProcessors := by
  cases step_taken reason h with
  | setHandler | processorThrows | tick | deadlineElapses | writeCompletes => rfl
  | @readCompletes incoming garbage hs =>
    rw [(kept_readHandler reason s incoming garbage hs).serverProcessors, dispatch_serverProcessors]
    rfl
  | @readFails quiet closes =>
    cases quiet
    · exact (kept_closeConnection _ closes).serverProcessors
    · rfl
  | @reply k pkt opened => exact sendResponse_serverProcessors reason _ pkt opened (.reply k)
  | @processorReturns hs => exact (kept_proceed s hs).serverProcessors
  | @deadlineExpires closes =>
    rw [(kept_deadlineHandler reason _ closes).serverProcessors, sendResponse_serverProcessors]
    rfl

/-! ## Routing in a run -/

/-- How a session stands to the actions of its run. -/
structure Routes (regs : List (Registration H)) (s : ConnectionSession H) (as : List (Action H)) : Prop where
  received : Received s.view (requests as)
  table : s.serverProcessors = Processors.table (regs ++ registrations as)

theorem routes_step (regs : List (Registration H)) (s : ConnectionSession H) (as : List (Action H)) (a : Action H)
    (s' : ConnectionSession H) (h : Routes regs s as) (hs : step reason s a = some s') : Routes regs s' (as ++ [a]) := by
  refine ⟨received_step reason s as a s' h.received hs, ?_⟩
  rw [step_serverProcessors reason hs, h.table, registrations_concat, ← List.append_assoc]
  exact (Processors.table_append _ _).symm

theorem routes_start (regs : List (Registration H)) (selfServerName : String) (secure : Bool) (now : Nat)
    (hs : Handshake) : Routes regs (start (Processors.table regs) selfServerName secure now hs) [] := by
  refine ⟨received_start _ selfServerName secure now hs, ?_⟩
  rw [start, (kept_proceed _ hs).serverProcessors, registrations, List.filterMap_nil, List.append_nil]
  rfl

/-- A packet shows the body of its request alone. -/
theorem requestPacket_readInto_iff (msg incoming : Request) :
    requestPacket (msg.readInto incoming) = requestPacket incoming ↔ msg.body = [] := by
  simp [requestPacket, Request.readInto]

theorem follows_packet_iff {s s' : ConnectionSession H} {pkt pkt' : Packet} {x : Route H} (h : Follows s s' pkt x) :
    Follows s s' pkt' x ↔ ((∃ cbk, x = .handler cbk) → pkt = pkt') := by
  cases x with
  | handler cbk =>
    obtain ⟨hcalled, hstarted⟩ := h
    simp [Follows, hcalled, hstarted]
  | notFound => exact iff_of_true h (by simp)
  | notImplemented => exact iff_of_true h (by simp)

/-- The route that the registrations before a run and in it give a request. -/
def routeOf (regs : List (Registration H)) (as : List (Action H)) (r : Request) : Route H :=
  route (regs ++ registrations as) r.target (targetMethodType r.method 0)

/-- In every run, with handlers registered before it and during it, a request
with one of the four methods takes its route if and only if no handler is
registered for it or no request before it on the connection had a body: the
handler registered last is called once, with the packet of the request, and
nothing is sent, or no handler is called and one 404 or 501 is sent. One more
registration for another target leaves the request the route it has. -/
theorem routed_iff (regs : List (Registration H)) (selfServerName : String) (secure : Bool) (now : Nat)
    (hs : Handshake) (as : List (Action H)) (s : ConnectionSession H)
    (h : run (step reason) (start (Processors.table regs) selfServerName secure now hs) as = some s)
    (incoming : Request) (hm : Supported incoming.method) (garbage : Int) (hs' : Handshake) :
    (∀ s', step reason s (.readCompletes incoming garbage hs') = some s' →
        (Follows s s' (requestPacket incoming) (routeOf regs as incoming) ↔
          ((∃ cbk, routeOf regs as incoming = .handler cbk) → ∀ r ∈ requests as, r.body = []))) ∧
      ∀ target method cbk t t', target ≠ incoming.target → step reason s (.setHandler target method cbk) = some t →
        step reason t (.readCompletes incoming garbage hs') = some t' →
          Follows t t' (requestPacket (s.request.readInto incoming)) (routeOf regs as incoming) := by
  obtain ⟨hreceived, htable⟩ := run_history (R := Routes regs) (routes_start regs selfServerName secure now hs)
    (routes_step reason regs) h
  obtain ⟨hprocessors, -, hbody, -⟩ := hreceived
  have hprocessors : s.processors = [.Get, .Put, .Post, .Delete] := hprocessors
  have hbody : s.request.body = ((requests as).map (·.body)).flatten := hbody
  constructor
  · intro s' hstep
    have hfollows := step_follows reason hprocessors hm hstep
    rw [htable, route_table] at hfollows
    rw [routeOf, follows_packet_iff hfollows, requestPacket_readInto_iff, hbody]
    simp
  · intro target method cbk t t' hother hset hstep
    cases hset
    have hfollows := step_follows reason (s := { s with
      serverProcessors := s.serverProcessors.setHandler target method cbk }) hprocessors hm hstep
    rw [Processors.find_setHandler _ ⟨target, method, cbk⟩, Route.register_other _ hother, htable, route_table] at hfollows
    exact hfollows

/-- A POST to a target with two registrations for POST and one for GET, and
one more for another target. -/
theorem routed_last :
    ∃ s, run (step fun _ => "")
        (start (Processors.table [⟨"/a", .Post, 1⟩, ⟨"/a", .Get, 2⟩]) "server" false 0 .succeeds)
        [.setHandler "/a" .Post 3, .setHandler "/b" .Put 4] = some s ∧
      ∃ s', step (fun _ => "") s (.readCompletes { method := .post, target := "/a", body := [97] } 0 .succeeds) = some s' ∧
        Follows s s' (requestPacket { method := .post, target := "/a", body := [97] }) (.handler 3) := by
  have hrouted := (routed_iff (fun _ => "") [⟨"/a", .Post, 1⟩, ⟨"/a", .Get, 2⟩] "server" false 0 .succeeds
    [.setHandler "/a" .Post 3, .setHandler "/b" .Put 4] _ rfl { method := .post, target := "/a", body := [97] }
    (by decide) 0 .succeeds).1 _ rfl
  exact ⟨_, rfl, _, rfl, hrouted.2 (by simp [requests, Action.request])⟩

/-- The handler of the second POST is called with both bodies. -/
theorem handler_gets_both_bodies :
    ∃ s s', run (step fun _ => "") (start (Processors.table [⟨"/", .Post, ()⟩]) "server" false 0 .succeeds)
        [.readCompletes { method := .post, target := "/", body := [97] } 0 .succeeds, .processorReturns .succeeds] = some s ∧
      step (fun _ => "") s (.readCompletes { method := .post, target := "/", body := [98] } 0 .succeeds) = some s' ∧
      s'.log.called.map (·.2.body) = [[97], [97, 98]] ∧
      ¬ Follows s s' (requestPacket { method := .post, target := "/", body := [98] }) (.handler ()) := by
  refine ⟨_, _, rfl, rfl, rfl, ?_⟩
  rintro ⟨hcalled, -⟩
  exact absurd (congrArg (List.map fun x => x.2.body) hcalled) (by decide)

/-! ## Unsupported methods -/

/-- The methods in `m_processors` stand for 0..3. -/
theorem ofInt_mem_iff (v : Int) :
    MethodType.ofInt v ∈ [MethodType.Get, .Put, .Post, .Delete] ↔ ¬ (v < 0 ∨ 3 < v) := by
  unfold MethodType.ofInt
  split_ifs with h0 h1 h2 h3 h <;> simp <;> omega

/-- No route ends in a 405. -/
theorem follows_not_refuses {s s' : ConnectionSession H} {pkt : Packet} {x : Route H} (h : Follows s s' pkt x) :
    ¬ Refuses s s' 405 := by
  rintro ⟨hcalled, resp, hresult, hstarted⟩
  have hresp : ∀ {status : Nat}, Refuses s s' status → status = 405 := by
    rintro status ⟨-, resp', hresult', hstarted'⟩
    rw [hstarted] at hstarted'
    obtain ⟨-, hlast⟩ := List.append_inj' hstarted' rfl
    cases hlast
    exact hresult'.symm.trans hresult
  cases x with
  | handler cbk =>
    obtain ⟨hcalled', -⟩ := h
    rw [hcalled] at hcalled'
    exact absurd (congrArg List.length hcalled') (by simp)
  | notFound => exact absurd (hresp h) (by decide)
  | notImplemented => exact absurd (hresp h) (by decide)

/-- A request with an unsupported method is refused with a 405. -/
def RefusesUnsupported (s : ConnectionSession H) : Action H → ConnectionSession H → Prop
  | .readCompletes incoming _ _, s' => ¬ Supported incoming.method → Refuses s s' 405
  | _, _ => True

/-- What `targetMethodType` holds for a request with an unsupported method is
not one of the four methods. -/
def Action.NoMethod : Action H → Prop
  | .readCompletes incoming garbage _ => ¬ Supported incoming.method → garbage < 0 ∨ 3 < garbage
  | _ => True

instance (a : Action H) : Decidable a.NoMethod := by
  cases a <;> unfold Action.NoMethod <;> infer_instance

theorem step_refuses_iff {s s' : ConnectionSession H} (hp : s.processors = [.Get, .Put, .Post, .Delete])
    {a : Action H} (h : step reason s a = some s') : RefusesUnsupported s a s' ↔ a.NoMethod := by
  cases step_taken reason h with
  | @readCompletes incoming garbage hs =>
    refine imp_congr_right fun hm => ?_
    have hother : targetMethodType incoming.method garbage = MethodType.ofInt garbage := by
      cases hv : incoming.method <;> first | rfl | exact absurd hm (by simp [hv, Supported])
    have hmem : targetMethodType incoming.method garbage ∈ s.processors ↔ ¬ (garbage < 0 ∨ 3 < garbage) := by
      rw [hother, hp, ofInt_mem_iff]
    have hlog := (kept_readHandler reason s incoming garbage hs).log
    by_cases hin : targetMethodType incoming.method garbage ∈ s.processors
    · have hfollows := follows_log (dispatch_follows reason s incoming garbage hin) hlog
      exact iff_of_false (follows_not_refuses hfollows) (hmem.1 hin)
    · have herror : dispatchError s incoming garbage = some 405 := by simp [dispatchError, hin]
      have hrefuses := dispatch_refuses reason herror
      refine iff_of_true ?_ (not_not.1 fun hno => hin (hmem.2 hno))
      unfold Refuses
      rw [hlog]
      exact hrefuses
  | _ => exact Iff.rfl

theorem effect_processors {s : ConnectionSession H} {a : Action H} {v : View} (h : Effect s a v) :
    v.processors = s.processors := by
  cases h <;> rfl

/-- In every run, with handlers registered before it and during it, each
request with an unsupported method calls no handler and gets one 405 if and
only if, whenever such a request is read, the local variable that the `switch`
leaves unassigned holds none of the values of the four methods. -/
theorem unsupported_refused_iff (processors : Processors H) (selfServerName : String) (secure : Bool) (now : Nat)
    (hs : Handshake) (as : List (Action H)) :
    EachStep (step reason) RefusesUnsupported (start processors selfServerName secure now hs) as ↔
      Meets (step reason) (fun _ a => a.NoMethod) (start processors selfServerName secure now hs) as := by
  refine eachStep_iff (J := fun s : ConnectionSession H => s.processors = [.Get, .Put, .Post, .Delete])
    (fun s a s' hp h => ?_) (fun s a s' hp _ h => ?_) ?_ as
  · exact step_refuses_iff reason hp h
  · exact (effect_processors (step_effect reason h)).trans hp
  · exact (received_start processors selfServerName secure now hs).1

/-- A HEAD request runs the handler registered for GET. -/
theorem head_runs_get_handler :
    ¬ EachStep (step fun _ => "") RefusesUnsupported
      (start (Processors.table [⟨"/", .Get, ()⟩]) "server" false 0 .succeeds)
      [.readCompletes { method := .other "HEAD", target := "/" } 0 .succeeds] := by
  intro h
  obtain ⟨hrefuses, -⟩ := h _ rfl
  obtain ⟨hcalled, -⟩ := hrefuses (by decide)
  exact absurd (congrArg List.length hcalled) (by decide)

end ConnectionSession

end ComponentsNetwork.HTTP
