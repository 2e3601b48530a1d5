import ComponentsNetwork.HTTP.Client
/-!
# Which answer a client delivers

One client, and a server that answers every request it receives, in order, on
the connection the request came on. A client finds the answer to its request
by position alone: it reads the next response of the connection. A read that
fails leaves the connection open, and what the server has sent on it is there
for the next call that keeps the connection.

`paired_iff`: every packet delivered is built from the response to its own
request, if and only if each call that delivers one reads a response to the
end, on a connection with no earlier response left unread.
-/

namespace ComponentsNetwork.HTTP.Client

open Buffers Runs

/-- A packet handed to the caller as an answer. -/
structure Delivery where
  /-- The call it answers, counted from 0. -/
  call : Nat
  asked : Packet
  async : Bool
  packet : Packet
  /-- The response it is built from, as the call this one answers; none if no
  response was read to its end. -/
  source : Option Nat
deriving DecidableEq

/-- A client and what its server has sent. -/
structure Link where
  client : Client
  calls : Nat := 0
  /-- The responses on the connection that have not been read, oldest first,
  each as the call it answers. One read in part is `none`. -/
  unread : List (Option Nat) := []
  delivered : List Delivery := []

namespace Link

inductive Asked
  | request (method : MethodType) (pkt : Packet)
  | requestAsync (method : MethodType) (pkt : Packet) (cbk : Bool)

/-- A call and what it meets. A read takes in, besides the response it ends
with, what a buffer happens to hold of the responses after it: `skipped` of
them and, if `torn`, a part of one more. -/
structure Action where
  call : Asked
  attempt : Attempt
  write : Bool := true
  /-- The request is received by the server, which answers it. -/
  arrives : Bool := true
  read : Bool := true
  skipped : Nat := 0
  torn : Bool := false
  /-- What the response object holds if no response was read to its end. -/
  res : Response := {}

def Asked.method : Asked → MethodType
  | .request method _ => method
  | .requestAsync method _ _ => method

def Asked.packet : Asked → Packet
  | .request _ pkt => pkt
  | .requestAsync _ pkt _ => pkt

/-- `connectToHost` returns true, and the call writes its request. -/
def writes (s : Link) (a : Action) : Bool :=
  (requestMethod a.call.method).isSome && (s.client.connectToHost a.attempt).1 = .returns true

/-- What is left unread on the connection the call uses: nothing, if it makes
a new one. -/
def kept (s : Link) (a : Action) : List (Option Nat) :=
  if requestMethod a.call.method = none || s.client.isConnected a.attempt then s.unread
  else match a.attempt.resolved with
    | none => s.unread
    | some (first, _) =>
      if s.client.secure then
        if a.attempt.sni && a.attempt.connect first ≠ .fails true then [] else s.unread
      else []

/-- The responses that the call's read finds. -/
def found (s : Link) (a : Action) : List (Option Nat) :=
  s.kept a ++ if s.writes a && a.write && a.arrives then [some s.calls] else []

/-- What a read leaves, of which `n` responses are gone. -/
def leftOf (found : List (Option Nat)) (n : Nat) (torn : Bool) : List (Option Nat) :=
  if torn && n < found.length then none :: found.drop (n + 1) else found.drop n

/-- The call reads a response to its end. -/
def reads (s : Link) (a : Action) : Bool := s.writes a && a.write && a.read

/-- The response a call reads to its end. -/
def source (s : Link) (a : Action) : Option Nat := if s.reads a then (s.found a).head?.join else none

variable (answers : Nat → Response)

def exchange (s : Link) (a : Action) : Exchange :=
  { write := a.write, read := a.read, res := (s.source a).elim a.res answers }

/-- The packets the caller gets as answers, and the client afterwards. -/
def outcome (s : Link) (a : Action) : List Packet × Client :=
  match a.call with
  | .request method pkt =>
    match s.client.request method pkt a.attempt (s.exchange answers a) with
    | (.returns p, c) => (if s.reads a then [p] else [], c)
    | (.throws, c) => ([], c)
  | .requestAsync method pkt cbk =>
    let x := s.client.requestAsync method pkt cbk a.attempt (s.exchange answers a)
    (x.2.1.filterMap id, x.2.2)

def Asked.isAsync : Asked → Bool
  | .request .. => false
  | .requestAsync .. => true

/-- A call, from its start to its end. A read ends without error only if there
is something to read. -/
def step (s : Link) (a : Action) : Option Link :=
  if s.reads a && s.found a = [] then none
  else
    let out := s.outcome answers a
    some {
      client := out.2
      calls := s.calls + 1
      unread :=
        if s.writes a && a.write then leftOf (s.found a) (if a.read then a.skipped + 1 else a.skipped) a.torn
        else s.found a
      delivered := s.delivered ++
        out.1.map fun p => ⟨s.calls, a.call.packet, a.call.isAsync, p, s.source a⟩ }

/-! ## What a call delivers -/

/-- The call ends with a packet for the caller. A callback gets one even where
the read failed. -/
def delivers (s : Link) (a : Action) : Bool :=
  match a.call with
  | .request .. => s.reads a
  | .requestAsync _ _ cbk => s.writes a && a.write && cbk

/-- The packet built from a response. -/
def built (async : Bool) (asked : Packet) (res : Response) : Packet :=
  if async then responsePacket asked res
  else
    { asked with
      statusCode := res.result
      bodyType := ((res.fields.value .content_type).map Packet.fromString).getD asked.bodyType
      body := res.body.octets }

theorem request_returns {c : Client} {method : MethodType} {a : Attempt}
    (hm : (requestMethod method).isSome = true) (hc : (c.connectToHost a).1 = .returns true) (pkt : Packet)
    {x : Exchange} (hw : x.write = true) (hr : x.read = true) :
    (c.request method pkt a x).1 = .returns (built false pkt x.res) := by
  obtain ⟨verb, hv⟩ := Option.isSome_iff_exists.1 hm
  unfold request
  rcases he : c.connectToHost a with ⟨o, c'⟩
  rw [he] at hc
  cases hc
  simp only [hv, hw, hr, Bool.and_self, if_true]
  cases ht : x.res.fields.value .content_type <;> simp [built, ht]

theorem requestAsync_callbacks (c : Client) (method : MethodType) (pkt : Packet) (cbk : Bool) (a : Attempt)
    (x : Exchange) :
    (c.requestAsync method pkt cbk a x).2.1 =
      if (requestMethod method).isSome && (c.connectToHost a).1 = .returns true then writeHandler pkt cbk x else [] := by
  unfold requestAsync
  cases requestMethod method with
  | none => rfl
  | some verb => rcases c.connectToHost a with ⟨⟨_ | _⟩ | _, c'⟩ <;> rfl

theorem writeHandler_packets (pkt : Packet) (cbk : Bool) (x : Exchange) :
    (writeHandler pkt cbk x).filterMap id = if x.write && cbk then [responsePacket pkt x.res] else [] := by
  unfold writeHandler readHandler invoke
  cases x.write <;> cases x.read <;> cases cbk <;> rfl

theorem outcome_packets (s : Link) (a : Action) :
    (s.outcome answers a).1 =
      if s.delivers a then [built a.call.isAsync a.call.packet (s.exchange answers a).res] else [] := by
  obtain ⟨call, attempt, wr, arrives, rd, skipped, torn, res⟩ := a
  cases call with
  | request method pkt =>
    unfold outcome delivers
    dsimp only
    by_cases hr : s.reads ⟨.request method pkt, attempt, wr, arrives, rd, skipped, torn, res⟩ = true
    · -- A call that gets as far as its read returns.
      have hall := hr
      simp only [reads, writes, Asked.method, Bool.and_eq_true, decide_eq_true_eq] at hall
      obtain ⟨⟨⟨hm, hc⟩, hw⟩, hrd⟩ := hall
      have hret := request_returns hm hc pkt
        (x := s.exchange answers ⟨.request method pkt, attempt, wr, arrives, rd, skipped, torn, res⟩) hw hrd
      split
      · next p c he =>
        rw [he] at hret
        cases hret
        simp only [hr, if_true]
        rfl
      · next c he => rw [he] at hret; cases hret
    · simp only [hr, Bool.false_eq_true, if_false]
      split <;> rfl
  | requestAsync method pkt cbk =>
    unfold outcome delivers
    dsimp only
    have hwrites : s.writes ⟨.requestAsync method pkt cbk, attempt, wr, arrives, rd, skipped, torn, res⟩ =
      ((requestMethod method).isSome && (s.client.connectToHost attempt).1 = .returns true) := rfl
    rw [requestAsync_callbacks, ← hwrites]
    cases s.writes ⟨.requestAsync method pkt cbk, attempt, wr, arrives, rd, skipped, torn, res⟩ with
    | true =>
      rw [if_pos rfl, writeHandler_packets]
      rfl
    | false => rfl

/-! ## Pairing -/

/-- Every packet delivered is built from the response to its own request. -/
def Paired (s : Link) : Prop := ∀ d ∈ s.delivered, d.source = some d.call

instance (s : Link) : Decidable (Paired s) := inferInstanceAs (Decidable (∀ d ∈ s.delivered, _))

/-- If the call delivers a packet, it reads a response to its end, and no
earlier one is left on the connection. -/
def Current (s : Link) (a : Action) : Prop := s.delivers a = true → a.read = true ∧ s.kept a = []

/-- What is unread answers earlier calls. -/
def Earlier (s : Link) : Prop := ∀ m, some m ∈ s.unread → m < s.calls

theorem kept_subset (s : Link) (a : Action) : s.kept a ⊆ s.unread := by
  unfold kept
  intro r hr
  split at hr
  · exact hr
  · split at hr
    · exact hr
    · split at hr
      · split at hr
        · exact absurd hr List.not_mem_nil
        · exact hr
      · exact absurd hr List.not_mem_nil

theorem mem_leftOf {found : List (Option Nat)} {n : Nat} {torn : Bool} {m : Nat}
    (h : some m ∈ leftOf found n torn) : some m ∈ found := by
  unfold leftOf at h
  split at h
  · rcases List.mem_cons.1 h with h | h
    · cases h
    · exact List.mem_of_mem_drop h
  · exact List.mem_of_mem_drop h

theorem found_le {s : Link} (hi : s.Earlier) {a : Action} {m : Nat} (h : some m ∈ s.found a) : m ≤ s.calls := by
  rcases List.mem_append.1 h with h | h
  · exact Nat.le_of_lt (hi m (s.kept_subset a h))
  · split at h
    · cases List.mem_singleton.1 h
      exact Nat.le_refl _
    · exact absurd h List.not_mem_nil

theorem earlier_step (s : Link) (a : Action) (s' : Link) (hi : s.Earlier) (h : step answers s a = some s') :
    s'.Earlier := by
  simp only [step, Option.ite_none_left_eq_some, Option.some.injEq] at h
  obtain ⟨-, rfl⟩ := h
  intro m hm
  have hfound : some m ∈ s.found a := by
    dsimp only at hm
    split at hm
    · exact mem_leftOf hm
    · exact hm
  exact Nat.lt_succ_of_le (found_le hi hfound)

/-- A call that delivers a packet reads its own answer exactly if it reads to
the end of one, with no earlier one before it. -/
theorem source_own_iff {s : Link} (hi : s.Earlier) {a : Action} (hd : s.delivers a = true)
    (hfound : ¬ (s.reads a = true ∧ s.found a = [])) :
    s.source a = some s.calls ↔ a.read = true ∧ s.kept a = [] := by
  have hwr : s.writes a = true ∧ a.write = true := by
    unfold delivers at hd
    split at hd
    · simp only [reads, Bool.and_eq_true] at hd
      exact hd.1
    · simp only [Bool.and_eq_true] at hd
      exact hd.1
  have hreads : s.reads a = a.read := by simp [reads, hwr]
  unfold source
  rw [hreads] at hfound ⊢
  cases hr : a.read with
  | false => simp
  | true =>
    rw [hr] at hfound
    simp only [true_and, if_true] at hfound ⊢
    cases hk : s.kept a with
    | nil =>
      have hf : s.found a = if a.arrives then [some s.calls] else [] := by simp [found, hk, hwr]
      rw [hf] at hfound ⊢
      cases ha : a.arrives with
      | false => exact absurd (by simp [ha]) hfound
      | true => simp
    | cons r rest =>
      have hf : s.found a = r :: (rest ++ if s.writes a && a.write && a.arrives then [some s.calls] else []) := by
        simp [found, hk]
      rw [hf]
      refine iff_of_false (fun he => ?_) (List.cons_ne_nil _ _)
      -- What is still unread answers an earlier call.
      have hmem : some s.calls ∈ s.unread := s.kept_subset a (by rw [hk]; simp_all)
      exact Nat.lt_irrefl _ (hi _ hmem)

theorem paired_step (s : Link) (a : Action) (s' : Link) (hi : s.Earlier) (hp : s.Paired)
    (h : step answers s a = some s') : s'.Paired ↔ s.Current a := by
  simp only [step, Option.ite_none_left_eq_some, Option.some.injEq, Bool.and_eq_true, decide_eq_true_eq] at h
  obtain ⟨hfound, rfl⟩ := h
  unfold Paired Current
  rw [outcome_packets]
  by_cases hd : s.delivers a = true
  · simp only [hd, if_true, List.map_cons, List.map_nil, List.mem_append, List.mem_singleton, true_imp_iff]
    rw [← source_own_iff hi hd hfound]
    constructor
    · intro hall
      exact hall _ (.inr rfl)
    · rintro hs d (hd' | rfl)
      · exact hp d hd'
      · exact hs
  · simp only [hd, Bool.false_eq_true, if_false, List.map_nil, List.append_nil, false_imp_iff, iff_true]
    exact hp

/-- Every packet delivered in a run is built from the response to its own
request, if and only if each call of the run that delivers one reads a
response to its end and uses a connection on which none is left unread. -/
theorem paired_iff (c : Client) (as : List Action) :
    Always (step answers) Paired { client := c } as ↔ Meets (step answers) Current { client := c } as :=
  always_iff (J := Earlier) (fun s a s' hi _ h => earlier_step answers s a s' hi h)
    (fun s a s' hi hp h => paired_step answers s a s' hi hp h) (fun _ h => absurd h List.not_mem_nil)
    (fun _ h => absurd h List.not_mem_nil) as

/-- A connect to the server's only address. -/
def reachable (peek : Bool) : Attempt := { peek, resolved := some (⟨"127.0.0.1", 80⟩, []) }

/-- Two requests on one connection; the read of the first answer is
interrupted. The second call returns the first answer. -/
theorem stale_answer :
    ¬ Always (step fun _ => {}) Paired { client := { secure := false } }
      [{ call := .request .Get { target := "/first" }, attempt := reachable false, read := false },
        { call := .request .Get { target := "/second" }, attempt := reachable true }] := by decide

end Link

end ComponentsNetwork.HTTP.Client
