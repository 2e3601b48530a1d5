import ComponentsNetwork.HTTP.SessionEffects
/-!
# What `m_processors` are called with

`heard_run`: in every run of a session, the calls of `m_processors` are those
that its reads lead to, one after the other, each with the body that
`m_request` has by then. No method of a request is excluded.
-/

namespace ComponentsNetwork.HTTP.ConnectionSession

open Buffers Asio Runs

variable {H : Type} (reason : Nat → String)

/-- What a session reads: a request, with what the variable `targetMethodType`
of the handler was created with. -/
def reading : Action H → Option (Request × Int)
  | .readCompletes incoming garbage _ => some (incoming, garbage)
  | _ => none

/-- The call of `m_processors` that a read leads to, with the body that
`m_request` then has. A method without an entry leads to none. -/
def callFor (body : Bytes) (r : Request × Int) : List (MethodType × Packet) :=
  if targetMethodType r.1.method r.2 ∈ [MethodType.Get, .Put, .Post, .Delete] then
    [(targetMethodType r.1.method r.2, { requestPacket r.1 with body })]
  else []

/-- The calls that the reads lead to, one after the other, when `m_request`
has the body `acc` already. -/
def handedTo (acc : Bytes) : List (Request × Int) → List (MethodType × Packet)
  | [] => []
  | r :: rs => callFor (acc ++ r.1.body) r ++ handedTo (acc ++ r.1.body) rs

theorem handedTo_append (acc : Bytes) (rs rs' : List (Request × Int)) :
    handedTo acc (rs ++ rs') = handedTo acc rs ++ handedTo (acc ++ (rs.map fun r => r.1.body).flatten) rs' := by
  induction rs generalizing acc with
  | nil => simp [handedTo]
  | cons x rs ih => simp [handedTo, ih, List.append_assoc]

theorem handedTo_concat (acc : Bytes) (rs : List (Request × Int)) (r : Request × Int) :
    handedTo acc (rs ++ [r]) =
      handedTo acc rs ++ callFor (acc ++ (rs.map fun r => r.1.body).flatten ++ r.1.body) r := by
  simp [handedTo_append, handedTo]

/-- How a session stands to what it has read. -/
structure Heard (v : View) (rs : List (Request × Int)) : Prop where
  processors : v.processors = [.Get, .Put, .Post, .Delete]
  received : v.received = rs.map Prod.fst
  body : v.request.body = (rs.map fun r => r.1.body).flatten
  handed : v.handed = handedTo [] rs

theorem heard_receive {s : ConnectionSession H} {rs : List (Request × Int)} (h : Heard s.view rs) (incoming : Request)
    (garbage : Int) :
    Heard (s.view.receive incoming (handedFor s incoming garbage)) (rs ++ [(incoming, garbage)]) := by
  have hbody : s.request.body = _ := h.body
  have hcall : handedFor s incoming garbage =
      callFor ((rs.map fun r => r.1.body).flatten ++ incoming.body) (incoming, garbage) := by
    have hprocessors : s.processors = _ := h.processors
    unfold handedFor callFor
    rw [hprocessors, ← hbody]
    rfl
  refine ⟨h.processors, ?_, ?_, ?_⟩
  · simp [View.receive, h.received]
  · simp [View.receive, Request.readInto, h.body]
  · rw [handedTo_concat, List.nil_append, ← hcall, ← h.handed]
    rfl

theorem heard_step {s s' : ConnectionSession H} {rs : List (Request × Int)} {a : Action H}
    (hr : Heard s.view rs) (h : step reason s a = some s') :
    Heard s'.view (rs ++ (reading a).toList) := by
  have he := step_effect reason h
  generalize s'.view = v at he ⊢
  cases he with
  | quiet hq =>
    have hnone : reading a = none := by cases a <;> first | rfl | cases hq
    simpa [hnone] using hr
  | @called incoming garbage =>
    obtain ⟨hp, hrec, hb, hh⟩ := heard_receive hr incoming garbage
    exact ⟨hp, hrec, hb, hh⟩
  | @refused incoming garbage =>
    obtain ⟨hp, hrec, hb, hh⟩ := heard_receive hr incoming garbage
    exact ⟨hp, hrec, hb, hh⟩
  | replied | expired | written =>
    obtain ⟨hp, hrec, hb, hh⟩ := hr
    simp only [reading, Option.toList_none, List.append_nil]
    exact ⟨hp, hrec, hb, hh⟩

theorem heard_run {s s' : ConnectionSession H} {rs : List (Request × Int)} {as : List (Action H)}
    (hr : Heard s.view rs) (h : run (step reason) s as = some s') :
    Heard s'.view (rs ++ as.filterMap reading) := by
  induction as generalizing s rs with
  | nil =>
    cases h
    simpa using hr
  | cons a as ih =>
    obtain ⟨t, ht, h⟩ := Option.bind_eq_some_iff.1 h
    have hnext := ih (heard_step reason hr ht) h
    rw [List.append_assoc] at hnext
    cases ha : reading a <;> simpa [ha, List.filterMap_cons] using hnext

theorem heard_start (processors : Processors H) (serverName : String) (secure : Bool) (now : Nat) (hs : Handshake) :
    Heard (start processors serverName secure now hs).view [] := by
  rw [start, (kept_proceed _ hs).view]
  exact ⟨rfl, rfl, rfl, rfl⟩

end ComponentsNetwork.HTTP.ConnectionSession
