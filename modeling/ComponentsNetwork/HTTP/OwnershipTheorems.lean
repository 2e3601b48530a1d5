import ComponentsNetwork.HTTP.Ownership
import ComponentsNetwork.HTTP.ServerEffects
/-!
# No session of the server ends

The functions in a session's `m_processors` own the session they are in, and
nothing takes them out. So a session is alive for good, with its connection
unless something else closed that.

- `ended_iff`: the sessions that nothing else owns are destroyed, in every
  state of a run, if and only if there never is such a session.
-/

namespace ComponentsNetwork.HTTP.Owned

open Buffers Asio Runs ConnectionSession

variable {H : Type} (reason : Nat → String)

/-! ## Destruction -/

/-- A function in `m_processors` owns the session it is in, and no other. -/
theorem owns_iff {s : Owned H} {j i : Nat} :
    s.owns j i = true ↔ j = i ∧ ∃ c, s.server.connections[j]? = some c ∧ c.processors ≠ [] := by
  unfold owns
  cases hc : s.server.connections[j]? with
  | none => simp
  | some c =>
    simp only [Option.any_some, List.any_eq_true, captured, List.mem_singleton, decide_eq_true_eq, Option.some.injEq,
      exists_eq_left']
    constructor
    · rintro ⟨methType, hm, rfl⟩
      exact ⟨rfl, List.ne_nil_of_mem hm⟩
    · rintro ⟨rfl, hne⟩
      obtain ⟨methType, hm⟩ := List.exists_mem_of_ne_nil _ hne
      exact ⟨methType, hm, rfl⟩

/-- A session is destroyed unless it is held or has functions in its
`m_processors`. -/
theorem mem_collect_alive {s : Owned H} {i : Nat} :
    i ∈ s.collect.alive ↔ i ∈ s.alive ∧ (s.held i = true ∨ s.owns i i = true) :=
  Ownership.mem_collect_iff_of_self fun _ _ h => (owns_iff.1 h).1

@[simp] theorem destroy_empty (server : Server H) : destroy server ∅ = server := by
  unfold destroy
  simp only [Finset.notMem_empty, if_false]
  rw [List.mapIdx_eq_zipIdx_map, List.zipIdx_map_fst]

theorem collect_eq {s : Owned H} (h : ∀ i ∈ s.alive, s.owns i i = true) : s.collect = s := by
  have halive : s.collect.alive = s.alive := by
    ext i
    rw [mem_collect_alive]
    exact ⟨fun hi => hi.1, fun hi => ⟨hi, .inr (h i hi)⟩⟩
  have hcollect : s.collect = { s with
      alive := s.collect.alive, server := destroy s.server (s.alive \ s.collect.alive) } := rfl
  rw [hcollect, halive, Finset.sdiff_self, destroy_empty]

/-! ## What keeps a session -/

/-- Every session made is alive, and has the functions in its `m_processors`
that it was made with. Nothing owns one that has not been made. -/
structure Kept (s : Owned H) : Prop where
  processors : ∀ c ∈ s.server.connections, c.processors = [.Get, .Put, .Post, .Delete]
  alive : s.alive = Finset.range s.server.connections.length
  fresh : ∀ i, s.server.connections.length ≤ i → s.cancelled i = 0 ∧ s.replies i = 0

theorem step_processors {c c' : ConnectionSession H} {a : ConnectionSession.Action H}
    (h : ConnectionSession.step reason c a = some c') : c'.processors = c.processors := by
  have he := step_effect reason h
  have hv : c'.processors = c'.view.processors := rfl
  rw [hv]
  generalize c'.view = v at he ⊢
  cases he <;> rfl

/-- The sessions there are, after a step: none is taken away, and what is in
the `m_processors` of each is what was put in. -/
theorem move_processors {s s' : Server H} {a : Server.Action H} (h : Server.Move reason s a s')
    (hp : ∀ c ∈ s.connections, c.processors = [.Get, .Put, .Post, .Delete]) :
    (∀ c ∈ s'.connections, c.processors = [.Get, .Put, .Post, .Delete]) ∧
      s.connections.length ≤ s'.connections.length := by
  have hsession : ∀ {i c}, s.session i = some c → c.processors = [.Get, .Put, .Post, .Delete] := by
    intro i c hc
    obtain ⟨c₀, hc₀, rfl⟩ := Server.session_eq_some hc
    exact hp c₀ (List.mem_of_getElem? hc₀)
  have hset : ∀ i c, c.processors = [.Get, .Put, .Post, .Delete] →
      ∀ c' ∈ s.connections.set i c, c'.processors = [.Get, .Put, .Post, .Delete] := by
    intro i c hc c' hc'
    rcases List.mem_or_eq_of_mem_set hc' with hmem | rfl
    · exact hp c' hmem
    · exact hc
  have happend : ∀ hs, ∀ c ∈ s.connections ++ [s.accepted hs], c.processors = [.Get, .Put, .Post, .Delete] := by
    intro hs c hc
    rcases List.mem_append.1 hc with hmem | hlast
    · exact hp c hmem
    · rw [List.mem_singleton.1 hlast]
      exact congrArg View.processors (kept_handleRequests _ hs).view
  cases h with
  | registered | ticked | acceptFailed => exact ⟨hp, le_rfl⟩
  | @accepted hs => exact ⟨happend hs, by simp [Server.handleConnections]⟩
  | @acceptThrew hs => exact ⟨happend hs, by simp⟩
  | @connection i a c c' hc hstep =>
    refine ⟨hset i c' ?_, by simp [Server.update]⟩
    rw [step_processors reason hstep, hsession hc]
  | @replied i k pkt opened c t e hc _ hsends =>
    obtain ⟨resp, -, hv, -⟩ := hsends
    have ht : t.processors = [.Get, .Put, .Post, .Delete] := (congrArg View.processors hv).trans (hsession hc)
    have hkept := hset i t ht
    cases e with
    | returns => exact ⟨hkept, by simp [Server.leaveProcessor, Server.update]⟩
    | throws =>
      -- The read loops that end leave their sessions' `m_processors` alone.
      refine ⟨?_, by simp [Server.leaveProcessor, Server.update]⟩
      intro c' hc'
      obtain ⟨c₁, hmem, rfl⟩ := List.mem_map.1 hc'
      split
      · exact hkept c₁ hmem
      · exact hkept c₁ hmem

theorem collect_kept {s : Owned H} (hk : Kept s) : s.collect = s := by
  apply collect_eq
  intro i hi
  rw [hk.alive, Finset.mem_range] at hi
  have hc : s.server.connections[i]? = some s.server.connections[i] := List.getElem?_eq_getElem hi
  refine owns_iff.2 ⟨rfl, s.server.connections[i], hc, ?_⟩
  rw [hk.processors _ (List.getElem_mem hi)]
  exact List.cons_ne_nil _ _

theorem addCancelled_of_le {s : Owned H} (server : Server H) (a : Server.Action H) {i : Nat}
    (hi : s.server.connections.length ≤ i) : s.addCancelled server a i = s.cancelled i := by
  cases a with
  | connection j b =>
    cases hc : s.server.session j with
    | none => simp only [addCancelled, hc]
    | some c =>
      obtain ⟨c₀, hc₀, -⟩ := Option.map_eq_some_iff.1 hc
      have hj : j < s.server.connections.length := (List.getElem?_eq_some_iff.1 hc₀).1
      cases hc' : server.connections[j]? with
      | none => simp only [addCancelled, hc, hc']
      | some c' =>
        simp only [addCancelled, hc, hc']
        exact Function.update_of_ne (by omega) _ _
  | _ => rfl

theorem kept_moved {s : Owned H} {a : Server.Action H} {server : Server H} (hk : Kept s)
    (h : Server.Move reason s.server a server) : Kept (s.moved a server) := by
  obtain ⟨hp, hlen⟩ := move_processors reason h hk.processors
  refine ⟨hp, ?_, ?_⟩
  · ext i
    simp only [moved, hk.alive, Finset.mem_union, Finset.mem_range, Finset.mem_Ico]
    omega
  · intro i hi
    have hle := hlen.trans hi
    obtain ⟨hc, hr⟩ := hk.fresh i hle
    exact ⟨(addCancelled_of_le server a hle).trans hc, hr⟩

theorem kept_update {s : Owned H} (hk : Kept s) {cancelled replies : Nat → Nat}
    (hf : ∀ i, s.server.connections.length ≤ i → cancelled i = 0 ∧ replies i = 0) :
    Kept { s with cancelled, replies } := ⟨hk.processors, hk.alive, hf⟩

/-- What an action does. Nothing is destroyed in any. -/
inductive Change (s : Owned H) : Action H → Owned H → Prop
  | server {a server} : Server.Move reason s.server a server → Change s (.server a) (s.moved a server)
  | keep {i} : i < s.server.connections.length →
      Change s (.keep i) { s with replies := Function.update s.replies i (s.replies i + 1) }
  | drop {i} : i < s.server.connections.length → s.replies i ≠ 0 →
      Change s (.drop i) { s with replies := Function.update s.replies i (s.replies i - 1) }
  | cancelled {i} : i < s.server.connections.length → s.cancelled i ≠ 0 →
      Change s (.cancelled i) { s with cancelled := Function.update s.cancelled i (s.cancelled i - 1) }

theorem update_fresh {f : Nat → Nat} {n i v : Nat} (hi : i < n) (hf : ∀ j, n ≤ j → f j = 0) :
    ∀ j, n ≤ j → Function.update f i v j = 0 := by
  intro j hj
  rw [Function.update_of_ne (by omega)]
  exact hf j hj

theorem kept_change {s s' : Owned H} {a : Action H} (hk : Kept s) (h : Change reason s a s') : Kept s' := by
  have hc : ∀ j, s.server.connections.length ≤ j → s.cancelled j = 0 := fun j hj => (hk.fresh j hj).1
  have hr : ∀ j, s.server.connections.length ≤ j → s.replies j = 0 := fun j hj => (hk.fresh j hj).2
  cases h with
  | server h => exact kept_moved reason hk h
  | keep hi => exact kept_update hk fun j hj => ⟨hc j hj, update_fresh hi hr j hj⟩
  | drop hi => exact kept_update hk fun j hj => ⟨hc j hj, update_fresh hi hr j hj⟩
  | cancelled hi => exact kept_update hk fun j hj => ⟨update_fresh hi hc j hj, hr j hj⟩

theorem lt_of_hasReply {s : Owned H} (hk : Kept s) {i : Nat} (h : s.hasReply i = true) :
    i < s.server.connections.length := by
  by_contra hi
  have hle : s.server.connections.length ≤ i := Nat.not_lt.1 hi
  have hc : s.server.connections[i]? = none := List.getElem?_eq_none hle
  simp [hasReply, hc, (hk.fresh i hle).2] at h

theorem step_change {s s' : Owned H} {a : Action H} (hk : Kept s) (h : step reason s a = some s') :
    Change reason s a s' := by
  -- Each change keeps the sessions owned, so the destructors find nothing.
  have hsame : ∀ t, Change reason s a t → t.collect = s' → Change reason s a s' := by
    rintro t ht rfl
    rwa [collect_kept (kept_change reason hk ht)]
  cases a with
  | server a =>
    simp only [step, Option.ite_none_right_eq_some, Option.map_eq_some_iff] at h
    obtain ⟨-, server, hstep, hs⟩ := h
    exact hsame _ (.server (Server.step_move reason hstep)) hs
  | keep i =>
    simp only [step, Option.ite_none_right_eq_some, Option.some.injEq] at h
    obtain ⟨hreply, rfl⟩ := h
    exact .keep (lt_of_hasReply hk hreply)
  | drop i =>
    simp only [step, Option.ite_none_right_eq_some, Option.some.injEq] at h
    obtain ⟨hne, hs⟩ := h
    refine hsame _ (.drop ?_ hne) hs
    by_contra hi
    exact hne (hk.fresh i (Nat.not_lt.1 hi)).2
  | cancelled i =>
    simp only [step, Option.ite_none_right_eq_some, Option.some.injEq, Bool.and_eq_true, decide_eq_true_eq] at h
    obtain ⟨⟨-, hne⟩, hs⟩ := h
    refine hsame _ (.cancelled ?_ hne) hs
    by_contra hi
    exact hne (hk.fresh i (Nat.not_lt.1 hi)).1

theorem kept_step {s s' : Owned H} {a : Action H} (hk : Kept s) (h : step reason s a = some s') : Kept s' :=
  kept_change reason hk (step_change reason hk h)

theorem kept_start (processors : Processors H) (serverName : String) (secure : Bool) (now : Nat) :
    Kept (start processors serverName secure now) :=
  ⟨fun _ hc => absurd hc List.not_mem_nil, rfl, fun _ _ => ⟨rfl, rfl⟩⟩

/-! ## The handlers of a session -/

/-- The writes a step starts. -/
def writes (c : ConnectionSession H) : ConnectionSession.Action H → Nat
  | .readCompletes incoming garbage _ => if (dispatchError c incoming garbage).isSome then 1 else 0
  | .reply _ pkt opened => if starts pkt opened then 1 else 0
  | .deadlineExpires _ => 1
  | _ => 0

/-- The writes a step ends. -/
def written : ConnectionSession.Action H → Nat
  | .writeCompletes => 1
  | _ => 0

/-- The read loops a step ends: one or none. -/
def ends (c : ConnectionSession H) : ConnectionSession.Action H → Nat
  | .readCompletes incoming garbage hs => if (dispatchError c incoming garbage).isSome && !c.control.readsOn hs then 1 else 0
  | .processorReturns hs => if c.control.readsOn hs then 0 else 1
  | .readFails .. | .processorThrows => 1
  | _ => 0

/-- The handlers a step makes. -/
def taken (c : ConnectionSession H) (a : ConnectionSession.Action H) : Nat := writes c a + armed c a

/-- The handlers that are gone after a step. -/
def released (c : ConnectionSession H) (a : ConnectionSession.Action H) : Nat := ends c a + ran a + written a

theorem inFlight_step {c c' : ConnectionSession H} {a : ConnectionSession.Action H}
    (h : ConnectionSession.step reason c a = some c') : c'.inFlight + written a = c.inFlight + writes c a := by
  have he := step_effect reason h
  have hv : c'.inFlight = c'.view.inFlight := rfl
  rw [hv]
  generalize c'.view = v at he ⊢
  cases he with
  | quiet hq => cases a <;> first | rfl | cases hq
  | called he => simp [writes, written, he, view, View.receive]
  | refused he => simp [writes, written, he, view, View.receive, View.send]
  | @replied k pkt opened resp hk hr =>
    cases resp <;> simp [writes, written, ← hr, view, View.send]
  | expired => rfl
  | written hw =>
    simp only [written, writes]
    omega

/-- The read or the handler of a session's read loop. -/
def loop (phase : Phase) : Nat := if phase = .ended then 0 else 1

theorem holds_eq (c : ConnectionSession H) : holds c = loop c.phase + c.inFlight + waits c.deadlineTimer := rfl

theorem proceed_loop (k : Control) (hs : Handshake) :
    loop (k.proceed hs).phase + (if k.readsOn hs then 0 else 1) = 1 := by
  by_cases h : k.readsOn hs = true
  · rw [Control.proceed_reads h, if_pos h]
    rfl
  · rw [Control.proceed_ends h, if_neg h]
    rfl

theorem proceed_waits (k : Control) (hs : Handshake) :
    waits (k.proceed hs).deadlineTimer ≤ waits k.deadlineTimer + if k.readsOn hs then 1 else 0 := by
  by_cases h : k.readsOn hs = true
  · rw [Control.proceed_reads h, if_pos h]
    simp only [waits, SteadyTimer.asyncWait, SteadyTimer.cancel]
    omega
  · rw [Control.proceed_ends h, if_neg h]
    exact le_rfl

theorem loop_step {c c' : ConnectionSession H} {a : ConnectionSession.Action H}
    (h : ConnectionSession.step reason c a = some c') : loop c'.phase + ends c a = loop c.phase := by
  have ht := step_turn reason h
  have hp : c'.phase = c'.control.phase := rfl
  rw [hp]
  generalize c'.control = k at ht ⊢
  cases ht with
  | still hs => cases a <;> first | rfl | cases hs
  | called _ hp he => simp [ends, he, hp, loop]
  | @refused incoming garbage hs _ hp he =>
    have hloop := proceed_loop c.control hs
    have hends : ends c (.readCompletes incoming garbage hs) = if c.control.readsOn hs then 0 else 1 := by
      simp only [ends, Option.isSome_iff_ne_none.2 he, Bool.true_and]
      cases c.control.readsOn hs <;> rfl
    rw [hends, hloop, hp]
    rfl
  | failed _ hp => simp [ends, hp, loop]
  | @returned hs _ hp =>
    have hloop := proceed_loop c.control hs
    rw [hp]
    exact hloop
  | threw _ hp => simp [ends, hp, loop]
  | ticked | elapsed | expired => rfl

theorem waits_le {c c' : ConnectionSession H} {a : ConnectionSession.Action H}
    (h : ConnectionSession.step reason c a = some c') :
    waits c'.deadlineTimer + ran a ≤ waits c.deadlineTimer + armed c a := by
  have ht := step_turn reason h
  have hd : c'.deadlineTimer = c'.control.deadlineTimer := rfl
  rw [hd]
  generalize c'.control = k at ht ⊢
  cases ht with
  | still hs => cases a <;> first | exact Nat.le_add_right _ _ | cases hs
  | called => exact Nat.le_add_right _ _
  | @refused incoming garbage hs _ _ he =>
    have harms : arms c (.readCompletes incoming garbage hs) = c.control.readsOn hs := by
      simp only [arms, Option.isSome_iff_ne_none.2 he, Bool.true_and]
    unfold armed
    rw [harms]
    exact proceed_waits c.control hs
  | failed _ _ ht =>
    -- Closing the connection cancels the waits.
    rcases ht with rfl | rfl
    · exact Nat.le_add_right _ _
    · simp only [waits, SteadyTimer.cancel, ran]
      omega
  | @returned hs => exact proceed_waits c.control hs
  | threw | ticked => exact Nat.le_add_right _ _
  | elapsed ht =>
    simp only [SteadyTimer.elapse, Option.ite_none_right_eq_some, Option.some.injEq] at ht
    obtain ⟨-, rfl⟩ := ht
    simp only [waits, ran]
    omega
  | expired _ _ ht =>
    simp only [SteadyTimer.runHandler, Option.ite_none_right_eq_some, Option.some.injEq] at ht
    obtain ⟨hdue, rfl⟩ := ht
    simp only [waits, ran, SteadyTimer.cancel]
    omega

/-- The handlers of a session after a step: those there were and those the
step makes, without those that are gone and those of waits it cancels. -/
theorem holds_step {c c' : ConnectionSession H} {a : ConnectionSession.Action H}
    (h : ConnectionSession.step reason c a = some c') :
    holds c' + cancels c c' a + released c a = holds c + taken c a := by
  have hloop := loop_step reason h
  have hwrites := inFlight_step reason h
  have hwaits := waits_le reason h
  rw [holds_eq, holds_eq]
  unfold cancels released taken
  omega

/-! ## The last holder -/

/-- Every session that has been made and that nothing holds is destroyed. -/
def Ended (s : Owned H) : Prop := ∀ i < s.server.connections.length, s.held i = false → i ∉ s.alive

/-- Something holds every session that has been made. -/
def AllHeld (s : Owned H) : Prop := ∀ i < s.server.connections.length, s.holders i ≠ 0

/-- The action leaves each session it takes a holder from another one, and
does not make a session that has none. -/
def LeavesHolder (s : Owned H) : Action H → Prop
  | .server (.acceptCompletes _) => s.server.secure = false
  | .server (.connection i a) => ∀ c, s.server.session i = some c → s.holders i + taken c a ≠ released c a
  | .server (.replyUncaught _ _ pkt opened) =>
    starts pkt opened = true ∨
      ∀ j c, s.server.connections[j]? = some c → c.phase = .dispatching → s.holders j ≠ 1
  | .drop i | .cancelled i => s.holders i ≠ 1
  | _ => True

theorem ended_iff_allHeld {s : Owned H} (hk : Kept s) : Ended s ↔ AllHeld s := by
  apply forall₂_congr
  intro i hi
  have halive : i ∈ s.alive := by rwa [hk.alive, Finset.mem_range]
  simp [held, halive]

theorem holders_eq {s : Owned H} {i : Nat} {c : ConnectionSession H} (hc : s.server.connections[i]? = some c) :
    s.holders i = holds c + s.cancelled i + s.replies i := by
  unfold holders
  rw [hc]

theorem allHeld_iff {s : Owned H} :
    AllHeld s ↔ ∀ i c, s.server.connections[i]? = some c → holds c + s.cancelled i + s.replies i ≠ 0 := by
  constructor
  · intro h i c hc
    rw [← holders_eq hc]
    exact h i (List.getElem?_eq_some_iff.1 hc).1
  · intro h i hi
    have hc : s.server.connections[i]? = some s.server.connections[i] := List.getElem?_eq_getElem hi
    rw [holders_eq hc]
    exact h i _ hc

theorem holds_accepted (s : Server H) (hs : Handshake) :
    holds (s.accepted hs) = if s.secure then 0 else 2 := by
  rcases s with ⟨_, _, _ | _⟩ <;> rfl

theorem allHeld_accept {s : Owned H} (hk : Kept s) (hall : AllHeld s) {hs : Handshake} {server : Server H}
    (h : server.connections = s.server.connections ++ [s.server.accepted hs]) :
    AllHeld (s.moved (.acceptCompletes hs) server) ↔ s.server.secure = false := by
  have hholds := holds_accepted s.server hs
  obtain ⟨hcancelled, hreplies⟩ := hk.fresh s.server.connections.length le_rfl
  rw [allHeld_iff]
  dsimp only [moved, addCancelled]
  rw [h]
  constructor
  · intro h
    have hnew := h s.server.connections.length (s.server.accepted hs) (by simp)
    rw [hholds, hcancelled, hreplies] at hnew
    by_contra hno
    simp [hno] at hnew
  · intro hplain i c hc
    rcases getElem?_concat hc with hold | ⟨-, rfl⟩
    · exact allHeld_iff.1 hall i c hold
    · rw [hholds, hplain]
      simp

theorem allHeld_connection {s : Owned H} (hall : AllHeld s) {i : Nat} {a : ConnectionSession.Action H}
    {c c' : ConnectionSession H} (hc : s.server.session i = some c) (h : ConnectionSession.step reason c a = some c') :
    AllHeld (s.moved (.connection i a) (s.server.update i c')) ↔
      ∀ c, s.server.session i = some c → s.holders i + taken c a ≠ released c a := by
  have hledger := holds_step reason h
  obtain ⟨c₀, hc₀, hcc₀⟩ := Server.session_eq_some hc
  have hholds : holds c = holds c₀ := by
    rw [hcc₀]
    rfl
  have hholders := holders_eq hc₀
  have hnew : (s.server.update i c').connections[i]? = some c' :=
    List.getElem?_set_self (List.getElem?_eq_some_iff.1 hc₀).1
  have hcancelled : s.addCancelled (s.server.update i c') (.connection i a) =
      Function.update s.cancelled i (s.cancelled i + cancels c c' a) := by
    simp only [addCancelled, hc, hnew]
  simp only [hc, Option.some.injEq, forall_eq']
  rw [allHeld_iff]
  dsimp only [moved]
  rw [hcancelled]
  constructor
  · intro h
    have hi := h i c' hnew
    rw [Function.update_self] at hi
    omega
  · intro hleft j d hd
    -- The other sessions are as they were.
    by_cases hij : j = i
    · subst hij
      cases hnew.symm.trans hd
      rw [Function.update_self]
      omega
    · have hd' : s.server.connections[j]? = some d := by
        rw [← hd]
        exact (List.getElem?_set_ne (Ne.symm hij)).symm
      rw [Function.update_of_ne hij]
      exact allHeld_iff.1 hall j d hd'

/-- A session that a reply has been called for: a write more, if one started. -/
theorem holds_replied {c t : ConnectionSession H} {k : Nat} {writes : Bool} {e : Exit} (hctl : t.control = c.control)
    (h : Sends { c with pending := c.pending.erase k } (.reply k) writes (t, e)) :
    holds t = holds c + if writes then 1 else 0 := by
  obtain ⟨resp, hr, hv, -⟩ := h
  have hphase : t.phase = c.phase := congrArg Control.phase hctl
  have htimer : t.deadlineTimer = c.deadlineTimer := congrArg Control.deadlineTimer hctl
  have hflight : t.inFlight = c.inFlight + resp.toList.length := congrArg View.inFlight hv
  rw [holds_eq, holds_eq, hphase, htimer, hflight, ← hr]
  cases resp with
  | none => rfl
  | some r =>
    simp only [Option.toList_some, List.length_singleton, Option.isSome_some, if_true]
    omega

/-- The read loop of a session ends if its processor was running. -/
theorem holds_left (c : ConnectionSession H) :
    holds (if c.phase = .dispatching then { c with phase := .ended } else c) +
      (if c.phase = .dispatching then 1 else 0) = holds c := by
  by_cases h : c.phase = .dispatching
  · have hended : loop Phase.ended = 0 := rfl
    have hdispatching : loop Phase.dispatching = 1 := rfl
    simp only [h, if_true, holds_eq, hended, hdispatching]
    omega
  · simp [h]

theorem getElem?_replied {s : Server H} {i j : Nat} {c t d' : ConnectionSession H} (hc : s.session i = some c)
    (hholds : holds t = holds c) (hphase : t.phase = c.phase) (hd' : (s.connections.set i t)[j]? = some d') :
    ∃ d, s.connections[j]? = some d ∧ holds d' = holds d ∧ d'.phase = d.phase := by
  obtain ⟨c₀, hc₀, hcc₀⟩ := Server.session_eq_some hc
  by_cases hij : i = j
  · subst hij
    rw [List.getElem?_set_self (List.getElem?_eq_some_iff.1 hc₀).1] at hd'
    cases hd'
    rw [hholds, hphase, hcc₀]
    exact ⟨c₀, hc₀, rfl, rfl⟩
  · rw [List.getElem?_set_ne hij] at hd'
    exact ⟨d', hd', rfl, rfl⟩

/-- A write that a reply starts holds its session. -/
theorem allHeld_replied {s : Owned H} (hall : AllHeld s) {i : Nat} {a : Server.Action H} {c t : ConnectionSession H}
    (hc : s.server.session i = some c) (hholds : holds t = holds c + 1)
    (ha : s.addCancelled (s.server.update i t) a = s.cancelled) :
    AllHeld (s.moved a (s.server.update i t)) := by
  obtain ⟨c₀, hc₀, -⟩ := Server.session_eq_some hc
  rw [allHeld_iff]
  dsimp only [moved]
  rw [ha]
  intro j d hd
  dsimp only [Server.update] at hd
  by_cases hij : i = j
  · subst hij
    rw [List.getElem?_set_self (List.getElem?_eq_some_iff.1 hc₀).1] at hd
    cases hd
    rw [hholds]
    omega
  · rw [List.getElem?_set_ne hij] at hd
    exact allHeld_iff.1 hall j d hd

/-- An exception that leaves a processor takes a holder from each session whose
processor is running. -/
theorem allHeld_threw {s : Owned H} (hall : AllHeld s) {i : Nat} {a : Server.Action H} {c t : ConnectionSession H}
    (hc : s.server.session i = some c) (hholds : holds t = holds c) (hphase : t.phase = c.phase)
    (ha : s.addCancelled ((s.server.update i t).leaveProcessor .throws) a = s.cancelled) :
    AllHeld (s.moved a ((s.server.update i t).leaveProcessor .throws)) ↔
      ∀ j d, s.server.connections[j]? = some d → d.phase = .dispatching → s.holders j ≠ 1 := by
  have hold := allHeld_iff.1 hall
  rw [allHeld_iff]
  dsimp only [moved]
  rw [ha]
  dsimp only [Server.leaveProcessor, Server.update]
  constructor
  · intro h j d hd hdisp
    have hj : j < (s.server.connections.set i t).length := by
      rw [List.length_set]
      exact (List.getElem?_eq_some_iff.1 hd).1
    have hd' := List.getElem?_eq_getElem hj
    obtain ⟨d₁, hd₁, hh, hph⟩ := getElem?_replied hc hholds hphase hd'
    cases hd.symm.trans hd₁
    have hnew := h j _ (by rw [List.getElem?_map, hd', Option.map_some])
    have hleft := holds_left (s.server.connections.set i t)[j]
    rw [if_pos (hph.trans hdisp)] at hnew
    rw [if_pos (hph.trans hdisp), if_pos (hph.trans hdisp)] at hleft
    rw [holders_eq hd]
    omega
  · intro hleave j d hd
    rw [List.getElem?_map] at hd
    obtain ⟨d', hd', rfl⟩ := Option.map_eq_some_iff.1 hd
    obtain ⟨d₁, hd₁, hh, hph⟩ := getElem?_replied hc hholds hphase hd'
    have hj := hold j d₁ hd₁
    have hleft := holds_left d'
    by_cases hdisp : d'.phase = .dispatching
    · have hone := hleave j d₁ hd₁ (hph.symm.trans hdisp)
      rw [holders_eq hd₁] at hone
      rw [if_pos hdisp] at hleft ⊢
      rw [if_pos hdisp] at hleft
      omega
    · rw [if_neg hdisp]
      omega

theorem allHeld_update {s : Owned H} (hall : AllHeld s) {cancelled replies : Nat → Nat} {i : Nat}
    {c : ConnectionSession H} (hi : s.server.connections[i]? = some c)
    (hother : ∀ j, j ≠ i → cancelled j = s.cancelled j ∧ replies j = s.replies j) :
    AllHeld { s with cancelled, replies } ↔ holds c + cancelled i + replies i ≠ 0 := by
  rw [allHeld_iff]
  dsimp only
  constructor
  · intro h
    exact h i c hi
  · intro hc j d hd
    by_cases hij : j = i
    · subst hij
      cases hi.symm.trans hd
      exact hc
    · obtain ⟨h₁, h₂⟩ := hother j hij
      rw [h₁, h₂]
      exact allHeld_iff.1 hall j d hd

/-! ## Every run -/

theorem allHeld_step {s s' : Owned H} {a : Action H} (hk : Kept s) (hall : AllHeld s) (h : Change reason s a s') :
    AllHeld s' ↔ LeavesHolder s a := by
  cases h with
  | server h =>
    cases h with
    | registered | ticked | acceptFailed => exact iff_of_true hall trivial
    | accepted => exact allHeld_accept hk hall rfl
    | acceptThrew => exact allHeld_accept hk hall rfl
    | connection hc hstep => exact allHeld_connection reason hall hc hstep
    | @replied i k pkt opened c t e hc hctl hsends =>
      have hholds := holds_replied hctl hsends
      obtain ⟨-, -, -, hx, hp⟩ := hsends
      cases e with
      | returns =>
        have hst := hx.1 rfl
        rw [if_pos hst] at hholds
        exact iff_of_true (allHeld_replied hall hc hholds rfl) (.inl hst)
      | throws =>
        have hst : ¬ starts pkt opened = true := fun hst => by cases hx.2 hst
        rw [if_neg hst] at hholds
        exact (allHeld_threw hall hc hholds hp rfl).trans (or_iff_right hst).symm
  | @keep i hi =>
    have hc : s.server.connections[i]? = some s.server.connections[i] := List.getElem?_eq_getElem hi
    rw [allHeld_update hall hc fun j hj => ⟨rfl, Function.update_of_ne hj _ _⟩, Function.update_self]
    exact iff_of_true (by omega) trivial
  | @drop i hi hne =>
    have hc : s.server.connections[i]? = some s.server.connections[i] := List.getElem?_eq_getElem hi
    rw [allHeld_update hall hc fun j hj => ⟨rfl, Function.update_of_ne hj _ _⟩, Function.update_self]
    change _ ↔ s.holders i ≠ 1
    rw [holders_eq hc]
    omega
  | @cancelled i hi hne =>
    have hc : s.server.connections[i]? = some s.server.connections[i] := List.getElem?_eq_getElem hi
    rw [allHeld_update hall hc fun j hj => ⟨Function.update_of_ne hj _ _, rfl⟩, Function.update_self]
    change _ ↔ s.holders i ≠ 1
    rw [holders_eq hc]
    omega

/-- In every state of a run every session that nothing holds is destroyed, if
and only if there is never one: no step takes the last holder from a session,
or makes a session without. -/
theorem ended_iff (processors : Processors H) (serverName : String) (secure : Bool) (now : Nat)
    (as : List (Action H)) :
    Always (step reason) Ended (start processors serverName secure now) as ↔
      Meets (step reason) LeavesHolder (start processors serverName secure now) as := by
  have h0 := kept_start processors serverName secure now
  apply always_iff (fun _ _ _ hk _ h => kept_step reason hk h) ?_ h0 (fun _ hi => absurd hi (Nat.not_lt_zero _))
  intro s a s' hk hended h
  rw [ended_iff_allHeld hk] at hended
  rw [ended_iff_allHeld (kept_step reason hk h)]
  exact allHeld_step reason hk hended (step_change reason hk h)

instance (s : Owned H) : Decidable (Ended s) :=
  inferInstanceAs (Decidable (∀ i < s.server.connections.length, s.held i = false → i ∉ s.alive))

/-- A client connects and leaves. When the cancelled wait's handler has run
nothing holds its session, which is alive. -/
theorem closed_session_stays :
    ¬ Always (step (H := Unit) fun _ => "") Ended (start (fun _ => none) "server" false 0)
      [.server (.acceptCompletes .succeeds), .server (.connection 0 (.readFails false true)), .cancelled 0] := by
  decide

end ComponentsNetwork.HTTP.Owned
