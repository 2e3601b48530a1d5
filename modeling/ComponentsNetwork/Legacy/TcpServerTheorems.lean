import ComponentsNetwork.Legacy.ExchangeTheorems
import ComponentsNetwork.Legacy.TcpServer
import ComponentsNetwork.Lib.Simulation
/-!
# The connections of the TCP servers

Connections share the processors and the limit (`TcpSlotTheorems.lean`),
nothing else:

- `connection_apart`: each connection is where it would be on its own, told
  its own steps and the processors that were set.
- `served_in_order`: whatever the others do, each client's requests are
  processed in order, by the processors set last through any server.
-/

namespace ComponentsNetwork.Legacy.Servers

open Buffers Runs Simulation Exchange

variable {c : Codec}

/-! ## What a step does -/

/-- The connection a step is of, and what it is there. -/
def onLink : Action → Option (Nat × Exchange.Action)
  | .sendMessage k sendPacket wrote => some (k, .sendMessage sendPacket wrote)
  | .clientReads k count => some (k, .clientReads count)
  | .clientDisconnects k => some (k, .clientDisconnects)
  | .workerReads k count wrote => some (k, .workerReads count wrote)
  | .workerCloses k => some (k, .workerCloses)
  | _ => none

/-- The processors of the manager after a step. -/
def held (ps : Processors) : Action → Processors
  | .setInfoProcessor _ infoProcessor => { ps with infoProcessor }
  | .setActionProcessor _ actionProcessor => { ps with actionProcessor }
  | .setErrorProcessor _ errorProcessor => { ps with errorProcessor }
  | _ => ps

/-- The processors set last, through whichever server. -/
def heldAfter (as : List Action) : Processors := as.foldl held {}

/-- No connection is offered, and none ends. -/
def Quiet (a : Action) : Prop := (∀ i draws, a ≠ .incomingConnection i draws) ∧ ∀ k, a ≠ .onDisconnect k

/-- A step of a connection; one that sets processors or constructs a server; a
connection taken or rejected; or another step of the manager. -/
inductive Effect (c : Codec) (s : Servers) : Action → Servers → Prop
  | exchanged {a k b link link'} (on : onLink a = some (k, b)) (link_ : s.links[k]? = some link)
      (step : Link.step c { link with processors := s.processors } b = some link') :
      Effect c s a { s with links := s.links.set k link' }
  | kept {a s'} (on : onLink a = none) (manager : s'.manager = s.manager) (links : s'.links = s.links)
      (rejected : s'.rejected = s.rejected) (quiet : Quiet a) : Effect c s a s'
  | created {i draws manager} (creates : s.manager.createConnection draws = some (true, manager)) :
      Effect c s (.incomingConnection i draws) { s with manager, links := s.links ++ [{}] }
  | refused {i draws manager} (rejects : s.manager.createConnection draws = some (false, manager)) :
      Effect c s (.incomingConnection i draws) { s with manager, rejected := s.rejected + 1 }
  | connected {k manager} (step : ThreadManager.step s.manager (.setConnection k) = some manager) :
      Effect c s (.setConnection k) { s with manager }
  | finished {k manager} (step : ThreadManager.step s.manager (.onFinished k) = some manager) :
      Effect c s (.onDisconnect k) { s with manager }
  | counted {newCount} :
      Effect c s (.setThreadCount newCount) { s with manager := (s.manager.setThreadCount newCount).2 }

theorem setProcessor_eq_some {s s' : Servers} {i : Nat} {set : Processors → Processors}
    (h : s.setProcessor i set = some s') :
    s'.processors = set s.processors ∧ s'.manager = s.manager ∧ s'.links = s.links ∧ s'.rejected = s.rejected := by
  obtain ⟨server, -, h⟩ := Option.bind_eq_some_iff.1 h
  cases h
  exact ⟨rfl, rfl, rfl, rfl⟩

theorem exchange_eq_some {s s' : Servers} {k : Nat} {b : Exchange.Action} (h : s.exchange c k b = some s') :
    ∃ link link', s.links[k]? = some link ∧ Link.step c { link with processors := s.processors } b = some link' ∧
      s' = { s with links := s.links.set k link' } := by
  obtain ⟨link, hlink, h⟩ := Option.bind_eq_some_iff.1 h
  obtain ⟨link', hstep, h⟩ := Option.bind_eq_some_iff.1 h
  cases h
  exact ⟨link, link', hlink, hstep, rfl⟩

theorem step_effect {s s' : Servers} {a : Action} (h : step c s a = some s') :
    s'.processors = held s.processors a ∧ Effect c s a s' := by
  have hexchange : ∀ {k b}, onLink a = some (k, b) → s.processors = held s.processors a → s.exchange c k b = some s' →
      s'.processors = held s.processors a ∧ Effect c s a s' := by
    intro k b hon hheld hs
    obtain ⟨link, link', hlink, hstep, rfl⟩ := exchange_eq_some hs
    exact ⟨hheld, .exchanged hon hlink hstep⟩
  cases a with
  | construct =>
    cases h
    exact ⟨rfl, .kept rfl rfl rfl rfl (by simp [Quiet])⟩
  | setInfoProcessor i f | setActionProcessor i f | setErrorProcessor i f =>
    simp only [step, setInfoProcessor, setActionProcessor, setErrorProcessor] at h
    obtain ⟨hprocessors, hmanager, hlinks, hrejected⟩ := setProcessor_eq_some h
    exact ⟨hprocessors, .kept rfl hmanager hlinks hrejected (by simp [Quiet])⟩
  | incomingConnection i draws =>
    obtain ⟨server, -, h⟩ := Option.bind_eq_some_iff.1 h
    obtain ⟨⟨created, manager⟩, hcreate, h⟩ := Option.bind_eq_some_iff.1 h
    cases created <;> cases h
    · exact ⟨rfl, .refused hcreate⟩
    · exact ⟨rfl, .created hcreate⟩
  | sendMessage | clientReads | clientDisconnects => exact hexchange rfl rfl h
  | workerReads | workerCloses =>
    obtain ⟨-, h⟩ := Option.ite_none_right_eq_some.1 h
    exact hexchange rfl rfl h
  | setConnection k =>
    obtain ⟨manager, hmanager, rfl⟩ := Option.map_eq_some_iff.1 h
    exact ⟨rfl, .connected hmanager⟩
  | onDisconnect k =>
    obtain ⟨manager, hmanager, rfl⟩ := Option.map_eq_some_iff.1 h
    exact ⟨rfl, .finished hmanager⟩
  | setThreadCount newCount =>
    cases h
    exact ⟨rfl, .counted⟩

/-! ## Connections apart -/

/-- What a step comes to for connection `k`, where `ps` are the processors of
the manager. -/
def onConnection (k : Nat) (ps : Processors) (a : Action) : List Exchange.Action :=
  match onLink a with
  | some (j, b) => if j = k then [.setProcessors ps, b] else []
  | none => []

/-- The same for the steps of a run. -/
def ownRun (k : Nat) : Processors → List Action → List Exchange.Action
  | _, [] => []
  | ps, a :: as => onConnection k ps a ++ ownRun k (held ps a) as

/-- Connection `k`; before it is taken, one on which nothing happened. -/
def link (s : Servers) (k : Nat) : Link := s.links[k]?.getD {}

theorem link_eq {s : Servers} {k : Nat} {l : Link} (h : s.links[k]? = some l) : s.link k = l := by
  rw [link, h]
  rfl

theorem link_set {s : Servers} {j k : Nat} {l l' : Link} (h : s.links[j]? = some l) :
    link { s with links := s.links.set j l' } k = if j = k then l' else s.link k := by
  obtain ⟨hj, -⟩ := List.getElem?_eq_some_iff.1 h
  unfold link
  rw [List.getElem?_set]
  split
  · simp
  · rfl

theorem link_concat {s s' : Servers} (h : s'.links = s.links ++ [({} : Link)]) (k : Nat) : s'.link k = s.link k := by
  unfold link
  rw [h]
  exact getElem?_concat_of (f := fun o => o.getD ({} : Link)) rfl s.links k

theorem follows (k : Nat) : Follows (step c) (Link.step c) (fun s => onConnection k s.processors)
    fun s t => s.link k = t := by
  intro s t a s' ht h
  show ∃ t', run (Link.step c) t (onConnection k s.processors a) = some t' ∧ s'.link k = t'
  subst ht
  obtain ⟨-, he⟩ := step_effect h
  have hnone : onLink a = none → s'.link k = s.link k →
      ∃ t', run (Link.step c) (s.link k) (onConnection k s.processors a) = some t' ∧ s'.link k = t' := by
    intro hon hsame
    refine ⟨s.link k, ?_, hsame⟩
    rw [onConnection, hon]
    rfl
  cases he with
  | @exchanged _ j b l l' hon hlink hstep =>
    simp only [link_set hlink, onConnection, hon]
    split
    · next hj =>
      subst hj
      refine ⟨l', ?_, rfl⟩
      rw [link_eq hlink, run_cons]
      show run (Link.step c) { l with processors := s.processors } [b] = some l'
      rw [run_cons, hstep]
      rfl
    · exact ⟨_, rfl, rfl⟩
  | kept hon _ hlinks _ _ => exact hnone hon (by rw [link, hlinks]; rfl)
  | created => exact hnone rfl (link_concat rfl k)
  | refused | connected | finished | counted => exact hnone rfl rfl

theorem followed_eq (k : Nat) {s s' : Servers} {as : List Action} (h : run (step c) s as = some s') :
    followed (step c) (fun s => onConnection k s.processors) s as = ownRun k s.processors as := by
  induction as generalizing s with
  | nil => rfl
  | cons a as ih =>
    obtain ⟨t, ht, h⟩ := Option.bind_eq_some_iff.1 h
    rw [followed_cons ht, ih h, (step_effect ht).1]
    rfl

/-- In every run of the servers, each connection is where its client and its
worker would be on their own, had they taken the same steps with the processors
that were set before each. -/
theorem connection_apart (idealThreadCount : Int32) (as : List Action) (s : Servers)
    (hs : run (step c) (start idealThreadCount) as = some s) (k : Nat) (l : Link) (hl : s.links[k]? = some l) :
    run (Link.step c) {} (ownRun k {} as) = some l := by
  obtain ⟨t, ht, he⟩ := (follows k).run (t := {}) rfl hs
  rw [followed_eq k hs] at ht
  cases (link_eq hl).symm.trans he
  exact ht

/-- Two connections of the first server; the second is set up first, and the
processor for both is set through the second server. -/
def shared : List Action :=
  [.construct, .incomingConnection 0 [7], .incomingConnection 0 [7, 9],
    .setInfoProcessor 1 (some fun p _ => p), .sendMessage 0 (Link.ask [97]) true, .sendMessage 1 (Link.ask [97]) true,
    .setConnection 1, .workerReads 1 82 true, .clientReads 1 82, .setConnection 0, .workerReads 0 82 true]

theorem connection_apart_shared :
    ∃ s l, run (step archiveCodec) (start 2) shared = some s ∧ s.links[1]? = some l ∧ l.got.length = 1 ∧
      run (Link.step archiveCodec) {} (ownRun 1 {} shared) = some l := by
  have hgot : (run (step archiveCodec) (start 2) shared).map (fun s => s.links[1]?.map (·.got.length)) =
      some (some 1) := by decide +kernel
  obtain ⟨s, hs, hlink⟩ := Option.map_eq_some_iff.1 hgot
  obtain ⟨l, hl, hlength⟩ := Option.map_eq_some_iff.1 hlink
  exact ⟨s, l, hs, hl, hlength, connection_apart 2 shared s hs 1 l hl⟩

/-! ## What is processed -/

/-- A condition on the steps of connections. -/
def AtLink (C : Link → Exchange.Action → Prop) (s : Servers) (a : Action) : Prop :=
  match onLink a with
  | some (k, b) => C (s.link k) b
  | none => True

instance (C : Link → Exchange.Action → Prop) [∀ l b, Decidable (C l b)] (s : Servers) (a : Action) :
    Decidable (AtLink C s a) := by
  unfold AtLink
  split <;> infer_instance

theorem atLink_mono {C D : Link → Exchange.Action → Prop} (h : ∀ l b, C l b → D l b) {s : Servers} {a : Action}
    (hc : AtLink C s a) : AtLink D s a := by
  unfold AtLink at hc ⊢
  split
  · next hon =>
    rw [hon] at hc
    exact h _ _ hc
  · trivial

theorem accounted_servers (h : c.Lawful) (s : Servers) (a : Action) (s' : Servers)
    (hi : ∀ k, Link.Accounted c (s.link k)) (hw : AtLink (Link.ReadsWhole c) s a) (hs : step c s a = some s') (k : Nat) :
    Link.Accounted c (s'.link k) := by
  cases (step_effect hs).2 with
  | @exchanged _ j b l l' hon hlink hstep =>
    have hwhole : Link.ReadsWhole c l b := by
      unfold AtLink at hw
      rw [hon] at hw
      exact link_eq hlink ▸ hw
    rw [link_set hlink]
    split
    · have hl := Link.accounted_step h l (.setProcessors s.processors) _ (link_eq hlink ▸ hi j) trivial rfl
      refine Link.accounted_step h _ b l' hl ?_ hstep
      cases b <;> exact hwhole
    · exact hi k
  | kept _ _ hlinks _ _ =>
    rw [link, hlinks]
    exact hi k
  | created =>
    rw [link_concat rfl]
    exact hi k
  | refused | connected | finished | counted => exact hi k

/-- Only a read of the worker adds to the log, and what the processors made of
the request. -/
theorem log_of_step {l l' : Link} {b : Exchange.Action} (h : Link.step c l b = some l') :
    l'.worker.log = l.worker.log ∨ ∃ count wrote x, b = .workerReads count wrote ∧
      l'.worker.log = l.worker.log ++ [x] ∧ l.processors.process x.request = (x.processor, x.response) := by
  cases b with
  | setProcessors | clientDisconnects | workerCloses =>
    cases h
    exact .inl rfl
  | sendMessage p wrote =>
    cases h
    refine .inl ?_
    unfold Link.send
    dsimp only
    split
    · rfl
    · split <;> rfl
  | clientReads count =>
    obtain ⟨-, h⟩ := Option.ite_none_right_eq_some.1 h
    cases h
    exact .inl rfl
  | workerReads count wrote =>
    obtain ⟨-, h⟩ := Option.ite_none_right_eq_some.1 h
    cases h
    have hworker : (l.receive c count wrote).worker =
        (l.worker.onMessage c l.processors (l.toServer.take count)).2 := by
      unfold Link.receive
      dsimp only
      split
      · rfl
      · split <;> rfl
    rw [hworker]
    unfold ConnectionWorker.onMessage
    split
    · exact .inl rfl
    · dsimp only
      split
      · exact .inl rfl
      · let request := PacketConverter.convertBack c (l.toServer.take count)
        let made := l.processors.process request
        refine .inr ⟨count, wrote, ⟨request, made.1, made.2⟩, rfl, ?_, rfl⟩
        split <;> rfl

/-- Connection `k` took its request `i` with a read at which the processors were
those that have made this of it. -/
def ProcessedAt (c : Codec) (idealThreadCount : Int32) (as : List Action) (k i : Nat) (x : Processed) : Prop :=
  ∃ pre count wrote post u v, as = pre ++ .workerReads k count wrote :: post ∧
    run (step c) (start idealThreadCount) pre = some u ∧ step c u (.workerReads k count wrote) = some v ∧
    i = (u.link k).worker.log.length ∧ (v.link k).worker.log = (u.link k).worker.log ++ [x] ∧
    (heldAfter pre).process x.request = (x.processor, x.response)

theorem ProcessedAt.concat {idealThreadCount : Int32} {as : List Action} {k i : Nat} {x : Processed}
    (h : ProcessedAt c idealThreadCount as k i x) (a : Action) : ProcessedAt c idealThreadCount (as ++ [a]) k i x := by
  obtain ⟨pre, count, wrote, post, u, v, rfl, hread⟩ := h
  exact ⟨pre, count, wrote, post ++ [a], u, v, by simp, hread⟩

/-- The processors, and the requests processed, against the steps so far. -/
structure Served (c : Codec) (idealThreadCount : Int32) (s : Servers) (as : List Action) : Prop where
  reached : run (step c) (start idealThreadCount) as = some s
  processors : s.processors = heldAfter as
  logs : ∀ (k i : Nat) (x : Processed), (s.link k).worker.log[i]? = some x → ProcessedAt c idealThreadCount as k i x

theorem served_step {idealThreadCount : Int32} (s : Servers) (as : List Action) (a : Action) (s' : Servers)
    (hi : Served c idealThreadCount s as) (hs : step c s a = some s') : Served c idealThreadCount s' (as ++ [a]) := by
  obtain ⟨hreached, hprocessors, hlogs⟩ := hi
  obtain ⟨hheld, he⟩ := step_effect hs
  refine ⟨run_concat.2 ⟨s, hreached, hs⟩, ?_, fun k i x hx => ?_⟩
  · rw [hheld, hprocessors, heldAfter, heldAfter, List.foldl_append]
    rfl
  · have hkept : (s'.link k).worker.log = (s.link k).worker.log → ProcessedAt c idealThreadCount (as ++ [a]) k i x :=
      fun hsame => (hlogs k i x (hsame ▸ hx)).concat a
    cases he with
    | @exchanged _ j b l l' hon hlink hstep =>
      by_cases hj : j = k
      · subst hj
        have hlog := log_of_step hstep
        have hold : (s.link j).worker.log = l.worker.log := by rw [link_eq hlink]
        have hnew : (link { s with links := s.links.set j l' } j).worker.log = l'.worker.log := by
          rw [link_set hlink, if_pos rfl]
        rcases hlog with hlog | ⟨count, wrote, y, rfl, hlog, hy⟩
        · exact hkept (hnew.trans (hlog.trans hold.symm))
        · -- The read that adds the last request.
          have ha : a = .workerReads j count wrote := by
            cases a <;> cases hon
            rfl
          have hadd := hnew.trans (hlog.trans (congrArg (· ++ [y]) hold.symm))
          rw [hadd] at hx
          obtain hx | ⟨rfl, rfl⟩ := getElem?_concat hx
          · exact (hlogs j i x hx).concat a
          · subst ha
            exact ⟨as, count, wrote, [], s, _, rfl, hreached, hs, rfl, hadd, hprocessors ▸ hy⟩
      · refine hkept ?_
        rw [link_set hlink, if_neg hj]
    | kept _ _ hlinks _ _ => exact hkept (by rw [link, hlinks]; rfl)
    | created => exact hkept (by rw [link_concat rfl])
    | refused | connected | finished | counted => exact hkept rfl

/-- In every run of the servers in which each read takes in whole packets: of
each connection, the requests processed are packets its own client sent, in
order and each once, its client gets responses to them, in order, and each
request went to the processors set last before the read that took it, through
whichever server they were set and whichever server took the connection. -/
theorem served_in_order (h : c.Lawful) (idealThreadCount : Int32) (as : List Action)
    (hw : Meets (step c) (AtLink (Link.ReadsWhole c)) (start idealThreadCount) as) (s : Servers)
    (hs : run (step c) (start idealThreadCount) as = some s) (k : Nat) (l : Link) (hl : s.links[k]? = some l) :
    (l.worker.log.map (·.request)).Sublist l.sent ∧ l.answered.Sublist (l.worker.log.map (·.response)) ∧
      l.got.Sublist l.answered ∧ ∀ i x, l.worker.log[i]? = some x → ProcessedAt c idealThreadCount as k i x := by
  have haccounted : ∀ k, Link.Accounted c (s.link k) :=
    run_inv_of_meets (accounted_servers h) (fun _ => Link.accounted_start) hw hs
  have h0 : Served c idealThreadCount (start idealThreadCount) [] := ⟨rfl, rfl, fun k i x hx => by simp [start, link] at hx⟩
  have hserved := run_history h0 served_step hs
  rw [← link_eq hl]
  obtain ⟨hrequests, hresponses, hgot⟩ := Link.sublists_of_accounted (haccounted k)
  exact ⟨hrequests, hresponses, hgot, hserved.logs k⟩

/-- Two requests of one connection. Between them the processor is taken away
through the other server. -/
def replaced : List Action :=
  [.construct, .incomingConnection 0 [7], .setInfoProcessor 0 (some fun p _ => p), .setConnection 0,
    .sendMessage 0 (Link.ask [97]) true, .workerReads 0 82 true, .setInfoProcessor 1 none,
    .sendMessage 0 (Link.ask [97]) true, .workerReads 0 82 true]

theorem served_in_order_replaced :
    ∃ s l, run (step archiveCodec) (start 2) replaced = some s ∧ s.links[0]? = some l ∧
      l.worker.log.map (·.processor) = [some .info, none] ∧
      ∀ i x, l.worker.log[i]? = some x → ProcessedAt archiveCodec 2 replaced 0 i x := by
  have hpieces : Meets (step archiveCodec) (AtLink (Link.Pieces [Link.ask [97]] [Link.ask [97]])) (start 2) replaced := by
    decide +kernel
  have hwhole := eachStep_mono (fun _ _ _ => atLink_mono fun _ _ => Link.whole_of_pieces) hpieces
  have hlog : (run (step archiveCodec) (start 2) replaced).map
      (fun s => s.links[0]?.map (·.worker.log.map (·.processor))) = some (some [some .info, none]) := by decide +kernel
  obtain ⟨s, hs, hlink⟩ := Option.map_eq_some_iff.1 hlog
  obtain ⟨l, hl, hprocessors⟩ := Option.map_eq_some_iff.1 hlink
  exact ⟨s, l, hs, hl, hprocessors, (served_in_order archiveCodec_lawful 2 replaced hwhole s hs 0 l hl).2.2.2⟩

end ComponentsNetwork.Legacy.Servers
