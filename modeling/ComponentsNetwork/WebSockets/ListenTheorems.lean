import ComponentsNetwork.WebSockets.Server
/-!
# `isListening`

- `listening_truthful_iff`: `isListening` is true exactly while the server
  serves, and a failed `listen` can be made up for by a later one, if and only
  if `listen` is only called before the io service was stopped, and
  `start_accept` never fails in it.
-/

namespace ComponentsNetwork.WebSockets.Server

open Runs Asio

/-- The acceptor is open with an accept pending, and the io thread is inside
`run` of an io service that is not stopped. -/
structure Serving (s : Server) : Prop where
  acceptor : s.acceptor.isSome = true
  accepting : s.accepting = true
  ioThread : s.ioThread = .running
  ioStopped : s.ioStopped = false

/-- Between the calls, `isListening` says whether the server serves. -/
def Truthful (s : Server) : Prop := s.stopping = .no → (s.isListening = true ↔ Serving s)

/-- `listen` throws or returns early. -/
def ListenFails (s : Server) (endpoint : Option Endpoint) (listenEc acceptEc : Bool) : Prop :=
  endpoint = none ∨ s.acceptor.isSome = true ∨ listenEc = true ∨ acceptEc = true

/-- After a `listen` that fails, the server listens and serves once another
one has been called with working outcomes. -/
def Recovers (s : Server) : Action → Server → Prop
  | .listen endpoint listenEc acceptEc, s' =>
    ListenFails s endpoint listenEc acceptEc →
      ∀ again, (s'.listen (some again) false false).isListening = true ∧ Serving (s'.listen (some again) false false)
  | _, _ => True

/-- `listen` is called before the io service was stopped, and `start_accept`
does not fail if it gets there. -/
def FirstStart (s : Server) : Action → Prop
  | .listen endpoint listenEc acceptEc =>
    s.ioStopped = false ∧
      (endpoint.isSome = true → s.acceptor.isSome = false → listenEc = false → acceptEc = false)
  | _ => True

/-! ## What holds in every state -/

/-- Nothing was started, or all of it was taken down. -/
structure Idle (s : Server) : Prop where
  acceptor : s.acceptor = none
  accepting : s.accepting = false
  listening : s.listening = false

/-- The server is up between the calls, or idle; it has an io thread only in
the course of `stop` then. -/
def UpOrIdle (s : Server) : Prop :=
  (s.stopping = .no ∧ s.listening = true ∧ Serving s) ∨ (Idle s ∧ (s.stopping = .no → s.ioThread = .absent))

theorem upOrIdle_init : UpOrIdle {} := .inr ⟨⟨rfl, rfl, rfl⟩, fun _ => rfl⟩

theorem not_serving_of_idle {s : Server} (h : Idle s) : ¬ Serving s := by
  intro hs
  have hopen := hs.acceptor
  rw [h.acceptor] at hopen
  cases hopen

theorem truthful_of_upOrIdle {s : Server} (h : UpOrIdle s) : Truthful s := by
  intro _
  rcases h with ⟨-, hlistening, hserving⟩ | ⟨hidle, -⟩
  · exact iff_of_true hlistening hserving
  · refine iff_of_false ?_ (not_serving_of_idle hidle)
    rw [isListening, hidle.listening]
    exact Bool.false_ne_true

theorem upOrIdle_idle {s : Server} (h : UpOrIdle s) (hno : s.stopping ≠ .no) : Idle s := by
  rcases h with ⟨hs, -⟩ | ⟨hidle, -⟩
  · exact absurd hs hno
  · exact hidle

/-! ## `listen` -/

/-- The acceptor of a server that is up is in use. -/
theorem listen_up {s : Server} (h : Serving s) (endpoint : Option Endpoint) (listenEc acceptEc : Bool) :
    s.listen endpoint listenEc acceptEc = s := by
  cases endpoint with
  | none => rfl
  | some endpoint => simp [listen, h.acceptor]

theorem listen_idle_fails {s : Server} (h : Idle s) (endpoint : Option Endpoint) (listenEc acceptEc : Bool)
    (hf : endpoint = none ∨ listenEc = true) : s.listen endpoint listenEc acceptEc = s := by
  rcases hf with rfl | rfl
  · rfl
  · cases endpoint with
    | none => rfl
    | some endpoint => simp [listen, h.acceptor]

/-- A `listen` that comes to nothing early, or gets to `start_accept`. -/
theorem early_or_bound (endpoint : Option Endpoint) (listenEc : Bool) :
    (endpoint = none ∨ listenEc = true) ∨ ∃ bound, endpoint = some bound ∧ listenEc = false := by
  cases endpoint with
  | none => exact .inl (.inl rfl)
  | some bound =>
    cases listenEc
    · exact .inr ⟨bound, rfl, rfl⟩
    · exact .inl (.inr rfl)

/-- Where only `start_accept` fails, the acceptor stays open. -/
theorem listen_idle_acceptEc {s : Server} (h : Idle s) (endpoint : Endpoint) :
    s.listen (some endpoint) false true = { s with acceptor := some endpoint } := by
  simp [listen, h.acceptor]

theorem listen_idle_works {s : Server} (h : Idle s) (habsent : s.ioThread = .absent) (endpoint : Endpoint) :
    s.listen (some endpoint) false false =
      { s with
        acceptor := some endpoint
        accepting := true
        listening := true
        ioThread := if s.ioStopped then .returned else .running } := by
  simp [listen, h.acceptor, habsent]

theorem listening_works {s : Server} (h : Idle s) (habsent : s.ioThread = .absent) (endpoint : Endpoint) :
    (s.listen (some endpoint) false false).listening = true := by
  rw [listen_idle_works h habsent]

/-- With nothing started, a `listen` with working outcomes brings the server
up, unless the io service was stopped. -/
theorem serving_works_iff {s : Server} (h : Idle s) (habsent : s.ioThread = .absent) (endpoint : Endpoint) :
    Serving (s.listen (some endpoint) false false) ↔ s.ioStopped = false := by
  rw [listen_idle_works h habsent]
  constructor
  · intro hs
    exact hs.ioStopped
  · intro hrunning
    exact ⟨rfl, rfl, by simp [hrunning], hrunning⟩

theorem not_serving_again {s : Server} (h : Idle s) (endpoint again : Endpoint) :
    ¬ Serving (({ s with acceptor := some endpoint }).listen (some again) false false) := by
  intro hs
  have haccepting := hs.accepting
  simp [listen, h.accepting] at haccepting

theorem listen_iff {s : Server} (h : UpOrIdle s) (hno : s.stopping = .no) (endpoint : Option Endpoint)
    (listenEc acceptEc : Bool) :
    Truthful (s.listen endpoint listenEc acceptEc) ∧
        Recovers s (.listen endpoint listenEc acceptEc) (s.listen endpoint listenEc acceptEc) ↔
      FirstStart s (.listen endpoint listenEc acceptEc) := by
  rcases h with ⟨-, hlistening, hserving⟩ | ⟨hidle, habsent⟩
  · have hclosed : s.acceptor.isSome ≠ false := by simp [hserving.acceptor]
    refine iff_of_true ?_ ⟨hserving.ioStopped, fun _ hopen => absurd hopen hclosed⟩
    rw [listen_up hserving]
    refine ⟨truthful_of_upOrIdle (.inl ⟨hno, hlistening, hserving⟩), ?_⟩
    intro _ again
    rw [listen_up hserving]
    exact ⟨hlistening, hserving⟩
  · have habsent := habsent hno
    have htruthful : Truthful s := truthful_of_upOrIdle (.inr ⟨hidle, fun _ => habsent⟩)
    have hfree : s.acceptor.isSome = false := by simp [hidle.acceptor]
    rcases early_or_bound endpoint listenEc with hearly | ⟨endpoint, rfl, rfl⟩
    · -- Nothing changes, and the next call finds the server as this one did.
      rw [listen_idle_fails hidle endpoint listenEc acceptEc hearly]
      have hfails : ListenFails s endpoint listenEc acceptEc := by
        rcases hearly with he | hl
        · exact .inl he
        · exact .inr (.inr (.inl hl))
      constructor
      · rintro ⟨-, hrecovers⟩
        refine ⟨(serving_works_iff hidle habsent {}).1 (hrecovers hfails {}).2, ?_⟩
        intro hsome _ hnot
        rcases hearly with rfl | rfl
        · cases hsome
        · cases hnot
      · rintro ⟨hrunning, -⟩
        refine ⟨htruthful, ?_⟩
        intro _ again
        exact ⟨listening_works hidle habsent again, (serving_works_iff hidle habsent again).2 hrunning⟩
    · cases acceptEc with
      | true =>
        -- The next call finds the acceptor in use, with no accept on it.
        refine iff_of_false ?_ ?_
        · rintro ⟨-, hrecovers⟩
          have hagain := (hrecovers (.inr (.inr (.inr rfl))) {}).2
          rw [listen_idle_acceptEc hidle] at hagain
          exact not_serving_again hidle endpoint {} hagain
        · rintro ⟨-, haccept⟩
          cases haccept rfl hfree rfl
      | false =>
        have hlistening := listening_works hidle habsent endpoint
        have hsame : (s.listen (some endpoint) false false).stopping = s.stopping := by
          rw [listen_idle_works hidle habsent]
        constructor
        · rintro ⟨htruth, -⟩
          have hserving := (htruth (hsame.trans hno)).1 hlistening
          exact ⟨(serving_works_iff hidle habsent endpoint).1 hserving, fun _ _ _ => rfl⟩
        · rintro ⟨hrunning, -⟩
          have hserving := (serving_works_iff hidle habsent endpoint).2 hrunning
          refine ⟨fun _ => iff_of_true hlistening hserving, ?_⟩
          rintro (he | hopen | hl | ha)
          · cases he
          · rw [hfree] at hopen
            cases hopen
          · cases hl
          · cases ha

/-- A call that meets the condition brings the server up or changes nothing. -/
theorem listen_upOrIdle {s : Server} (h : UpOrIdle s) (hno : s.stopping = .no) {endpoint : Option Endpoint}
    {listenEc acceptEc : Bool} (hc : FirstStart s (.listen endpoint listenEc acceptEc)) :
    UpOrIdle (s.listen endpoint listenEc acceptEc) := by
  rcases h with ⟨-, hlistening, hserving⟩ | ⟨hidle, habsent⟩
  · rw [listen_up hserving]
    exact .inl ⟨hno, hlistening, hserving⟩
  · rcases early_or_bound endpoint listenEc with hearly | ⟨endpoint, rfl, rfl⟩
    · rw [listen_idle_fails hidle endpoint listenEc acceptEc hearly]
      exact .inr ⟨hidle, habsent⟩
    · obtain ⟨hrunning, haccept⟩ := hc
      cases haccept rfl (by simp [hidle.acceptor]) rfl
      refine .inl ⟨?_, listening_works hidle (habsent hno) endpoint, ?_⟩
      · rw [listen_idle_works hidle (habsent hno)]
        exact hno
      · exact (serving_works_iff hidle (habsent hno) endpoint).2 hrunning

/-! ## The other steps -/

theorem upOrIdle_frame {s t : Server} (h : UpOrIdle s) (hacceptor : t.acceptor = s.acceptor)
    (haccepting : t.accepting = s.accepting) (hlistening : t.listening = s.listening)
    (hioThread : t.ioThread = s.ioThread) (hioStopped : t.ioStopped = s.ioStopped)
    (hstopping : t.stopping = s.stopping) : UpOrIdle t := by
  rcases h with ⟨hno, hup, hserving⟩ | ⟨hidle, habsent⟩
  · refine .inl ⟨hstopping.trans hno, hlistening.trans hup, ?_, ?_, ?_, ?_⟩
    · rw [hacceptor]
      exact hserving.acceptor
    · exact haccepting.trans hserving.accepting
    · exact hioThread.trans hserving.ioThread
    · exact hioStopped.trans hserving.ioStopped
  · refine .inr ⟨⟨?_, ?_, ?_⟩, ?_⟩
    · exact hacceptor.trans hidle.acceptor
    · exact haccepting.trans hidle.accepting
    · exact hlistening.trans hidle.listening
    · rw [hstopping, hioThread]
      exact habsent

/-- The flag tells `stop` what there is to take down. -/
theorem idle_stopListener {s : Server} (h : UpOrIdle s) : Idle s.stopListener := by
  unfold stopListener
  split
  · exact ⟨rfl, rfl, rfl⟩
  · rename_i hnot
    rcases h with ⟨-, hlistening, -⟩ | ⟨hidle, -⟩
    · exact absurd hlistening hnot
    · exact hidle

theorem idle_frame {s t : Server} (h : Idle s) (hacceptor : t.acceptor = s.acceptor)
    (haccepting : t.accepting = s.accepting) (hlistening : t.listening = s.listening) : Idle t :=
  ⟨hacceptor.trans h.acceptor, haccepting.trans h.accepting, hlistening.trans h.listening⟩

theorem stopIo_absent (s : Server) : s.stopIo.ioThread = .absent := by
  unfold stopIo
  split
  · rename_i habsent
    exact habsent
  · rfl

theorem idle_stopIo {s : Server} (h : Idle s) : Idle s.stopIo := by
  unfold stopIo
  split
  · exact h
  · exact idle_frame h rfl rfl rfl

/-- Neither while the server accepts nor once it is down does `run` return
between the calls. -/
theorem upOrIdle_runReturns {s : Server} (h : UpOrIdle s) (hrunning : s.ioThread = .running)
    (hend : s.accepting = false) : UpOrIdle { s with ioThread := .returned, ioStopped := true } := by
  rcases h with ⟨-, -, hserving⟩ | ⟨hidle, habsent⟩
  · rw [hserving.accepting] at hend
    cases hend
  · refine .inr ⟨idle_frame hidle rfl rfl rfl, ?_⟩
    intro hno
    rw [habsent hno] at hrunning
    cases hrunning

theorem upOrIdle_step (s : Server) (a : Action) (s' : Server) (h : UpOrIdle s) (hc : FirstStart s a)
    (hs : step s a = some s') : UpOrIdle s' := by
  cases a <;> simp only [step, Option.ite_none_right_eq_some, Option.some.injEq] at hs <;> obtain ⟨hg, rfl⟩ := hs
  case listen endpoint listenEc acceptEc => exact listen_upOrIdle h hg hc
  case stopListener => exact .inr ⟨idle_frame (idle_stopListener h) rfl rfl rfl, fun hno => by cases hno⟩
  case stopConnections =>
    have hidle := upOrIdle_idle h (by rw [hg]; exact Stopping.noConfusion)
    exact .inr ⟨idle_frame hidle rfl rfl rfl, fun hno => by cases hno⟩
  case stopIo =>
    have hidle := upOrIdle_idle h (by rw [hg]; exact Stopping.noConfusion)
    exact .inr ⟨idle_frame (idle_stopIo hidle) rfl rfl rfl, fun _ => stopIo_absent s⟩
  case accepted => exact upOrIdle_frame h rfl rfl rfl rfl rfl rfl
  case opened hdl => exact upOrIdle_frame h rfl rfl rfl rfl rfl rfl
  case failed hdl => exact upOrIdle_frame h rfl rfl rfl rfl rfl rfl
  case closed hdl => exact upOrIdle_frame h rfl rfl rfl rfl rfl rfl
  case runReturns => exact upOrIdle_runReturns h hg.1 hg.2.1

/-! ## `isListening` over a history of calls -/

theorem step_truthful_iff {s s' : Server} {a : Action} (h : UpOrIdle s) (hs : step s a = some s') :
    (Truthful s' ∧ Recovers s a s') ↔ FirstStart s a := by
  cases a
  case listen endpoint listenEc acceptEc =>
    simp only [step, Option.ite_none_right_eq_some, Option.some.injEq] at hs
    obtain ⟨hno, rfl⟩ := hs
    exact listen_iff h hno endpoint listenEc acceptEc
  all_goals
    have hup := fun hc => upOrIdle_step s _ s' h hc hs
    exact iff_of_true ⟨truthful_of_upOrIdle (hup trivial), trivial⟩ trivial

/-- In every run, `isListening` tells between the calls whether the server
serves, and each `listen` that fails leaves it able to listen again, exactly
if `listen` is never called once the io service was stopped and its
`start_accept` never fails. -/
theorem listening_truthful_iff (as : List Action) :
    (Always step Truthful {} as ∧ EachStep step Recovers {} as) ↔ Meets step FirstStart {} as := by
  rw [Always, and_iff_right (truthful_of_upOrIdle upOrIdle_init), ← eachStep_and]
  apply eachStep_iff (J := UpOrIdle) (C := FirstStart)
  · intro s a s' h hs
    exact step_truthful_iff h hs
  · exact upOrIdle_step
  · exact upOrIdle_init

instance (s : Server) : Decidable (Serving s) :=
  decidable_of_iff (s.acceptor.isSome = true ∧ s.accepting = true ∧ s.ioThread = .running ∧ s.ioStopped = false)
    ⟨fun ⟨h₁, h₂, h₃, h₄⟩ => ⟨h₁, h₂, h₃, h₄⟩, fun h => ⟨h.1, h.2, h.3, h.4⟩⟩

instance (s : Server) : Decidable (Truthful s) := inferInstanceAs (Decidable (_ → _))

/-- A server that is stopped and listens again. -/
def listenAgain : List Action :=
  [.listen (some {}) false false, .stopListener, .stopConnections, .stopIo, .listen (some {}) false false]

/-- It says it listens, with an io service that stays stopped. -/
theorem listens_with_io_stopped :
    (run step {} listenAgain).map (fun s => (s.isListening, s.ioThread, s.ioStopped)) = some (true, .returned, true) ∧
      ¬ Always step Truthful {} listenAgain := by decide

end ComponentsNetwork.WebSockets.Server
