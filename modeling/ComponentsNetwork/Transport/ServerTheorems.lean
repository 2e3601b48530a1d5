import ComponentsNetwork.Transport.ClientTheorems
import ComponentsNetwork.Transport.Server
import ComponentsNetwork.Transport.SessionTheorems
/-!
# What a transport server answers

- `only_echoes`: whatever arrives on its connections, and in whatever order,
  the server never calls its callback. It writes back the packets it reads:
  `loadTokens` registers one token, which no packet that is read can have.

The order of what is written is that of the tasks, each of which runs to its
end before the next one and whose `write_some` takes all it is given. With a
`threadCount` above one, two threads can run tasks of one connection at once,
and their writes come in either order.
-/

namespace ComponentsNetwork.TransportLevel

open Buffers Chunks Runs TransportPacket

variable {c : Codec} {σ : Sorter TransportPacket subPacketNo}

/-! ## A session that accepts no empty token -/

/-- What comes back for a string: the text of the packet it decodes to. -/
def echo (c : Codec) (str : Bytes) : Option Bytes := (TransportClient.decoded c str).map (toString c)

namespace ConnectionSession

/-- The strings passed on so far, without those of a buffer that has no end. -/
def passedOn (s : ConnectionSession) : List Bytes := s.log.passed.filterMap Prod.snd

/-- All the session has done is write packets back. -/
structure Echoes (c : Codec) (s : ConnectionSession) : Prop where
  calls : s.log.calls = []
  subPacketsMap : ∀ guid, s.subPacketsMap guid = none
  written : s.log.written = s.passedOn.filterMap (echo c)

/-- A string without a registered token is answered with its own packet. -/
theorem processString_echo {s : ConnectionSession} (h : [] ∉ s.tokenList) (input : Bytes) (reply : Option Bytes) :
    s.processString c σ input reply =
      { s with log := { s.log with written := s.log.written ++ (echo c input).toList } } := by
  have htoken : (fromString c {} input).2.token = [] := fromString_token _ _
  unfold processString echo TransportClient.decoded
  generalize fromString c {} input = x at htoken
  obtain ⟨_ | _, p⟩ := x
  · simp
  · have hnone : p.token = [] := htoken
    have hrefused : p.token ∉ s.tokenList := by rwa [hnone]
    have hsame : ({ p with token := [] } : TransportPacket) = p := by rw [← hnone]
    unfold process
    simp [hrefused, hsame, writeSocket]

theorem runTask_echo {s : ConnectionSession} (h : [] ∉ s.tokenList) (k : Nat) (reply : Option Bytes) :
    s.runTask c σ k reply =
      { s with
        posted := s.posted.erase k
        log := { s.log with
          passed := s.log.passed ++ [(k, cString s.data)]
          written := s.log.written ++ ((cString s.data).bind (echo c)).toList } } := by
  unfold runTask
  cases hinput : cString s.data with
  | none => simp
  | some input =>
    exact processString_echo (s := { s with
      posted := s.posted.erase k, log := { s.log with passed := s.log.passed ++ [(k, some input)] } }) h input reply

theorem echoes_step {s s' : ConnectionSession} {a : Action} (h : [] ∉ s.tokenList) (he : Echoes c s)
    (hs : s.step c σ a = some s') : Echoes c s' ∧ s'.tokenList = s.tokenList := by
  cases a with
  | readCompletes received =>
    simp only [step, Option.ite_none_right_eq_some, Option.some.injEq] at hs
    obtain ⟨-, rfl⟩ := hs
    exact ⟨⟨he.calls, he.subPacketsMap, he.written⟩, rfl⟩
  | readFails eof =>
    simp only [step, Option.ite_none_right_eq_some] at hs
    obtain ⟨-, hs⟩ := hs
    cases eof <;> cases hs <;> exact ⟨⟨he.calls, he.subPacketsMap, he.written⟩, rfl⟩
  | runTask k reply =>
    simp only [step, Option.ite_none_right_eq_some, Option.some.injEq] at hs
    obtain ⟨-, rfl⟩ := hs
    rw [runTask_echo h]
    refine ⟨⟨he.calls, he.subPacketsMap, ?_⟩, rfl⟩
    unfold passedOn
    dsimp only
    rw [List.filterMap_append, List.filterMap_append, he.written]
    cases cString s.data with
    | none => simp [passedOn]
    | some input => cases hecho : echo c input <;> simp [passedOn, hecho]

end ConnectionSession

/-! ## The server -/

namespace TransportServerInstance

/-- The only token that is ever registered. -/
def OneToken (s : TransportServerInstance) : Prop := ∀ token ∈ s.tokenList, token = octets "DEVELOP_TOKEN"

theorem OneToken.not_mem_nil {s : TransportServerInstance} (h : OneToken s) : [] ∉ s.tokenList := by
  intro hmem
  have hnil := h [] hmem
  revert hnil
  decide

/-- What a step does: it registers the one token, takes a connection, lets a
session act, or leaves tokens and sessions alone. -/
inductive Effect (c : Codec) (σ : Sorter TransportPacket subPacketNo) (s : TransportServerInstance) :
    TransportServerInstance → Prop
  | token {s'} (tokenList : s'.tokenList = s.tokenList ++ [octets "DEVELOP_TOKEN"])
      (sessions : s'.sessions = s.sessions) : Effect c σ s s'
  | connected {s' data} (tokenList : s'.tokenList = s.tokenList)
      (sessions : s'.sessions = s.sessions ++ [ConnectionSession.start s.tokenList data]) : Effect c σ s s'
  | acts {s' i a session session'} (at_ : s.sessions[i]? = some session)
      (step : { session with tokenList := s.tokenList }.step c σ a = some session')
      (tokenList : s'.tokenList = s.tokenList) (sessions : s'.sessions = s.sessions.set i session') : Effect c σ s s'
  | quiet {s'} (tokenList : s'.tokenList = s.tokenList) (sessions : s'.sessions = s.sessions) : Effect c σ s s'

theorem step_effect {s s' : TransportServerInstance} {a : Action} (h : s.step c σ a = some s') : Effect c σ s s' := by
  cases a with
  | setPort portNo | setThreadCount threadCount | start =>
    cases h
    exact .quiet rfl rfl
  | loadTokens filePath =>
    cases h
    exact .token rfl rfl
  | init opened =>
    cases h
    cases opened <;> exact .quiet rfl rfl
  | accept connection =>
    simp only [step, Option.ite_none_right_eq_some, Option.some.injEq] at h
    obtain ⟨-, rfl⟩ := h
    cases connection with
    | none => exact .quiet rfl rfl
    | some data => exact .connected rfl rfl
  | session i a =>
    simp only [step, Option.ite_none_right_eq_some] at h
    obtain ⟨-, h⟩ := h
    obtain ⟨session, hi, h⟩ := Option.bind_eq_some_iff.1 h
    obtain ⟨session', hs, rfl⟩ := Option.map_eq_some_iff.1 h
    exact .acts hi hs rfl rfl

/-- Nothing but packets that came in is written, and nothing is called. -/
def OnlyEchoes (c : Codec) (s : TransportServerInstance) : Prop :=
  OneToken s ∧ ∀ session ∈ s.sessions, session.Echoes c

theorem onlyEchoes_step (s : TransportServerInstance) (a : Action) (s' : TransportServerInstance)
    (h : OnlyEchoes c s) (hs : s.step c σ a = some s') : OnlyEchoes c s' := by
  obtain ⟨htoken, hechoes⟩ := h
  cases step_effect hs with
  | token htokens hsessions =>
    refine ⟨?_, hsessions ▸ hechoes⟩
    intro token hmem
    rw [htokens, List.mem_append, List.mem_singleton] at hmem
    exact hmem.elim (htoken token) id
  | @connected data htokens hsessions =>
    refine ⟨fun token hmem => htoken token (htokens ▸ hmem), ?_⟩
    rw [hsessions, List.forall_mem_append]
    refine ⟨hechoes, ?_⟩
    rw [List.forall_mem_singleton]
    exact ⟨rfl, fun _ => rfl, rfl⟩
  | @acts i a session session' hi hstep htokens hsessions =>
    refine ⟨fun token hmem => htoken token (htokens ▸ hmem), ?_⟩
    have hsession := hechoes session (List.mem_of_getElem? hi)
    have hlet : ConnectionSession.Echoes c { session with tokenList := s.tokenList } :=
      ⟨hsession.calls, hsession.subPacketsMap, hsession.written⟩
    have hnext := (ConnectionSession.echoes_step (s := { session with tokenList := s.tokenList })
      htoken.not_mem_nil hlet hstep).1
    intro t ht
    rw [hsessions] at ht
    exact (List.mem_or_eq_of_mem_set ht).elim (hechoes t) fun he => he ▸ hnext
  | quiet htokens hsessions => exact ⟨fun token hmem => htoken token (htokens ▸ hmem), hsessions ▸ hechoes⟩

/-- In every run of a server, only one token is ever registered, and no string
decodes to a packet with a token. On every connection: the callback is not
called, no subpacket is kept, and what is written are the packets that the
strings passed on decode to, one for each that does, in the order they were
passed on. -/
theorem only_echoes (c : Codec) (σ : Sorter TransportPacket subPacketNo) {as : List Action}
    {s : TransportServerInstance} (h : run (step c σ) {} as = some s) :
    OneToken s ∧ (∀ str, (fromString c {} str).2.token = []) ∧
      ∀ session ∈ s.sessions, session.log.calls = [] ∧ (∀ guid, session.subPacketsMap guid = none) ∧
        session.log.written = session.passedOn.filterMap (echo c) := by
  have hinit : OnlyEchoes c ({} : TransportServerInstance) := ⟨by simp [OneToken], by simp⟩
  obtain ⟨htoken, hechoes⟩ := run_inv onlyEchoes_step hinit h
  refine ⟨htoken, fromString_token _, fun session hmem => ?_⟩
  exact ⟨(hechoes session hmem).calls, (hechoes session hmem).subPacketsMap, (hechoes session hmem).written⟩

/-- A client's packet comes in on a connection, another on a second one, and a
second packet on the first. -/
def helloRun : List Action :=
  [.loadTokens "", .init true, .start, .accept (some (List.replicate 200 0)), .accept (some (List.replicate 200 0)),
    .session 0 (.readCompletes (TransportClient.hello.toString textCodec)), .session 0 (.runTask 0 none),
    .session 1 (.readCompletes (TransportClient.goodbye.toString textCodec)),
    .session 0 (.readCompletes (TransportClient.goodbye.toString textCodec)), .session 0 (.runTask 1 none),
    .session 1 (.runTask 0 none)]

theorem helloRun_passedOn :
    ∃ s ∈ run (step textCodec .merge) {} helloRun, s.tokenList = [octets "DEVELOP_TOKEN"] ∧
      s.sessions.map ConnectionSession.passedOn =
        [[TransportClient.hello.toString textCodec, TransportClient.goodbye.toString textCodec],
          [TransportClient.goodbye.toString textCodec]] := by
  decide +kernel

theorem only_echoes_hello :
    ∃ s, run (step textCodec .merge) {} helloRun = some s ∧
      s.sessions.map (fun session => session.log.written) =
        [[TransportClient.hello.toString textCodec, TransportClient.goodbye.toString textCodec],
          [TransportClient.goodbye.toString textCodec]] := by
  obtain ⟨s, hs, -, hpassed⟩ := helloRun_passedOn
  obtain ⟨-, -, hechoes⟩ := only_echoes textCodec .merge hs
  have hwritten : s.sessions.map (fun session => session.log.written) =
      (s.sessions.map ConnectionSession.passedOn).map (List.filterMap (echo textCodec)) := by
    rw [List.map_map]
    exact List.map_congr_left fun session hmem => (hechoes session hmem).2.2
  refine ⟨s, hs, hwritten.trans ?_⟩
  rw [hpassed]
  decide +kernel

end TransportServerInstance

end ComponentsNetwork.TransportLevel
