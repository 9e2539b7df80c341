import InferTwin.Properties.Memoization
import InferTwin.Properties.Streaming
import InferTwin.Refinement.Sinks
import InferTwin.Report.CacheEvents

namespace InferTwin

open Effect

variable {C K σ : Type}

/-- What the replay of one instance leaves behind. -/
structure InstanceRun where
  instanceUuid : String
  requestMetrics : List BatchAwareRequestMetrics
  iterationMetrics : List IterationMetrics
  cacheEvents : List CacheEvent

/-- The replay of one instance on its own, from an empty memo and with a log for the events of
its cache. -/
def Engine.replayAlone (engine : Engine C K) (start : C) (instanceUuid : String) (fuel : ℕ)
    (requests : List SimulationRequest) : Except ReplayError InstanceRun :=
  match (engine.withSink EventLogSink).runInstance instanceUuid fuel requests
    { cache := start, sink := [], memo := ∅ } with
  | .ok result world => .ok {
      instanceUuid
      requestMetrics := result.requestMetrics
      iterationMetrics := result.iterationMetrics
      cacheEvents := world.sink }
  | .error e _ => .error e

theorem replay_alone_instance {engine : Engine C K} {start : C} {instanceUuid : String}
    {fuel : ℕ} {requests : List SimulationRequest} {run : InstanceRun}
    (h : engine.replayAlone start instanceUuid fuel requests = .ok run) :
    run.instanceUuid = instanceUuid := by
  unfold Engine.replayAlone at h
  split at h
  · cases h
    rfl
  · cases h

/-- A replay among others did what it does on its own. -/
structure InstanceRun.Shows (run : InstanceRun) (engine : Engine C K) (sink : K)
    (requestMetrics : List BatchAwareRequestMetrics) (iterationMetrics : List IterationMetrics)
    (world : World C K) : Prop where
  requests_eq : requestMetrics = run.requestMetrics
  iterations_eq : iterationMetrics.map IterationMetrics.forgetMemo =
    run.iterationMetrics.map IterationMetrics.forgetMemo
  sink_eq : world.sink = engine.sink.emitMany run.cacheEvents sink
  filled : world.memo.FilledBy engine.latencyBackend

section Instances

variable {engine : Engine C K} {requests : List SimulationRequest} {start : C}
  {instanceUuid : String} {fuel : ℕ} {sink : K} {memo : ShapeMemo}

/-- Whatever the sink and the memo hold at first, they have no part in a replay. -/
theorem run_instance_agrees_alone (hbackend : engine.latencyBackend.Memoizable)
    (hsink : engine.sink.Sequential) (instanceUuid : String) (fuel : ℕ)
    (requests : List SimulationRequest) (start : C) (sink : K)
    (hmemo : memo.FilledBy engine.latencyBackend) :
    Agree (fun world logged ↦ world.sink = engine.sink.emitMany logged.sink sink ∧
        world.memo.FilledBy engine.latencyBackend) InstanceResult.Same
      (engine.runInstance instanceUuid fuel requests { cache := start, sink, memo })
      ((engine.withSink EventLogSink).runInstance instanceUuid fuel requests
        { cache := start, sink := [], memo := ∅ }) := by
  -- the same replay with a log in place of the sink
  have hlogged := @sinks_run_instance C K _ (fun k log ↦ k = engine.sink.emitMany log sink)
    engine EventLogSink (fun events k log hk ↦ by
      rw [hk]
      exact (hsink.emit_append log events sink).symm) instanceUuid fuel requests
    { cache := start, sink, memo } { cache := start, sink := [], memo }
    ⟨rfl, rfl, rfl, (hsink.emit_nil sink).symm⟩
  -- from both memos it is the one that calls the backend for every iteration
  have hunmemoized := @same_run_instance C _ True (engine.withSink EventLogSink) hbackend
    instanceUuid fuel requests
  have hempty := ShapeMemo.filled_by_empty engine.latencyBackend
  have hfirst := hunmemoized { cache := start, sink := [], memo }
    { cache := start, sink := [], memo := ∅ } ⟨rfl, fun _ ↦ rfl, rfl, hmemo, hempty⟩
  have hsecond := hunmemoized { cache := start, sink := [], memo := ∅ }
    { cache := start, sink := [], memo := ∅ } ⟨rfl, fun _ ↦ rfl, rfl, hempty, hempty⟩
  have hboth := hfirst.comp hsecond.symm
    (V := fun s r ↦ s.sink = r.sink ∧ s.memo.FilledBy engine.latencyBackend)
    (R := InstanceResult.Same)
    (fun s t r hs hr ↦ ⟨(hs.sink_eq trivial).trans (hr.sink_eq trivial).symm, hs.filled⟩)
    fun a b c hab hcb ↦ ⟨hab.1.trans hcb.1.symm, hab.2.trans hcb.2.symm⟩
  refine hlogged.comp hboth ?_ ?_
  · rintro world middle logged hw ⟨hs, hm⟩
    rw [hw.memo_eq, ← hs]
    exact ⟨hw.sinks, hm⟩
  · rintro a _ c rfl h
    exact h

theorem shows_of_agree {X : Type} {Q : X → InstanceResult → Prop}
    {requestsOf : X → List BatchAwareRequestMetrics} {iterationsOf : X → List IterationMetrics}
    (hQ : ∀ a b, Q a b → requestsOf a = b.requestMetrics ∧
      (iterationsOf a).map IterationMetrics.forgetMemo =
        b.iterationMetrics.map IterationMetrics.forgetMemo)
    {outcome : EStateM.Result ReplayError (World C K) X}
    (h : Agree (fun world logged ↦ world.sink = engine.sink.emitMany logged.sink sink ∧
        world.memo.FilledBy engine.latencyBackend) Q outcome
      ((engine.withSink EventLogSink).runInstance instanceUuid fuel requests
        { cache := start, sink := [], memo := ∅ })) :
    (∀ result world, outcome = .ok result world →
      ∃ run, engine.replayAlone start instanceUuid fuel requests = .ok run ∧
        run.Shows engine sink (requestsOf result) (iterationsOf result) world) ∧
    ∀ run, engine.replayAlone start instanceUuid fuel requests = .ok run →
      ∃ result world, outcome = .ok result world ∧
        run.Shows engine sink (requestsOf result) (iterationsOf result) world := by
  unfold Engine.replayAlone
  generalize (engine.withSink EventLogSink).runInstance instanceUuid fuel requests
    { cache := start, sink := [], memo := ∅ } = logged at h ⊢
  cases h with
  | error hw =>
    constructor
    · intro result world h
      cases h
    · intro run h
      cases h
  | @ok result alone world logged hw hq =>
    obtain ⟨hrequests, hiterations⟩ := hQ _ _ hq
    constructor
    · intro result' world' h
      cases h
      exact ⟨_, rfl, hrequests, hiterations, hw.1, hw.2⟩
    · intro run h
      cases h
      exact ⟨_, _, rfl, hrequests, hiterations, hw.1, hw.2⟩

/-- The replay of an instance in a run. -/
theorem run_instance_shows_alone (hbackend : engine.latencyBackend.Memoizable)
    (hsink : engine.sink.Sequential) (hmemo : memo.FilledBy engine.latencyBackend) :
    (∀ result world, engine.runInstance instanceUuid fuel requests
        { cache := start, sink, memo } = .ok result world →
      ∃ run, engine.replayAlone start instanceUuid fuel requests = .ok run ∧
        run.Shows engine sink result.requestMetrics result.iterationMetrics world) ∧
    ∀ run, engine.replayAlone start instanceUuid fuel requests = .ok run →
      ∃ result world, engine.runInstance instanceUuid fuel requests
          { cache := start, sink, memo } = .ok result world ∧
        run.Shows engine sink result.requestMetrics result.iterationMetrics world :=
  shows_of_agree (fun _ _ h ↦ h)
    (run_instance_agrees_alone hbackend hsink instanceUuid fuel requests start sink hmemo)

variable {source : RequestSource σ} {state : σ} {turns : ℕ}

/-- A source is replayed as the list of its requests is. -/
theorem run_instance_stream_agrees (engine : Engine C K) (hyields : source.Yields state requests)
    (hsorted : requests.Pairwise fun a b ↦ a.sortKey ≤ b.sortKey)
    (hd : (requests.map SimulationRequest.requestId).Nodup)
    (hinstance : ∀ request ∈ requests, request.instanceUuid = instanceUuid)
    (hturns : requests.length < turns) (fuel : ℕ) (world : World C K) :
    Agree Eq StreamEmits (engine.runInstanceStream source instanceUuid turns fuel state world)
      (engine.runInstance instanceUuid fuel requests world) := by
  have hstream := run_instance_stream_agree engine hyields hinstance hd hturns fuel world
  have hlist := run_instance_agree engine instanceUuid fuel world hd
  rw [SimulationRequest.sorted, hsorted.insertionSort_eq] at hlist
  refine hstream.trans hlist fun stream session list hs hl ↦ ?_
  have hmetrics : stream.requestMetrics = list.requestMetrics ∧
      stream.iterationMetrics = list.iterationMetrics := by
    cases session with
    | none =>
      cases hl
      exact ⟨hs.requests_eq, hs.iterations_eq⟩
    | some session => exact ⟨hs.requests_eq.trans hl.1.symm, hs.iterations_eq.trans hl.2.symm⟩
  exact ⟨hmetrics.1, hmetrics.2, hs.final_active_eq,
    hs.request_count_eq.trans (congrArg List.length hmetrics.1),
    hs.iteration_count_eq.trans (congrArg List.length hmetrics.2)⟩

/-- All that was begun is finished, and counted. -/
structure StreamResult.Closed (result : StreamResult) : Prop where
  final_active_eq : result.stats.finalActiveRequests = 0
  request_count_eq : result.stats.emittedRequestCount = result.requestMetrics.length

/-- The replay of the shard of an instance. -/
theorem run_instance_stream_shows_alone (hbackend : engine.latencyBackend.Memoizable)
    (hsink : engine.sink.Sequential) (hmemo : memo.FilledBy engine.latencyBackend)
    (hyields : source.Yields state requests)
    (hsorted : requests.Pairwise fun a b ↦ a.sortKey ≤ b.sortKey)
    (hd : (requests.map SimulationRequest.requestId).Nodup)
    (hinstance : ∀ request ∈ requests, request.instanceUuid = instanceUuid)
    (hturns : requests.length < turns) :
    (∀ result world, engine.runInstanceStream source instanceUuid turns fuel state
        { cache := start, sink, memo } = .ok result world →
      result.Closed ∧ ∃ run, engine.replayAlone start instanceUuid fuel requests = .ok run ∧
        run.Shows engine sink result.requestMetrics result.iterationMetrics world) ∧
    ∀ run, engine.replayAlone start instanceUuid fuel requests = .ok run →
      ∃ result world, engine.runInstanceStream source instanceUuid turns fuel state
          { cache := start, sink, memo } = .ok result world ∧ result.Closed ∧
        run.Shows engine sink result.requestMetrics result.iterationMetrics world := by
  have hstream := run_instance_stream_agrees engine hyields hsorted hd hinstance hturns fuel
    { cache := start, sink, memo }
  have hclosed : ∀ result world, engine.runInstanceStream source instanceUuid turns fuel state
      { cache := start, sink, memo } = .ok result world → result.Closed := by
    intro result world h
    rw [h] at hstream
    obtain ⟨list, _, -, -, hemits⟩ := hstream.ok_left
    exact ⟨hemits.final_active_eq, hemits.request_count_eq.trans
      (congrArg List.length hemits.requests_eq).symm⟩
  have hagree := hstream.comp
    (run_instance_agrees_alone hbackend hsink instanceUuid fuel requests start sink hmemo)
    (V := fun world logged ↦ world.sink = engine.sink.emitMany logged.sink sink ∧
      world.memo.FilledBy engine.latencyBackend)
    (R := fun result alone ↦ result.requestMetrics = alone.requestMetrics ∧
      result.iterationMetrics.map IterationMetrics.forgetMemo =
        alone.iterationMetrics.map IterationMetrics.forgetMemo)
    (fun _ _ _ heq h ↦ heq ▸ h)
    fun result list alone hemits hsame ↦ ⟨hemits.requests_eq.trans hsame.1,
      (congrArg (List.map IterationMetrics.forgetMemo) hemits.iterations_eq).trans hsame.2⟩
  obtain ⟨hthere, hback⟩ := shows_of_agree (fun _ _ h ↦ h) hagree
  refine ⟨fun result world h ↦ ⟨hclosed result world h, hthere result world h⟩, fun run h ↦ ?_⟩
  obtain ⟨result, world, hrun, hshows⟩ := hback run h
  exact ⟨result, world, hrun, hclosed result world hrun, hshows⟩

end Instances

end InferTwin
