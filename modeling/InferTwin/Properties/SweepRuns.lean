import InferTwin.Latency.Resolution
import InferTwin.Properties.CapacityReport
import InferTwin.Properties.Shards
import InferTwin.Streaming.SweepRunner

namespace InferTwin

open Effect

variable {C K : Type}

section Rows

variable {runs runs' : List InstanceRun} {timelineMode : TimelineMode}

/-- The rows of a capacity that some runs make up. -/
def runsRows (capacity : ℕ+) (timelineMode : TimelineMode) (runs : List InstanceRun) :
    Except SweepError (List CapacitySweepRow) :=
  buildCapacityRows (capacity : ℕ) (runs.flatMap InstanceRun.requestMetrics)
    (runs.flatMap InstanceRun.iterationMetrics)
    { totalEvents := (runs.flatMap InstanceRun.cacheEvents).length } timelineMode.value
    timelineMode.ttftGranularity.value

/-- Runs of a mode whose metrics can be reported. -/
def AllReportable (timelineMode : TimelineMode) (runs : List InstanceRun) : Prop :=
  ∀ run ∈ runs, Reportable timelineMode.value timelineMode.ttftGranularity.value
    run.requestMetrics run.iterationMetrics

theorem AllReportable.flat (h : AllReportable timelineMode runs) :
    Reportable timelineMode.value timelineMode.ttftGranularity.value
      (runs.flatMap InstanceRun.requestMetrics) (runs.flatMap InstanceRun.iterationMetrics) := by
  refine ⟨?_, ?_, ?_, ?_, ?_⟩
  all_goals
    intro metric hmetric
    obtain ⟨run, hrun, hmem⟩ := List.mem_flatMap.mp hmetric
  · exact (h run hrun).request_values metric hmem
  · exact (h run hrun).iteration_values metric hmem
  · exact (h run hrun).request_instances metric hmem
  · exact (h run hrun).iteration_instances metric hmem
  · exact (h run hrun).tokens metric hmem

/-- The order of the runs does not show. -/
theorem AllReportable.runs_rows_perm (h : AllReportable timelineMode runs)
    (hperm : runs.Perm runs') (capacity : ℕ+) :
    runsRows capacity timelineMode runs = runsRows capacity timelineMode runs' :=
  capacity_rows_congr h.flat (hperm.flatMap_right _) ((hperm.flatMap_right _).map _)
    (hperm.flatMap_right _).length_eq capacity

theorem AllReportable.runs_rows_ok (h : AllReportable timelineMode runs) (capacity : ℕ+) :
    ∃ rows, runsRows capacity timelineMode runs = .ok rows := by
  obtain ⟨_, _, -, -, -, -, hrows⟩ := h.flat.capacity_rows (capacity : ℕ)
    { totalEvents := (runs.flatMap InstanceRun.cacheEvents).length }
  exact ⟨_, hrows⟩

end Rows

section Batch

variable {engine : BatchAwareReplayEngine C K} {fuel : ℕ}

/-- The runs of some groups, each replayed on its own. -/
def BatchAwareReplayEngine.RunsAlone (engine : BatchAwareReplayEngine C K) (fuel : ℕ) :
    List (String × List SimulationRequest) → List InstanceRun → Prop :=
  List.Forall₂ fun group run ↦
    (engine.forInstance group.1).replayAlone (engine.cacheFactory group.1).2 group.1 fuel group.2 =
      .ok run

/-- What a run over some groups emits and leaves behind is what their runs alone do. -/
structure RunsShow (runs : List InstanceRun) (engine : BatchAwareReplayEngine C K) (sink : K)
    (result : InstanceResult) (shared : Shared K) : Prop where
  requests_eq : result.requestMetrics = runs.flatMap InstanceRun.requestMetrics
  iterations_eq : result.iterationMetrics.map IterationMetrics.forgetMemo =
    (runs.flatMap InstanceRun.iterationMetrics).map IterationMetrics.forgetMemo
  sink_eq : shared.sink = engine.sink.emitMany (runs.flatMap InstanceRun.cacheEvents) sink

theorem RunsShow.cons {run : InstanceRun} {runs : List InstanceRun} {sink : K}
    {instanceUuid : String} {own rest : InstanceResult} {world : World C K} {shared : Shared K}
    (hsink : engine.sink.Sequential)
    (h : run.Shows (engine.forInstance instanceUuid) sink own.requestMetrics own.iterationMetrics
      world) (hrest : RunsShow runs engine world.sink rest shared) :
    RunsShow (run :: runs) engine sink {
      requestMetrics := own.requestMetrics ++ rest.requestMetrics
      iterationMetrics := own.iterationMetrics ++ rest.iterationMetrics } shared where
  requests_eq := congrArg₂ _ h.requests_eq hrest.requests_eq
  iterations_eq := by
    rw [List.flatMap_cons, List.map_append, List.map_append, h.iterations_eq, hrest.iterations_eq]
  sink_eq := by
    rw [List.flatMap_cons, hsink.emit_append, hrest.sink_eq, h.sink_eq]
    rfl

variable (engine fuel) in
/-- A run over some groups returns if and only if each of them alone does, and it shows
nothing but their runs. -/
theorem run_groups_shows (hbackend : engine.latencyBackend.Memoizable)
    (hsink : engine.sink.Sequential) (groups : List (String × List SimulationRequest)) (sink : K)
    {memo : ShapeMemo} (hmemo : memo.FilledBy engine.latencyBackend) :
    (∀ result shared, engine.runGroups fuel groups { sink, memo } = .ok result shared →
      ∃ runs, engine.RunsAlone fuel groups runs ∧ RunsShow runs engine sink result shared) ∧
    ∀ runs, engine.RunsAlone fuel groups runs → ∃ result shared,
      engine.runGroups fuel groups { sink, memo } = .ok result shared ∧
        RunsShow runs engine sink result shared := by
  induction groups generalizing sink memo with
  | nil =>
    have hnil : RunsShow [] engine sink {} { sink, memo } :=
      ⟨rfl, rfl, (hsink.emit_nil sink).symm⟩
    constructor
    · intro result shared h
      cases h
      exact ⟨[], .nil, hnil⟩
    · rintro _ ⟨⟩
      exact ⟨{}, _, rfl, hnil⟩
  | cons group groups ih =>
    obtain ⟨instanceUuid, requests⟩ := group
    obtain ⟨hthere, hback⟩ := @run_instance_shows_alone C K (engine.forInstance instanceUuid)
      requests (engine.cacheFactory instanceUuid).2 instanceUuid fuel sink memo hbackend hsink hmemo
    constructor
    · intro result shared h
      unfold BatchAwareReplayEngine.runGroups at h
      obtain ⟨own, shared₁, hown, h⟩ := bind_ok.mp h
      obtain ⟨rest, shared₂, hrest, h⟩ := bind_ok.mp h
      cases h
      obtain ⟨world, hrun, rfl⟩ := zoom_ok.mp hown
      obtain ⟨run, halone, hshows⟩ := hthere own world hrun
      obtain ⟨runs, hruns, hrests⟩ := (ih world.sink hshows.filled).1 rest _ hrest
      exact ⟨run :: runs, .cons halone hruns, RunsShow.cons hsink hshows hrests⟩
    · rintro _ (_ | ⟨halone, hruns⟩)
      rename_i run runs
      obtain ⟨own, world, hrun, hshows⟩ := hback run halone
      obtain ⟨rest, shared, hrest, hrests⟩ := (ih world.sink hshows.filled).2 runs hruns
      have hown : onInstance (engine.cacheFactory instanceUuid).2
          ((engine.forInstance instanceUuid).runInstance instanceUuid fuel requests)
          { sink, memo } = .ok own { sink := world.sink, memo := world.memo } :=
        zoom_ok.mpr ⟨world, hrun, rfl⟩
      refine ⟨_, shared, ?_, RunsShow.cons hsink hshows hrests⟩
      unfold BatchAwareReplayEngine.runGroups
      simp only [bind_apply, hown, hrest]
      rfl

/-- A replay sorts its requests first. -/
theorem replay_alone_sorted {engine : Engine C K} {start : C} {instanceUuid : String} {fuel : ℕ}
    {requests requests' : List SimulationRequest}
    (h : SimulationRequest.sorted requests = SimulationRequest.sorted requests') :
    engine.replayAlone start instanceUuid fuel requests =
      engine.replayAlone start instanceUuid fuel requests' := by
  unfold Engine.replayAlone Engine.runInstance
  rw [h]

theorem sorted_sorted (requests : List SimulationRequest) :
    SimulationRequest.sorted (SimulationRequest.sorted requests) =
      SimulationRequest.sorted requests :=
  List.Pairwise.insertionSort_eq
    (StableSort.pairwise_sort_key SimulationRequest.sortKey requests)

/-- The groups of some requests, by their instances. -/
theorem runs_alone_iff (requests : List SimulationRequest) (runs : List InstanceRun) :
    engine.RunsAlone fuel (groupByInstance requests) runs ↔
      List.Forall₂ (fun instanceUuid run ↦
        (engine.forInstance instanceUuid).replayAlone (engine.cacheFactory instanceUuid).2
          instanceUuid fuel (itemsOf SimulationRequest.instanceUuid requests instanceUuid) =
            .ok run) ((groupByInstance requests).map Prod.fst) runs := by
  have hitems := (group_by_instance_grouped requests).items
  have hgroup (group : String × List SimulationRequest)
      (h : group.2 = itemsOf SimulationRequest.instanceUuid (SimulationRequest.sorted requests)
        group.1) :
      (engine.forInstance group.1).replayAlone (engine.cacheFactory group.1).2 group.1 fuel
          group.2 =
        (engine.forInstance group.1).replayAlone (engine.cacheFactory group.1).2 group.1 fuel
          (itemsOf SimulationRequest.instanceUuid requests group.1) := by
    refine replay_alone_sorted ?_
    rw [h, ← sorted_itemsOf, sorted_sorted]
  rw [List.forall₂_map_left_iff]
  constructor
  · intro h
    refine (List.forall₂_and_left _ _).mpr ⟨hitems, h⟩ |>.imp fun group run hrun ↦ ?_
    rw [← hgroup group hrun.1]
    exact hrun.2
  · intro h
    refine (List.forall₂_and_left _ _).mpr ⟨hitems, h⟩ |>.imp fun group run hrun ↦ ?_
    rw [hgroup group hrun.1]
    exact hrun.2

end Batch

section Streaming

theorem StreamResult.calls_requests (result : StreamResult) :
    result.calls.filterMap MetricCall.request? = result.requestMetrics := by
  rw [calls, List.filterMap_append, List.filterMap_map, List.filterMap_map]
  have hrequests : MetricCall.request? ∘ MetricCall.onRequest = some := rfl
  have hiterations : MetricCall.request? ∘ MetricCall.onIteration = fun _ ↦ none := rfl
  rw [hrequests, hiterations, List.filterMap_some, List.filterMap_none, List.append_nil]

theorem StreamResult.calls_iterations (result : StreamResult) :
    result.calls.filterMap MetricCall.iteration? = result.iterationMetrics := by
  rw [calls, List.filterMap_append, List.filterMap_map, List.filterMap_map]
  have hrequests : MetricCall.iteration? ∘ MetricCall.onRequest = fun _ ↦ none := rfl
  have hiterations : MetricCall.iteration? ∘ MetricCall.onIteration = some := rfl
  rw [hrequests, hiterations, List.filterMap_some, List.filterMap_none, List.nil_append]

/-- What the loop over the shards can rely on: the shard serves these requests, in order. -/
structure RequestShard.Serves (text : JsonText) (disk : Disk) (turns : ℕ) (shard : RequestShard)
    (requests : List SimulationRequest) : Prop where
  instance_ne : shard.instanceUuid ≠ ""
  count_eq : shard.requestCount = requests.length
  served : ∃ content, disk.lookup shard.path = some content ∧
    (JsonlRequestSource text shard.path true).Yields { rest := content } requests
  sorted : requests.Pairwise fun a b ↦ a.sortKey ≤ b.sortKey
  distinct : (requests.map SimulationRequest.requestId).Nodup
  own : ∀ request ∈ requests, request.instanceUuid = shard.instanceUuid
  turns_gt : requests.length < turns

namespace StreamingCapacitySweepRunner

variable {runner : StreamingCapacitySweepRunner} {text : JsonText} {clock : Clock}
  {turns fuel : ℕ} {disk : Disk} {sink : CacheEventSink K} {start : K} {capacity : ℕ+}

/-- The run of an instance with its own scheduler, backend and cache. -/
structure RunsAlone (runner : StreamingCapacitySweepRunner) (clock : Clock) (fuel : ℕ)
    (capacity : ℕ+) (instanceUuid : String) (requests : List SimulationRequest)
    (run : InstanceRun) : Prop where
  replays : ∃ config backend metadata cacheDefaults built,
    runner.schedulerFor instanceUuid = .ok config ∧
    runner.latencyResolver.resolve instanceUuid = .ok (backend, metadata) ∧
    runner.defaultCacheFor instanceUuid = .ok cacheDefaults ∧
    buildStreamingPrefixCache capacity instanceUuid cacheDefaults runner.cacheMode = .ok built ∧
    (sweepEngine config backend built.cache EventLogSink runner.cacheMode.timelineMode
      clock).replayAlone built.start instanceUuid fuel requests = .ok run

/-- A sweep of a capacity after some runs. -/
structure Shows (runner : StreamingCapacitySweepRunner) (sink : CacheEventSink K) (start : K)
    (state : SweepState K) (runs : List InstanceRun) : Prop where
  filled : state.resolved.Filled runner.latencyResolver
  sink_eq : state.sink = sink.emitMany (runs.flatMap InstanceRun.cacheEvents) start
  tracks : ∃ iterations, state.aggregator.Tracks runner.cacheMode.timelineMode.value
      runner.cacheMode.timelineMode.ttftGranularity.value
      (runs.flatMap InstanceRun.requestMetrics) iterations ∧
    iterations.map IterationMetrics.forgetMemo =
      (runs.flatMap InstanceRun.iterationMetrics).map IterationMetrics.forgetMemo

/-- The resolver answers as it would at first. -/
theorem latency_backend_for {state : SweepState K}
    (h : state.resolved.Filled runner.latencyResolver) (instanceUuid : String) :
    (∀ backend state', runner.latencyBackendFor instanceUuid state = .ok backend state' →
      ∃ metadata resolved, runner.latencyResolver.resolve instanceUuid =
          .ok (backend, metadata) ∧ resolved.Filled runner.latencyResolver ∧
        state' = { state with resolved }) ∧
    ∀ backend metadata, runner.latencyResolver.resolve instanceUuid = .ok (backend, metadata) →
      ∃ resolved, resolved.Filled runner.latencyResolver ∧
        runner.latencyBackendFor instanceUuid state = .ok backend { state with resolved } := by
  obtain ⟨houtcome, hfilled⟩ :=
    InstanceLatencyBackendResolver.backend_for_resolves h instanceUuid
  constructor
  · intro backend state' hasked
    obtain ⟨resolved, hfound, rfl⟩ := zoom_ok.mp hasked
    rw [hfound] at houtcome hfilled
    obtain ⟨⟨_, metadata⟩, hresolve, rfl⟩ := except_map_ok.mp houtcome.symm
    exact ⟨metadata, resolved, hresolve, hfilled, rfl⟩
  · intro backend metadata hresolve
    rw [hresolve] at houtcome
    cases hasked : runner.latencyResolver.backendFor instanceUuid state.resolved with
    | error e resolved =>
      rw [hasked] at houtcome
      cases houtcome
    | ok found resolved =>
      rw [hasked] at houtcome hfilled
      cases houtcome
      exact ⟨resolved, hfilled, zoom_ok.mpr ⟨resolved, hasked, rfl⟩⟩

/-- The metrics of a run can be handed to the aggregator. -/
theorem Shows.aggregate {state : SweepState K} {runs : List InstanceRun}
    (h : runner.Shows sink start state runs) {run : InstanceRun} {instanceUuid : String}
    {requests : List SimulationRequest}
    (hcomplete : run.Complete runner.cacheMode.timelineMode instanceUuid requests)
    {result : StreamResult} (hrequests : result.requestMetrics = run.requestMetrics)
    (hiterations : result.iterationMetrics.map IterationMetrics.forgetMemo =
      run.iterationMetrics.map IterationMetrics.forgetMemo)
    {resolved : ResolvedBackends} (hfilled : resolved.Filled runner.latencyResolver)
    (hsink : sink.Sequential) :
    ∃ state', aggregate result { state with
        resolved, sink := sink.emitMany run.cacheEvents state.sink } = .ok () state' ∧
      runner.Shows sink start state' (runs ++ [run]) := by
  obtain ⟨iterations, htracks, hforget⟩ := h.tracks
  have hreportable := hcomplete.reportable.of_same hiterations
  rw [← hrequests, ← result.calls_requests, ← result.calls_iterations] at hreportable
  obtain ⟨aggregator, hrecord, htracks'⟩ := htracks.record hreportable
  rw [result.calls_requests, result.calls_iterations] at htracks'
  refine ⟨{
    resolved, sink := sink.emitMany run.cacheEvents state.sink, aggregator }, ?_, ?_⟩
  · simp only [StreamingCapacitySweepRunner.aggregate, bind_apply, get_apply, hrecord]
    rfl
  · refine ⟨hfilled, ?_, iterations ++ result.iterationMetrics, ?_, ?_⟩
    · rw [List.flatMap_append, List.flatMap_singleton, hsink.emit_append, ← h.sink_eq]
    · rw [List.flatMap_append, List.flatMap_singleton, ← hrequests]
      exact htracks'
    · rw [List.flatMap_append, List.flatMap_singleton, List.map_append, List.map_append,
        hforget, hiterations]

theorem check_stats_ok {shard : RequestShard} {requests : List SimulationRequest}
    (h : shard.Serves text disk turns requests) {result : StreamResult} (hclosed : result.Closed)
    (hlength : result.requestMetrics.length = requests.length) :
    checkStats shard result.stats = .ok () := by
  unfold checkStats
  rw [hclosed.request_count_eq, hlength, h.count_eq, hclosed.final_active_eq]
  simp

/-- The replay of a shard on its fresh cache. -/
theorem replay_shard_shows (state : SweepState K) {shard : RequestShard} {requests : List SimulationRequest}
    (h : shard.Serves text disk turns requests) {content : List Char}
    (hyields : (JsonlRequestSource text shard.path true).Yields { rest := content } requests)
    (hsink : sink.Sequential) {config : SchedulerConfig} {backend : BatchLatencyBackend}
    (hbackend : ServingBackend backend) {built : BuiltCache} {timelineMode : TimelineMode} :
    (∀ result state', replayShard text turns fuel
        (sweepEngine config backend built.cache sink timelineMode clock) built.start shard content
        state = .ok result state' →
      ∃ run, (sweepEngine config backend built.cache EventLogSink timelineMode
          clock).replayAlone built.start shard.instanceUuid fuel requests = .ok run ∧
        result.Closed ∧ result.requestMetrics = run.requestMetrics ∧
        result.iterationMetrics.map IterationMetrics.forgetMemo =
          run.iterationMetrics.map IterationMetrics.forgetMemo ∧
        state' = { state with sink := sink.emitMany run.cacheEvents state.sink }) ∧
    ∀ run, (sweepEngine config backend built.cache EventLogSink timelineMode
        clock).replayAlone built.start shard.instanceUuid fuel requests = .ok run →
      ∃ result, replayShard text turns fuel
          (sweepEngine config backend built.cache sink timelineMode clock) built.start shard content
          state = .ok result { state with sink := sink.emitMany run.cacheEvents state.sink } ∧
        result.Closed ∧ result.requestMetrics = run.requestMetrics ∧
        result.iterationMetrics.map IterationMetrics.forgetMemo =
          run.iterationMetrics.map IterationMetrics.forgetMemo := by
  obtain ⟨hthere, hback⟩ := @run_instance_stream_shows_alone _ _ _
    (sweepEngine config backend built.cache sink timelineMode clock) requests built.start
    shard.instanceUuid fuel state.sink ∅ (JsonlRequestSource text shard.path true)
    { rest := content } turns hbackend.memoizable hsink (ShapeMemo.filled_by_empty _) hyields
    h.sorted h.distinct h.own h.turns_gt
  constructor
  · intro result state' hreplay
    obtain ⟨world, hrun, rfl⟩ := zoom_ok.mp hreplay
    obtain ⟨hclosed, run, halone, hshows⟩ := hthere result world hrun
    refine ⟨run, halone, hclosed, hshows.requests_eq, hshows.iterations_eq, ?_⟩
    rw [hshows.sink_eq]
    rfl
  · intro run halone
    obtain ⟨result, world, hrun, hclosed, hshows⟩ := hback run halone
    refine ⟨result, zoom_ok.mpr ⟨world, hrun, ?_⟩, hclosed, hshows.requests_eq,
      hshows.iterations_eq⟩
    rw [hshows.sink_eq]
    rfl

/-- The loop over the shards goes on behind a shard if and only if the instance alone can be
replayed, and then it has been given the run of the instance. -/
theorem run_shard_shows {shard : RequestShard} {requests : List SimulationRequest}
    (hserves : shard.Serves text disk turns requests) (hsink : sink.Sequential)
    (hglobal : ServingBackend runner.latencyResolver.globalBackend) {state : SweepState K}
    {runs : List InstanceRun} (h : runner.Shows sink start state runs) :
    (∀ state', runner.runShard text clock turns fuel disk sink capacity shard state =
        .ok () state' →
      ∃ run, runner.RunsAlone clock fuel capacity shard.instanceUuid requests run ∧
        runner.Shows sink start state' (runs ++ [run])) ∧
    ∀ run, runner.RunsAlone clock fuel capacity shard.instanceUuid requests run →
      ∃ state', runner.runShard text clock turns fuel disk sink capacity shard state =
          .ok () state' ∧
        runner.Shows sink start state' (runs ++ [run]) := by
  obtain ⟨content, hcontent, hyields⟩ := hserves.served
  obtain ⟨hthere, hback⟩ := latency_backend_for h.filled shard.instanceUuid
  unfold runShard
  simp only [hcontent]
  constructor
  · intro state' hrun
    simp only [bind_ok, check_ok] at hrun
    obtain ⟨config, _, ⟨hconfig, rfl⟩, backend, state₁, hasked, cacheDefaults, _,
      ⟨hdefaults, rfl⟩, hrun⟩ := hrun
    obtain ⟨metadata, resolved, hresolve, hfilled, rfl⟩ := hthere backend _ hasked
    cases hbuilt : buildStreamingPrefixCache capacity shard.instanceUuid cacheDefaults
        runner.cacheMode with
    | error e =>
      rw [hbuilt] at hrun
      cases hrun
    | ok built =>
      rw [hbuilt] at hrun
      simp only [bind_ok, check_ok] at hrun
      obtain ⟨result, state₂, hreplay, _, state₃, haggregate, -, rfl⟩ := hrun
      obtain ⟨run, halone, -, hrequests, hiterations, rfl⟩ := (replay_shard_shows _ hserves
        hyields hsink (resolve_shipped hglobal hresolve)).1 result state₂ hreplay
      have hcomplete := replay_alone_complete hserves.distinct hserves.own hserves.instance_ne halone
      obtain ⟨state', haggregate', hshows⟩ :=
        h.aggregate hcomplete hrequests hiterations hfilled hsink
      rw [haggregate] at haggregate'
      cases haggregate'
      exact ⟨run, ⟨config, backend, metadata, cacheDefaults, built,
        except_map_error_ok.mp hconfig, hresolve, except_map_error_ok.mp hdefaults, hbuilt,
        halone⟩, hshows⟩
  · rintro run ⟨config, backend, metadata, cacheDefaults, built, hconfig, hresolve, hdefaults,
      hbuilt, halone⟩
    obtain ⟨resolved, hfilled, hasked⟩ := hback backend metadata hresolve
    obtain ⟨result, hreplay, hclosed, hrequests, hiterations⟩ :=
      (replay_shard_shows { state with resolved } hserves hyields hsink
        (resolve_shipped hglobal hresolve)).2 run halone
    have hcomplete := replay_alone_complete hserves.distinct hserves.own hserves.instance_ne halone
    obtain ⟨state', haggregate, hshows⟩ :=
      h.aggregate hcomplete hrequests hiterations hfilled hsink
    have hstats := check_stats_ok hserves hclosed
      ((congrArg List.length hrequests).trans hcomplete.length_eq)
    refine ⟨state', ?_, hshows⟩
    simp only [bind_apply, hconfig, hdefaults, Except.mapError, check_ok_apply, hasked, hbuilt,
      hreplay, haggregate, hstats]

/-- The runs of some instances, each replayed on its own. -/
def AllRunAlone (runner : StreamingCapacitySweepRunner) (clock : Clock) (fuel : ℕ)
    (capacity : ℕ+) (requestsOf : String → List SimulationRequest) :
    List String → List InstanceRun → Prop :=
  List.Forall₂ fun instanceUuid run ↦
    runner.RunsAlone clock fuel capacity instanceUuid (requestsOf instanceUuid) run

variable (clock fuel capacity) in
theorem run_shards_shows {requestsOf : String → List SimulationRequest}
    {shards : List RequestShard}
    (hserves : ∀ shard ∈ shards, shard.Serves text disk turns (requestsOf shard.instanceUuid))
    (hsink : sink.Sequential)
    (hglobal : ServingBackend runner.latencyResolver.globalBackend) {state : SweepState K}
    {done : List InstanceRun} (h : runner.Shows sink start state done) :
    (∀ state', runner.runShards text clock turns fuel disk sink capacity shards state =
        .ok () state' →
      ∃ runs, runner.AllRunAlone clock fuel capacity requestsOf
          (shards.map RequestShard.instanceUuid) runs ∧
        runner.Shows sink start state' (done ++ runs)) ∧
    ∀ runs, runner.AllRunAlone clock fuel capacity requestsOf
        (shards.map RequestShard.instanceUuid) runs →
      ∃ state', runner.runShards text clock turns fuel disk sink capacity shards state =
          .ok () state' ∧
        runner.Shows sink start state' (done ++ runs) := by
  induction shards generalizing state done with
  | nil =>
    constructor
    · intro state' hrun
      cases hrun
      exact ⟨[], .nil, (List.append_nil done).symm ▸ h⟩
    · rintro _ ⟨⟩
      exact ⟨state, rfl, (List.append_nil done).symm ▸ h⟩
  | cons shard shards ih =>
    obtain ⟨hshard, hshards⟩ := List.forall_mem_cons.mp hserves
    obtain ⟨hthere, hback⟩ := @run_shard_shows K runner text clock turns fuel disk sink start
      capacity shard _ hshard hsink hglobal state done h
    constructor
    · intro state' hrun
      obtain ⟨_, state₁, hfirst, hrun⟩ := bind_ok.mp hrun
      obtain ⟨run, halone, hshows⟩ := hthere state₁ hfirst
      obtain ⟨runs, hruns, hall⟩ := (ih hshards hshows).1 state' hrun
      refine ⟨run :: runs, .cons halone hruns, ?_⟩
      rwa [List.append_cons]
    · rintro _ (_ | ⟨halone, hruns⟩)
      rename_i run runs
      obtain ⟨state₁, hfirst, hshows⟩ := hback run halone
      obtain ⟨state', hrest, hall⟩ := (ih hshards hshows).2 runs hruns
      refine ⟨state', ?_, (List.append_cons done run runs).symm ▸ hall⟩
      rw [runShards, bind_apply, hfirst]
      exact hrest

end StreamingCapacitySweepRunner

end Streaming

end InferTwin
