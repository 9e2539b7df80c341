import InferTwin.Properties.SweepRuns

namespace InferTwin

open Effect

variable {K : Type}

/-- A fresh consumer of cache events, which counts all it is given. -/
structure CacheEventSink.Counts (sink : CacheEventSink K) (start : K) : Prop where
  sequential : sink.Sequential
  fresh : (sink.snapshotStats start).totalEvents = 0

theorem CacheEventSink.Counts.total {sink : CacheEventSink K} {start : K}
    (h : sink.Counts start) (events : List CacheEvent) :
    (sink.snapshotStats (sink.emitMany events start)).totalEvents = events.length := by
  rw [h.sequential.counts, h.fresh, Nat.zero_add]

theorem stats_only_counts : StatsOnlyCacheEventSink.Counts {} := ⟨stats_only_sequential, rfl⟩

theorem csv_writer_counts : CsvCacheEventWriter.Counts ([], {}) := ⟨csv_writer_sequential, rfl⟩

/-- What a whole sweep is put together from: for each capacity its rows, and a file of the cache
events where one is written. -/
inductive Composes (timelineMode : TimelineMode) (written : List ℕ+)
    (Runs : ℕ+ → List InstanceRun → Prop) :
    List ℕ+ → List CapacitySweepRow → List (ℕ+ × List CacheEvent) → Prop
  | nil : Composes timelineMode written Runs [] [] []
  | write {capacity capacities runs rows rest files} (hwritten : capacity ∈ written)
      (hruns : Runs capacity runs) (hrows : runsRows capacity timelineMode runs = .ok rows)
      (hrest : Composes timelineMode written Runs capacities rest files) :
      Composes timelineMode written Runs (capacity :: capacities) (rows ++ rest)
        ((capacity, runs.flatMap InstanceRun.cacheEvents) :: files)
  | skip {capacity capacities runs rows rest files} (hwritten : capacity ∉ written)
      (hruns : Runs capacity runs) (hrows : runsRows capacity timelineMode runs = .ok rows)
      (hrest : Composes timelineMode written Runs capacities rest files) :
      Composes timelineMode written Runs (capacity :: capacities) (rows ++ rest) files

section Streaming

namespace StreamingCapacitySweepRunner

variable {runner : StreamingCapacitySweepRunner} {text : JsonText} {clock : Clock}
  {turns fuel : ℕ} {disk : Disk} {sink : CacheEventSink K} {start : K} {capacity : ℕ+}
  {requestsOf : String → List SimulationRequest} {shards : List RequestShard}
  {resolved : ResolvedBackends}

/-- What a streaming sweep finds once the shards are written. -/
structure Ready (runner : StreamingCapacitySweepRunner) (text : JsonText) (disk : Disk)
    (turns : ℕ) (requestsOf : String → List SimulationRequest) (shards : List RequestShard) :
    Prop where
  serves : ∀ shard ∈ shards, shard.Serves text disk turns (requestsOf shard.instanceUuid)
  shipped : ServingBackend runner.latencyResolver.globalBackend

theorem RunsAlone.instance_eq {instanceUuid : String} {requests : List SimulationRequest}
    {run : InstanceRun} (h : runner.RunsAlone clock fuel capacity instanceUuid requests run) :
    run.instanceUuid = instanceUuid := by
  obtain ⟨_, _, _, _, _, -, -, -, -, halone⟩ := h.replays
  exact replay_alone_instance halone

theorem RunsAlone.complete {instanceUuid : String} {requests : List SimulationRequest}
    (hne : instanceUuid ≠ "") (hd : (requests.map SimulationRequest.requestId).Nodup)
    (hown : ∀ request ∈ requests, request.instanceUuid = instanceUuid) {run : InstanceRun}
    (h : runner.RunsAlone clock fuel capacity instanceUuid requests run) :
    run.Complete runner.cacheMode.timelineMode instanceUuid requests := by
  obtain ⟨_, _, _, _, _, -, -, -, -, halone⟩ := h.replays
  exact replay_alone_complete hd hown hne halone

theorem AllRunAlone.complete (h : runner.Ready text disk turns requestsOf shards)
    {runs : List InstanceRun} (hruns : runner.AllRunAlone clock fuel capacity requestsOf
      (shards.map RequestShard.instanceUuid) runs) :
    AllReportable runner.cacheMode.timelineMode runs ∧
      runs.map InstanceRun.instanceUuid = shards.map RequestShard.instanceUuid := by
  have hserves := h.serves
  clear h
  induction shards generalizing runs with
  | nil =>
    cases hruns
    exact ⟨fun run hrun ↦ absurd hrun List.not_mem_nil, rfl⟩
  | cons shard shards ih =>
    obtain ⟨hshard, hshards⟩ := List.forall_mem_cons.mp hserves
    obtain _ | ⟨hrun, hruns⟩ := hruns
    obtain ⟨hreportable, hinstances⟩ := ih hruns hshards
    have hcomplete := hrun.complete hshard.instance_ne hshard.distinct hshard.own
    exact ⟨List.forall_mem_cons.mpr ⟨hcomplete.reportable, hreportable⟩,
      congrArg₂ List.cons hcomplete.instance_eq hinstances⟩

variable (clock fuel capacity) in
/-- A capacity of a streaming sweep. -/
theorem run_capacity_composes (h : runner.Ready text disk turns requestsOf shards)
    (hsink : sink.Counts start) (hfilled : resolved.Filled runner.latencyResolver) :
    (∀ rows k resolved', runner.runCapacity text clock turns fuel disk sink start capacity shards
        resolved = .ok (rows, k) resolved' →
      resolved'.Filled runner.latencyResolver ∧
      ∃ runs, runner.AllRunAlone clock fuel capacity requestsOf
        (shards.map RequestShard.instanceUuid) runs ∧
        runsRows capacity runner.cacheMode.timelineMode runs = .ok rows ∧
        k = sink.emitMany (runs.flatMap InstanceRun.cacheEvents) start) ∧
    ∀ runs, runner.AllRunAlone clock fuel capacity requestsOf
        (shards.map RequestShard.instanceUuid) runs →
      ∃ rows resolved', runner.runCapacity text clock turns fuel disk sink start capacity shards
          resolved =
            .ok (rows, sink.emitMany (runs.flatMap InstanceRun.cacheEvents) start) resolved' ∧
        resolved'.Filled runner.latencyResolver ∧
        runsRows capacity runner.cacheMode.timelineMode runs = .ok rows := by
  have hstart : runner.Shows sink start {
      resolved, sink := start
      aggregator := CapacitySweepStreamingMetricAggregator.create
        runner.cacheMode.timelineMode.value
        runner.cacheMode.timelineMode.ttftGranularity.value } [] :=
    ⟨hfilled, (hsink.sequential.emit_nil start).symm, [],
      CapacitySweepStreamingMetricAggregator.tracks_create _ _, rfl⟩
  obtain ⟨hthere, hback⟩ := run_shards_shows clock fuel capacity h.serves hsink.sequential
    h.shipped hstart
  -- the report on a state that shows some runs
  have hreport {state : SweepState K} {runs : List InstanceRun}
      (hruns : runner.AllRunAlone clock fuel capacity requestsOf
        (shards.map RequestShard.instanceUuid) runs)
      (hshows : runner.Shows sink start state runs) :
      ∃ rows, state.aggregator.buildRows (capacity : ℕ) (sink.snapshotStats state.sink) =
          .ok rows ∧
        runsRows capacity runner.cacheMode.timelineMode runs = .ok rows := by
    obtain ⟨iterations, htracks, hforget⟩ := hshows.tracks
    have hreportable := (AllRunAlone.complete h hruns).1.flat
    obtain ⟨rows, hrows⟩ := (AllRunAlone.complete h hruns).1.runs_rows_ok capacity
    refine ⟨rows, ?_, hrows⟩
    rw [htracks.build_rows (hreportable.of_same hforget), ← hrows, runsRows]
    refine (capacity_rows_congr hreportable .rfl (hforget ▸ .rfl) ?_ _).symm
    rw [hshows.sink_eq, hsink.total]
  unfold runCapacity
  dsimp only
  constructor
  · intro rows k resolved' hrun
    cases hshards : runner.runShards text clock turns fuel disk sink capacity shards {
        resolved, sink := start
        aggregator := CapacitySweepStreamingMetricAggregator.create
          runner.cacheMode.timelineMode.value
          runner.cacheMode.timelineMode.ttftGranularity.value } with
    | error e state =>
      rw [hshards] at hrun
      cases hrun
    | ok u state =>
      obtain ⟨runs, hruns, hshows⟩ := hthere state hshards
      rw [List.nil_append] at hshows
      obtain ⟨built, hbuild, hrows⟩ := hreport hruns hshows
      rw [hshards] at hrun
      simp only [hbuild] at hrun
      cases hrun
      exact ⟨hshows.filled, runs, hruns, hrows, hshows.sink_eq⟩
  · intro runs hruns
    obtain ⟨state, hshards, hshows⟩ := hback runs hruns
    rw [List.nil_append] at hshows
    obtain ⟨rows, hbuild, hrows⟩ := hreport hruns hshows
    refine ⟨rows, state.resolved, ?_, hshows.filled, hrows⟩
    rw [hshows.sink_eq] at hbuild
    simp only [hshards, hshows.sink_eq, hbuild]

variable (clock fuel) in
/-- The capacities of a streaming sweep return if and only if each instance can be replayed
alone at each capacity, and then their rows are put together from these runs. -/
theorem run_capacities_composes (h : runner.Ready text disk turns requestsOf shards)
    (capacities : List ℕ+) (hfilled : resolved.Filled runner.latencyResolver) :
    (∀ rows files resolved', runner.runCapacities text clock turns fuel disk shards capacities
        resolved = .ok (rows, files) resolved' →
      Composes runner.cacheMode.timelineMode runner.sweepConfig.cacheEventCapacities
        (fun capacity runs ↦ runner.AllRunAlone clock fuel capacity requestsOf
        (shards.map RequestShard.instanceUuid) runs)
        capacities rows files) ∧
    ∀ rows files, Composes runner.cacheMode.timelineMode runner.sweepConfig.cacheEventCapacities
        (fun capacity runs ↦ runner.AllRunAlone clock fuel capacity requestsOf
        (shards.map RequestShard.instanceUuid) runs)
        capacities rows files →
      ∃ resolved', runner.runCapacities text clock turns fuel disk shards capacities resolved =
        .ok (rows, files) resolved' := by
  induction capacities generalizing resolved with
  | nil =>
    constructor
    · intro rows files resolved' hrun
      cases hrun
      exact .nil
    · rintro _ _ ⟨⟩
      exact ⟨resolved, rfl⟩
  | cons capacity capacities ih =>
    unfold runCapacities
    by_cases hwritten : capacity ∈ runner.sweepConfig.cacheEventCapacities
    · obtain ⟨hthere, hback⟩ := run_capacity_composes clock fuel capacity h csv_writer_counts
        hfilled
      rw [if_pos hwritten]
      constructor
      · intro rows files resolved' hrun
        simp only [bind_ok] at hrun
        obtain ⟨⟨own, k⟩, resolved₁, hown, ⟨rest, others⟩, resolved₂, hrest, hrun⟩ := hrun
        cases hrun
        obtain ⟨hfilled₁, runs, hruns, hrows, rfl⟩ := hthere own k resolved₁ hown
        exact .write hwritten hruns hrows ((ih hfilled₁).1 rest others _ hrest)
      · rintro _ _ (_ | ⟨_, hruns, hrows, hrest⟩ | ⟨habsent, _, _, _⟩)
        · obtain ⟨own, resolved₁, hown, hfilled₁, hrows'⟩ := hback _ hruns
          obtain ⟨resolved', hothers⟩ := (ih hfilled₁).2 _ _ hrest
          cases hrows.symm.trans hrows'
          refine ⟨resolved', ?_⟩
          simp only [bind_apply, hown, hothers]
          rfl
        · exact absurd hwritten habsent
    · obtain ⟨hthere, hback⟩ := run_capacity_composes clock fuel capacity h stats_only_counts
        hfilled
      rw [if_neg hwritten]
      constructor
      · intro rows files resolved' hrun
        simp only [bind_ok] at hrun
        obtain ⟨⟨own, k⟩, resolved₁, hown, ⟨rest, others⟩, resolved₂, hrest, hrun⟩ := hrun
        cases hrun
        obtain ⟨hfilled₁, runs, hruns, hrows, -⟩ := hthere own k resolved₁ hown
        exact .skip hwritten hruns hrows ((ih hfilled₁).1 rest others _ hrest)
      · rintro _ _ (_ | ⟨hpresent, _, _, _⟩ | ⟨_, hruns, hrows, hrest⟩)
        · exact absurd hpresent hwritten
        · obtain ⟨own, resolved₁, hown, hfilled₁, hrows'⟩ := hback _ hruns
          obtain ⟨resolved', hothers⟩ := (ih hfilled₁).2 _ _ hrest
          cases hrows.symm.trans hrows'
          refine ⟨resolved', ?_⟩
          simp only [bind_apply, hown, hothers]
          rfl

end StreamingCapacitySweepRunner

end Streaming

section Batch

namespace CapacitySweepRunner

variable {runner : CapacitySweepRunner} {clock : Clock} {fuel : ℕ} {sink : CacheEventSink K}
  {start : K} {capacity : ℕ+} {requests : List SimulationRequest} {config : SchedulerConfig}
  {latencyBackend : BatchLatencyBackend}

/-- The run of an instance on a fresh HBM cache. -/
def RunsAlone (config : SchedulerConfig) (latencyBackend : BatchLatencyBackend) (clock : Clock)
    (fuel : ℕ) (capacity : ℕ+) (instanceUuid : String) (requests : List SimulationRequest)
    (run : InstanceRun) : Prop :=
  (sweepEngine config latencyBackend (hbmCache capacity).cache EventLogSink .legacy
    clock).replayAlone (hbmCache capacity).start instanceUuid fuel requests = .ok run

/-- The runs of the instances, in the order in which they appear. -/
def AllRunAlone (config : SchedulerConfig) (latencyBackend : BatchLatencyBackend) (clock : Clock)
    (fuel : ℕ) (requests : List SimulationRequest) (capacity : ℕ+) : List InstanceRun → Prop :=
  List.Forall₂ (fun instanceUuid run ↦ RunsAlone config latencyBackend clock fuel capacity
    instanceUuid (itemsOf SimulationRequest.instanceUuid requests instanceUuid) run)
    ((groupByInstance requests).map Prod.fst)

/-- Every group is one of an instance with requests. -/
theorem group_instances {instanceUuid : String} :
    instanceUuid ∈ (groupByInstance requests).map Prod.fst ↔
      ∃ request ∈ requests, request.instanceUuid = instanceUuid := by
  have hperm := SimulationRequest.sorted_perm requests
  constructor
  · have hkeys : ∀ sorted : List SimulationRequest, ∀ key ∈ (sorted.foldl
        (fun groups request ↦ appendToGroup request groups) []).map Prod.fst,
        ∃ request ∈ sorted, request.instanceUuid = key := by
      intro sorted
      induction sorted using List.reverseRecOn with
      | nil => simp
      | append_singleton done request ih =>
        intro key hkey
        rw [List.foldl_concat, append_to_group_keys] at hkey
        have hlast : request ∈ done ++ [request] := by simp
        have hdone (h : ∃ other ∈ done, other.instanceUuid = key) :
            ∃ other ∈ done ++ [request], other.instanceUuid = key := by
          obtain ⟨other, hother, heq⟩ := h
          exact ⟨other, List.mem_append_left _ hother, heq⟩
        split_ifs at hkey
        · exact hdone (ih key hkey)
        · rcases List.mem_append.mp hkey with hkey | hkey
          · exact hdone (ih key hkey)
          · exact ⟨request, hlast, (List.mem_singleton.mp hkey).symm⟩
    intro hkey
    obtain ⟨request, hrequest, heq⟩ := hkeys _ instanceUuid hkey
    exact ⟨request, hperm.mem_iff.mp hrequest, heq⟩
  · rintro ⟨request, hrequest, rfl⟩
    exact (group_by_instance_grouped requests).keys request (hperm.mem_iff.mpr hrequest)

/-- What the sweep can rely on. -/
structure Ready (runner : CapacitySweepRunner) (config : SchedulerConfig)
    (latencyBackend : BatchLatencyBackend) (requests : List SimulationRequest) : Prop where
  backend_eq : buildBatchLatencyBackend runner.config = .ok latencyBackend
  config_eq : buildSchedulerConfigFromConfig runner.config = .ok config
  instances : ∀ request ∈ requests, request.instanceUuid ≠ ""
  distinct : ∀ instanceUuid,
    ((itemsOf SimulationRequest.instanceUuid requests instanceUuid).map
      SimulationRequest.requestId).Nodup

theorem AllRunAlone.reportable (h : runner.Ready config latencyBackend requests)
    {runs : List InstanceRun}
    (hruns : AllRunAlone config latencyBackend clock fuel requests capacity runs) :
    AllReportable .legacy runs := by
  have hinstances : ∀ key ∈ (groupByInstance requests).map Prod.fst, key ≠ "" := by
    intro key hkey
    obtain ⟨request, hrequest, rfl⟩ := group_instances.mp hkey
    exact h.instances request hrequest
  unfold AllRunAlone at hruns
  generalize (groupByInstance requests).map Prod.fst = keys at hruns hinstances
  induction hruns with
  | nil => exact fun run hrun ↦ absurd hrun List.not_mem_nil
  | cons hrun _ ih =>
    obtain ⟨hkey, hkeys⟩ := List.forall_mem_cons.mp hinstances
    have hcomplete := replay_alone_complete (h.distinct _)
      (fun request hrequest ↦ of_decide_eq_true (List.mem_filter.mp hrequest).2) hkey hrun
    exact List.forall_mem_cons.mpr ⟨hcomplete.reportable, ih hkeys⟩

variable (clock fuel capacity) in
/-- A capacity of a sweep. -/
theorem run_capacity_composes (h : runner.Ready config latencyBackend requests)
    (hsink : sink.Counts start) :
    (∀ rows k, runner.runCapacity clock fuel sink start capacity requests = .ok (rows, k) →
      ∃ runs, AllRunAlone config latencyBackend clock fuel requests capacity runs ∧
        runsRows capacity .legacy runs = .ok rows ∧
        k = sink.emitMany (runs.flatMap InstanceRun.cacheEvents) start) ∧
    ∀ runs, AllRunAlone config latencyBackend clock fuel requests capacity runs →
      ∃ rows, runner.runCapacity clock fuel sink start capacity requests =
          .ok (rows, sink.emitMany (runs.flatMap InstanceRun.cacheEvents) start) ∧
        runsRows capacity .legacy runs = .ok rows := by
  obtain ⟨engine, hengine, hfor⟩ : ∃ engine, runner.engineFor clock sink capacity = .ok engine ∧
      engine = {
        config, latencyBackend, cacheFactory := fun _ ↦ (HBMCache capacity capacity.pos, {})
        sink, materializationPolicy := defaultMaterializationPolicy .legacy
        timelineMode := .legacy, clock, supports_chunks := fun h ↦ absurd h (by decide) } := by
    refine ⟨_, ?_, rfl⟩
    unfold engineFor
    rw [h.backend_eq, h.config_eq]
    rfl
  have hmemoizable := (build_batch_latency_backend_shipped h.backend_eq).memoizable
  have hbackend : engine.latencyBackend = latencyBackend := by rw [hfor]
  have hengineSink : engine.sink = sink := by rw [hfor]
  obtain ⟨hthere, hback⟩ := run_groups_shows engine fuel
    (hbackend ▸ hmemoizable) (hengineSink ▸ hsink.sequential) (groupByInstance requests) start
    (ShapeMemo.filled_by_empty _)
  have hkeys (runs : List InstanceRun) : engine.RunsAlone fuel (groupByInstance requests) runs ↔
      AllRunAlone config latencyBackend clock fuel requests capacity runs := by
    rw [runs_alone_iff, hfor]
    rfl
  -- the report on the metrics in the order of a result
  have hreport {runs : List InstanceRun} {result : InstanceResult} {shared : Shared K}
      (hruns : AllRunAlone config latencyBackend clock fuel requests capacity runs)
      (hshows : RunsShow runs engine start result shared) :
      buildCapacityRows (capacity : ℕ)
          (result.requestMetrics.insertionSort fun a b ↦ a.sortKey ≤ b.sortKey)
          (result.iterationMetrics.insertionSort fun a b ↦ a.sortKey ≤ b.sortKey)
          (engine.sink.snapshotStats shared.sink) TimelineMode.legacy.value
          TtftGranularity.iteration.value =
        runsRows capacity .legacy runs := by
    have hreportable := (AllRunAlone.reportable h hruns).flat
    refine (capacity_rows_congr hreportable ?_ ?_ ?_ _).symm
    · rw [← hshows.requests_eq]
      exact (List.perm_insertionSort _ _).symm
    · rw [← hshows.iterations_eq]
      exact ((List.perm_insertionSort _ _).symm).map _
    · rw [hshows.sink_eq, hengineSink, hsink.total]
  unfold runCapacity
  rw [hengine]
  simp only [Except.mapError, except_ok_bind, BatchAwareReplayEngine.run, bind_apply]
  constructor
  · intro rows k hrun
    cases hgroups : engine.runGroups fuel (groupByInstance requests) { sink := start, memo := ∅ } with
    | error e shared =>
      rw [hgroups] at hrun
      cases hrun
    | ok result shared =>
      obtain ⟨runs, hruns, hshows⟩ := hthere result shared hgroups
      have hruns := (hkeys runs).mp hruns
      simp only [hgroups, get_apply, pure_apply, hreport hruns hshows] at hrun
      obtain ⟨built, hbuilt, hrun⟩ := except_bind_ok.mp hrun
      cases hrun
      refine ⟨runs, hruns, except_map_error_ok.mp hbuilt, ?_⟩
      rw [hshows.sink_eq, hengineSink]
  · intro runs hruns
    obtain ⟨result, shared, hgroups, hshows⟩ := hback runs ((hkeys runs).mpr hruns)
    obtain ⟨rows, hrows⟩ := (AllRunAlone.reportable h hruns).runs_rows_ok capacity
    refine ⟨rows, ?_, hrows⟩
    simp only [hgroups, get_apply, pure_apply, hreport hruns hshows, hrows]
    rw [hshows.sink_eq, hengineSink]
    rfl

variable (clock fuel) in
/-- The capacities of a sweep return if and only if each instance can be replayed alone at each
capacity, and then their rows are put together from these runs. -/
theorem run_capacities_composes (h : runner.Ready config latencyBackend requests)
    (capacities : List ℕ+) (rows : List CapacitySweepRow) (files : List (ℕ+ × List CacheEvent)) :
    runner.runCapacities clock fuel requests capacities = .ok (rows, files) ↔
      Composes .legacy runner.sweepConfig.cacheEventCapacities
        (AllRunAlone config latencyBackend clock fuel requests) capacities rows files := by
  induction capacities generalizing rows files with
  | nil =>
    constructor
    · intro hrun
      cases hrun
      exact .nil
    · rintro ⟨⟩
      rfl
  | cons capacity capacities ih =>
    unfold runCapacities
    by_cases hwritten : capacity ∈ runner.sweepConfig.cacheEventCapacities
    · obtain ⟨hthere, hback⟩ := run_capacity_composes clock fuel capacity h csv_writer_counts
      rw [if_pos hwritten]
      constructor
      · intro hrun
        simp only [except_bind_ok] at hrun
        obtain ⟨⟨own, k⟩, hown, ⟨rest, others⟩, hrest, hrun⟩ := hrun
        cases hrun
        obtain ⟨runs, hruns, hrows, rfl⟩ := hthere own k hown
        exact .write hwritten hruns hrows ((ih rest others).mp hrest)
      · rintro (_ | ⟨_, hruns, hrows, hrest⟩ | ⟨habsent, _, _, _⟩)
        · obtain ⟨own, hown, hrows'⟩ := hback _ hruns
          cases hrows.symm.trans hrows'
          simp only [hown, (ih _ _).mpr hrest]
          rfl
        · exact absurd hwritten habsent
    · obtain ⟨hthere, hback⟩ := run_capacity_composes clock fuel capacity h stats_only_counts
      rw [if_neg hwritten]
      constructor
      · intro hrun
        simp only [except_bind_ok] at hrun
        obtain ⟨⟨own, k⟩, hown, ⟨rest, others⟩, hrest, hrun⟩ := hrun
        cases hrun
        obtain ⟨runs, hruns, hrows, -⟩ := hthere own k hown
        exact .skip hwritten hruns hrows ((ih rest others).mp hrest)
      · rintro (_ | ⟨hpresent, _, _, _⟩ | ⟨_, hruns, hrows, hrest⟩)
        · exact absurd hpresent hwritten
        · obtain ⟨own, hown, hrows'⟩ := hback _ hruns
          cases hrows.symm.trans hrows'
          simp only [hown, (ih _ _).mpr hrest]
          rfl

end CapacitySweepRunner

end Batch

end InferTwin
