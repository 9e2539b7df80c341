import InferTwin.Properties.Returns
import InferTwin.Properties.SweepTotals

namespace InferTwin

open Effect

/-- A cache that was just built holds nothing. -/
theorem build_streaming_prefix_cache_fresh {capacity : ℕ+} {instanceUuid : String}
    {cacheDefaults : Option ModelCacheDefaults} {mode : CacheMode} {built : BuiltCache}
    (h : buildStreamingPrefixCache capacity instanceUuid cacheDefaults mode = .ok built) :
    FreshCache built.C built.cache built.start := by
  unfold buildStreamingPrefixCache at h
  split_ifs at h
  cases mode with
  | hbmLru =>
    cases h
    exact .hbm _ capacity.pos
  | hbmDdrLru | progressive =>
    cases hddr : requireDdrDefaults instanceUuid cacheDefaults with
    | error error =>
      simp only [hddr] at h
      cases h
    | ok blocks =>
      simp only [hddr] at h
      cases h
      exact .tiered _

/-- A sweep can serve the request on any instance that it can make the parts of. -/
structure SimulationRequest.Sweepable (runner : StreamingCapacitySweepRunner)
    (bytesPerToken : ℕ) (request : SimulationRequest) : Prop extends request.Accountable where
  start_nonneg : 0 ≤ request.startTimeMs
  bytes : ∀ block ∈ request.promptBlocks, block.sizeBytes = block.tokenCount * bytesPerToken
  block_size : runner.cacheMode.timelineMode = .progressive → request.promptBlocks ≠ [] →
    request.effectiveBlockSize.getD 0 ≠ 0
  holds : ∀ config, runner.schedulerFor request.instanceUuid = .ok config →
    config.enableChunkedPrefill = true ∨ request.promptTokens ≤ config.maxNumBatchedTokens

namespace StreamingCapacitySweepRunner

variable {runner : StreamingCapacitySweepRunner} {capacity : ℕ+} {instanceUuid : String}
  {requests : List SimulationRequest} {bytesPerToken fuel : ℕ}

/-- The configuration has a scheduler, a backend and a cache for the instance. -/
def Equips (runner : StreamingCapacitySweepRunner) (capacity : ℕ+) (instanceUuid : String) :
    Prop :=
  ∃ config backend metadata cacheDefaults built,
    runner.schedulerFor instanceUuid = .ok config ∧
    runner.latencyResolver.resolve instanceUuid = .ok (backend, metadata) ∧
    runner.defaultCacheFor instanceUuid = .ok cacheDefaults ∧
    buildStreamingPrefixCache capacity instanceUuid cacheDefaults runner.cacheMode = .ok built

/-- Tokens take bytes to load, or a backend answers whatever it is asked. -/
def Loads (runner : StreamingCapacitySweepRunner) (bytesPerToken : ℕ) : Prop :=
  0 < bytesPerToken ∨
    ∀ instanceUuid backend metadata,
      runner.latencyResolver.resolve instanceUuid = .ok (backend, metadata) →
        ∀ shape, ∃ latency, backend.estimateIteration shape = .ok latency

theorem RunsAlone.equips {clock : Clock} {run : InstanceRun}
    (h : runner.RunsAlone clock fuel capacity instanceUuid requests run) :
    runner.Equips capacity instanceUuid := by
  obtain ⟨config, backend, metadata, cacheDefaults, built, hconfig, hresolve, hdefaults, hbuilt,
    -⟩ := h.replays
  exact ⟨config, backend, metadata, cacheDefaults, built, hconfig, hresolve, hdefaults, hbuilt⟩

/-- With these parts the instance is replayed to the end. -/
theorem Equips.runs_alone (h : runner.Equips capacity instanceUuid)
    (hglobal : ServingBackend runner.latencyResolver.globalBackend)
    (hloads : runner.Loads bytesPerToken) (hne : instanceUuid ≠ "")
    (hd : (requests.map SimulationRequest.requestId).Nodup)
    (hnamed : ∀ request ∈ requests,
      request.requestId ≠ "" ∧ request.instanceUuid = instanceUuid)
    (hr : ∀ request ∈ requests, request.Sweepable runner bytesPerToken)
    (hfuel : replayFuel requests ≤ fuel) :
    ∃ run, runner.RunsAlone .exact fuel capacity instanceUuid requests run := by
  obtain ⟨config, backend, metadata, cacheDefaults, built, hconfig, hresolve, hdefaults,
    hbuilt⟩ := h
  have hfresh := build_streaming_prefix_cache_fresh hbuilt
  obtain ⟨good, hserves, hgood⟩ := hfresh.serves
  have hbackend := resolve_shipped hglobal hresolve
  have he : ((sweepEngine config backend built.cache EventLogSink runner.cacheMode.timelineMode
      .exact).withSink EventLogSink).Reliable bytesPerToken good :=
    ⟨rfl, rfl, hbackend, hloads.imp_right fun hestimates ↦ hestimates _ _ _ hresolve, hserves,
      hfresh.repository.splits⟩
  have hservable : ∀ request ∈ requests, request.Servable ((sweepEngine config backend built.cache
      EventLogSink runner.cacheMode.timelineMode .exact).withSink EventLogSink) instanceUuid
        bytesPerToken := by
    intro request hrequest
    obtain ⟨hid, hinstance⟩ := hnamed request hrequest
    have hsweepable := hr request hrequest
    exact ⟨⟨hsweepable.start_nonneg, hid, hinstance⟩, hsweepable.toAccountable, hsweepable.bytes,
      hsweepable.block_size, hsweepable.holds config (hinstance ▸ hconfig)⟩
  have hstart : World.Sound ((sweepEngine config backend built.cache EventLogSink
      runner.cacheMode.timelineMode .exact).withSink EventLogSink) good
        { cache := built.start, sink := [], memo := ∅ } :=
    ⟨hgood, ShapeMemo.filled_by_empty _⟩
  obtain ⟨result, world, hrun, -, -⟩ :=
    run_instance_returns he (fun _ ↦ hne) hd hservable hfuel rfl hstart
  have halone : (sweepEngine config backend built.cache EventLogSink runner.cacheMode.timelineMode
      .exact).replayAlone built.start instanceUuid fuel requests = .ok {
        instanceUuid
        requestMetrics := result.requestMetrics
        iterationMetrics := result.iterationMetrics
        cacheEvents := world.sink } := by
    rw [Engine.replayAlone, hrun]
  exact ⟨_, ⟨config, backend, metadata, cacheDefaults, built, hconfig, hresolve, hdefaults,
    hbuilt, halone⟩⟩

theorem Uniform.equips (h : runner.Uniform) (hne : instanceUuid ≠ "") (capacity : ℕ+) :
    runner.Equips capacity instanceUuid := by
  obtain ⟨hscheduler, hdefaults, hcache, metadata, hresolve⟩ := h.parts hne capacity
  exact ⟨_, _, metadata, _, _, hscheduler, hresolve, hdefaults, hcache⟩

end StreamingCapacitySweepRunner

section Sweeps

variable {sha256 : List UInt8 → List UInt8} {text : JsonText}
  {buildRequest : TraceRecord → Except PromptTooLongError SimulationRequest}
  {records : List TraceRecord} {turns fuel bytesPerToken : ℕ}
  {loadYaml : String → Except ConfigError Json} {config : List (String × Json)}
  {tracePath : String} {runner : StreamingCapacitySweepRunner}

/-- Each instance is replayed on its own, so that it matters only whether its parts are there. -/
theorem StreamingCapacitySweepRunner.run_returns_iff_equips
    (hglobal : ServingBackend runner.latencyResolver.globalBackend)
    (htrace : SweepTrace sha256 text runner.builder.shardRoot buildRequest records)
    (hr : ∀ request ∈ acceptedRequests buildRequest records,
      request.Sweepable runner bytesPerToken)
    (hloads : runner.Loads bytesPerToken)
    (hturns : (acceptedRequests buildRequest records).length < turns)
    (hfuel : replayFuel (acceptedRequests buildRequest records) ≤ fuel) (disk : Disk) :
    (∃ result resolved, runner.run text .exact turns fuel sha256 buildRequest records disk {} =
        .ok result resolved) ↔
      ∀ capacity ∈ runner.sweepConfig.capacities,
        ∀ instanceUuid ∈ instancesOf (acceptedRequests buildRequest records),
          runner.Equips capacity instanceUuid := by
  rw [run_returns_iff .exact fuel htrace hglobal hturns disk]
  refine forall₂_congr fun capacity _ ↦ forall₂_congr fun instanceUuid hmem ↦ ?_
  constructor
  · rintro ⟨run, hrun⟩
    exact hrun.equips
  · intro hequips
    obtain ⟨first, hfirst, rfl⟩ := mem_instancesOf.mp hmem
    have hle := replay_fuel_sublist (itemsOf_sublist SimulationRequest.instanceUuid
      (acceptedRequests buildRequest records) first.instanceUuid)
    refine hequips.runs_alone hglobal hloads (htrace.instance_ne first hfirst)
      (htrace.distinct _) (fun request hrequest ↦ ?_)
      (fun request hrequest ↦ hr request (List.mem_of_mem_filter hrequest)) (hle.trans hfuel)
    obtain ⟨record, -, hbuilds⟩ := htrace.accepted request (List.mem_of_mem_filter hrequest)
    exact ⟨hbuilds.encodable.request_id, of_decide_eq_true (List.mem_filter.mp hrequest).2⟩

/-- Only its configuration can keep a sweep of servable requests from its rows: it returns if and
only if each instance with requests has a scheduler, a backend and a cache for each capacity. -/
theorem sweep_returns_iff_equipped
    (hcreate : StreamingCapacitySweepRunner.create loadYaml config tracePath = .ok runner)
    (htrace : SweepTrace sha256 text runner.builder.shardRoot buildRequest records)
    (hr : ∀ request ∈ acceptedRequests buildRequest records,
      request.Sweepable runner bytesPerToken)
    (hloads : runner.Loads bytesPerToken)
    (hturns : (acceptedRequests buildRequest records).length < turns)
    (hfuel : replayFuel (acceptedRequests buildRequest records) ≤ fuel) (disk : Disk) :
    (∃ result resolved, runner.run text .exact turns fuel sha256 buildRequest records disk {} =
        .ok result resolved) ↔
      ∀ capacity ∈ runner.sweepConfig.capacities,
        ∀ instanceUuid ∈ instancesOf (acceptedRequests buildRequest records),
          runner.Equips capacity instanceUuid :=
  StreamingCapacitySweepRunner.run_returns_iff_equips (build_batch_latency_backend_shipped
    (build_resolver_global (StreamingCapacitySweepRunner.create_reads hcreate).2.1)) htrace hr
    hloads hturns hfuel disk

theorem Sample.streaming_sweep_settings : ∃ streaming, StreamingCapacitySweepRunner.create
      Sample.noYaml (Sample.sweepSections "capacity_sweep_streaming") "trace.csv" =
        .ok streaming ∧ streaming.builder.shardRoot = "shards" ∧ streaming.Uniform ∧
    streaming.schedulerConfig.maxNumBatchedTokens = 8 :=
  ⟨_, rfl, rfl, ⟨rfl, rfl, rfl⟩, rfl⟩

/-- The sweep over the sample, which has no settings of its instances. -/
theorem sweep_returns_iff_equipped_rows : ∃ streaming, StreamingCapacitySweepRunner.create
      Sample.noYaml (Sample.sweepSections "capacity_sweep_streaming") "trace.csv" =
        .ok streaming ∧
    ∃ result resolved, streaming.run Sample.shardJson .exact 4 11 Sample.shardDigest
      Sample.buildRow Sample.rows ∅ {} = .ok result resolved := by
  obtain ⟨streaming, hcreate, hroot, huniform, hbudget⟩ := Sample.streaming_sweep_settings
  have htrace : SweepTrace Sample.shardDigest Sample.shardJson streaming.builder.shardRoot
      Sample.buildRow Sample.rows := hroot ▸ Sample.sweep_trace
  have hnamed : ∀ request ∈ acceptedRequests Sample.buildRow Sample.rows,
      request.instanceUuid ≠ "" := htrace.instance_ne
  have hblocks : ∀ request ∈ acceptedRequests Sample.buildRow Sample.rows,
      request.promptTokens ≤ 8 ∧ 0 ≤ request.startTimeMs ∧ request.blockConversionResult = none ∧
        blockTokens request.promptBlocks ≤ request.promptTokens ∧
        ∀ block ∈ request.promptBlocks, block.sizeBytes = block.tokenCount * 2 := by
    rw [Sample.accepted_rows]
    decide +kernel
  have hr : ∀ request ∈ acceptedRequests Sample.buildRow Sample.rows,
      request.Sweepable streaming 2 := by
    intro request hrequest
    obtain ⟨htokens, hstart, hconversion, hle, hbytes⟩ := hblocks request hrequest
    refine ⟨⟨by simp [hconversion], hle⟩, hstart, hbytes, fun hmode ↦ ?_, fun config hconfig ↦ ?_⟩
    · rw [huniform.mode_eq] at hmode
      cases hmode
    · cases (huniform.parts (hnamed request hrequest) 1).1.symm.trans hconfig
      exact .inr (hbudget ▸ htokens)
  refine ⟨streaming, hcreate, (sweep_returns_iff_equipped hcreate htrace hr (.inl (by decide))
    (by rw [Sample.accepted_rows]; decide) (by rw [Sample.accepted_rows]; decide +kernel) ∅).mpr
      fun capacity _ instanceUuid hmem ↦ ?_⟩
  obtain ⟨request, hrequest, rfl⟩ := mem_instancesOf.mp hmem
  exact huniform.equips (hnamed request hrequest) capacity

end Sweeps

end InferTwin
