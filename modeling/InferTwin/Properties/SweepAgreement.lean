import InferTwin.Properties.SweepTrace

namespace InferTwin

open Effect

section Settings

open Config

/-- Configs with the same sections for a sweep, the second one without settings of its own for
the instances. -/
structure SharesSweep (config config' : List (String × Json)) : Prop where
  sections : ∀ key ∈ ["sweep", "output", "cache", "latency", "scheduler"],
    Json.get config' key = Json.get config key
  no_instances : Json.get config' "instance_latency" = none
  no_registry : Json.get config' "model_registry" = none

variable {config config' : List (String × Json)}

theorem SharesSweep.get_or (h : SharesSweep config config') {key : String}
    (hkey : key ∈ ["sweep", "output", "cache", "latency", "scheduler"]) (value : Json) :
    getOr config' key value = getOr config key value := by
  rw [getOr, getOr, h.sections key hkey]

theorem SharesSweep.mapping (h : SharesSweep config config') (key : String)
    (hkey : key ∈ ["sweep", "output", "cache", "latency", "scheduler"]) :
    Sweep.mapping config' key = Sweep.mapping config key ∧
      Sweep.optionalMapping config' key = Sweep.optionalMapping config key ∧
      LatencyFactory.mapping config' key = LatencyFactory.mapping config key := by
  unfold Sweep.mapping Sweep.optionalMapping LatencyFactory.mapping getOrNull
  simp only [h.get_or hkey, and_self]

theorem SharesSweep.backend_eq (h : SharesSweep config config') :
    buildBatchLatencyBackend config' = buildBatchLatencyBackend config := by
  unfold buildBatchLatencyBackend
  rw [(h.mapping "latency" (by simp)).2.2]

theorem SharesSweep.scheduler_eq (h : SharesSweep config config') :
    buildSchedulerConfigFromConfig config' = buildSchedulerConfigFromConfig config := by
  unfold buildSchedulerConfigFromConfig
  rw [(h.mapping "scheduler" (by simp)).1]

/-- What a sweep config is read from. -/
theorem build_capacity_sweep_config_reads {modes : List String}
    {sweepConfig : CapacitySweepConfig}
    (h : buildCapacitySweepConfig config modes = .ok sweepConfig) :
    ∃ fields outputs, Sweep.mapping config "sweep" = .ok fields ∧
      Sweep.positiveIntTuple (getOrNull fields "hbm_capacity_blocks")
        "sweep.hbm_capacity_blocks" = .ok sweepConfig.capacities ∧
      Sweep.optionalMapping config "output" = .ok outputs ∧
      Sweep.optionalBool outputs "cache_events" false = .ok sweepConfig.cacheEvents ∧
      Sweep.optionalPositiveIntTuple (getOr outputs "cache_event_capacities" (.list []))
        "output.cache_event_capacities" = .ok sweepConfig.cacheEventCapacities ∧
      sweepConfig.parallelInstances = false := by
  unfold buildCapacitySweepConfig at h
  obtain ⟨_, -, h⟩ := except_bind_ok.mp h
  obtain ⟨fields, hfields, h⟩ := except_bind_ok.mp h
  obtain ⟨capacities, hcapacities, h⟩ := except_bind_ok.mp h
  split_ifs at h
  · obtain ⟨parallel, -, h⟩ := except_bind_ok.mp h
    obtain ⟨_, hparallel, h⟩ := except_bind_ok.mp h
    obtain ⟨_, -, h⟩ := except_bind_ok.mp h
    obtain ⟨outputs, houtputs, h⟩ := except_bind_ok.mp h
    obtain ⟨cacheEvents, hevents, h⟩ := except_bind_ok.mp h
    obtain ⟨eventCapacities, heventCapacities, h⟩ := except_bind_ok.mp h
    split_ifs at h
    cases h
    exact ⟨fields, outputs, hfields, hcapacities, houtputs, hevents, heventCapacities,
      eq_false_of_ne_true (refuse_if_ok.mp hparallel)⟩

/-- Both sweeps read the same capacities. -/
theorem SharesSweep.sweep_config_eq (h : SharesSweep config config') {modes modes' : List String}
    {sweepConfig sweepConfig' : CapacitySweepConfig}
    (hconfig : buildCapacitySweepConfig config modes = .ok sweepConfig)
    (hconfig' : buildCapacitySweepConfig config' modes' = .ok sweepConfig') :
    sweepConfig' = sweepConfig := by
  obtain ⟨fields, outputs, hfields, hcapacities, houtputs, hevents, heventCapacities, hparallel⟩ :=
    build_capacity_sweep_config_reads hconfig
  obtain ⟨_, _, hfields', hcapacities', houtputs', hevents', heventCapacities', hparallel'⟩ :=
    build_capacity_sweep_config_reads hconfig'
  rw [(h.mapping "sweep" (by simp)).1, hfields] at hfields'
  rw [(h.mapping "output" (by simp)).2.1, houtputs] at houtputs'
  cases hfields'
  cases houtputs'
  exact CapacitySweepConfig.ext (Except.ok.inj (hcapacities'.symm.trans hcapacities))
    (Except.ok.inj (hevents'.symm.trans hevents))
    (Except.ok.inj (heventCapacities'.symm.trans heventCapacities))
    (hparallel'.trans hparallel.symm)

/-- What a streaming sweep is constructed from. -/
theorem StreamingCapacitySweepRunner.create_reads {loadYaml : String → Except ConfigError Json}
    {tracePath : String} {runner : StreamingCapacitySweepRunner}
    (h : create loadYaml config tracePath = .ok runner) :
    buildCapacitySweepConfig config ["capacity_sweep_streaming"] = .ok runner.sweepConfig ∧
      buildInstanceLatencyBackendResolver loadYaml config = .ok runner.latencyResolver ∧
      buildOptionalInstanceRuntimeResolver loadYaml config = .ok runner.runtimeResolver ∧
      buildSchedulerConfigFromConfig config = .ok runner.schedulerConfig := by
  unfold create at h
  obtain ⟨sweepConfig, hsweep, h⟩ := except_bind_ok.mp h
  obtain ⟨builder, -, h⟩ := except_bind_ok.mp h
  obtain ⟨cacheMode, -, h⟩ := except_bind_ok.mp h
  obtain ⟨latencyResolver, hlatency, h⟩ := except_bind_ok.mp h
  obtain ⟨runtimeResolver, hruntime, h⟩ := except_bind_ok.mp h
  obtain ⟨schedulerConfig, hscheduler, h⟩ := except_bind_ok.mp h
  cases h
  exact ⟨hsweep, hlatency, hruntime, hscheduler⟩

theorem build_resolver_global {loadYaml : String → Except ConfigError Json}
    {resolver : InstanceLatencyBackendResolver}
    (h : buildInstanceLatencyBackendResolver loadYaml config = .ok resolver) :
    buildBatchLatencyBackend config = .ok resolver.globalBackend := by
  unfold buildInstanceLatencyBackendResolver at h
  obtain ⟨globalBackend, hglobal, h⟩ := except_bind_ok.mp h
  obtain ⟨instances, -, h⟩ := except_bind_ok.mp h
  obtain ⟨registryPath, -, h⟩ := except_bind_ok.mp h
  obtain ⟨registry, -, h⟩ := except_bind_ok.mp h
  cases hpath : instances.profilePath with
  | none =>
    rw [hpath] at h
    cases h
    exact hglobal
  | some path =>
    rw [hpath] at h
    obtain ⟨_, -, h⟩ := except_bind_ok.mp h
    obtain ⟨_, -, h⟩ := except_bind_ok.mp h
    obtain ⟨_, -, h⟩ := except_bind_ok.mp h
    cases h
    exact hglobal

/-- Without a section for them there are no profiles of instances. -/
theorem SharesSweep.no_profiles (h : SharesSweep config config')
    {loadYaml : String → Except ConfigError Json} {resolver : InstanceLatencyBackendResolver}
    (hresolver : buildInstanceLatencyBackendResolver loadYaml config' = .ok resolver) :
    resolver.instanceProfile = none := by
  have hnone : buildInstanceLatencyConfig config' = .ok { profilePath := none } := by
    unfold buildInstanceLatencyConfig sectionProfilePath getOrNull getOr
    rw [h.no_instances]
    rfl
  unfold buildInstanceLatencyBackendResolver at hresolver
  obtain ⟨globalBackend, -, hresolver⟩ := except_bind_ok.mp hresolver
  rw [hnone, except_ok_bind] at hresolver
  obtain ⟨registryPath, -, hresolver⟩ := except_bind_ok.mp hresolver
  obtain ⟨registry, -, hresolver⟩ := except_bind_ok.mp hresolver
  cases hresolver
  rfl

theorem SharesSweep.no_runtime (h : SharesSweep config config')
    {loadYaml : String → Except ConfigError Json} {resolver : Option InstanceRuntimeResolver}
    (hresolver : StreamingCapacitySweepRunner.buildOptionalInstanceRuntimeResolver loadYaml
      config' = .ok resolver) : resolver = none := by
  unfold StreamingCapacitySweepRunner.buildOptionalInstanceRuntimeResolver at hresolver
  rw [h.no_registry] at hresolver
  cases hresolver
  rfl

end Settings

section Composition

variable {timelineMode : TimelineMode} {written : List ℕ+}
  {Runs Runs' : ℕ+ → List InstanceRun → Prop} {Alone : ℕ+ → InstanceRun → Prop}

/-- Two files of cache events of one capacity. Both have the events of each instance as its
replay alone emits them, in one piece, and differ in the order of the instances only. -/
structure SameEvents (Alone : ℕ+ → InstanceRun → Prop) (file file' : ℕ+ × List CacheEvent) :
    Prop where
  capacity_eq : file.1 = file'.1
  events : ∃ runs runs' : List InstanceRun, runs.Perm runs' ∧ (∀ run ∈ runs, Alone file.1 run) ∧
    (runs.map InstanceRun.instanceUuid).Nodup ∧
    file.2 = runs.flatMap InstanceRun.cacheEvents ∧
    file'.2 = runs'.flatMap InstanceRun.cacheEvents

theorem SameEvents.symm {file file' : ℕ+ × List CacheEvent} (h : SameEvents Alone file file') :
    SameEvents Alone file' file := by
  obtain ⟨hcapacity, runs, runs', hperm, halone, hnodup, hfile, hfile'⟩ := h
  refine ⟨hcapacity.symm, runs', runs, hperm.symm, fun run hrun ↦ ?_, ?_, hfile', hfile⟩
  · rw [← hcapacity]
    exact halone run (hperm.mem_iff.mpr hrun)
  · exact (hperm.map _).nodup_iff.mp hnodup

/-- Results of two sweeps with the same rows, the same counts and the same cache events. -/
structure CapacitySweepResult.Matches (Alone : ℕ+ → InstanceRun → Prop)
    (result result' : CapacitySweepResult) : Prop where
  rows_eq : result.rows = result'.rows
  accepted_eq : result.acceptedCount = result'.acceptedCount
  rejected_eq : result.rejectedCount = result'.rejectedCount
  files : List.Forall₂ (SameEvents Alone) result.cacheEventFiles result'.cacheEventFiles

theorem CapacitySweepResult.Matches.symm {result result' : CapacitySweepResult}
    (h : result.Matches Alone result') : result'.Matches Alone result :=
  ⟨h.rows_eq.symm, h.accepted_eq.symm, h.rejected_eq.symm,
    List.Forall₂.flip (h.files.imp fun _ _ hfile ↦ hfile.symm)⟩

/-- The same runs in another order. -/
structure Reorders (timelineMode : TimelineMode) (Alone : ℕ+ → InstanceRun → Prop)
    (Runs Runs' : ℕ+ → List InstanceRun → Prop) : Prop where
  reportable : ∀ capacity runs, Runs capacity runs → AllReportable timelineMode runs
  alone : ∀ capacity runs, Runs capacity runs → ∀ run ∈ runs, Alone capacity run
  nodup : ∀ capacity runs, Runs capacity runs → (runs.map InstanceRun.instanceUuid).Nodup
  reorder : ∀ capacity runs, Runs capacity runs → ∃ runs', Runs' capacity runs' ∧ runs.Perm runs'

theorem Reorders.same_events (h : Reorders timelineMode Alone Runs Runs') {capacity : ℕ+}
    {runs runs' : List InstanceRun} (hruns : Runs capacity runs) (hperm : runs.Perm runs') :
    SameEvents Alone (capacity, runs.flatMap InstanceRun.cacheEvents)
      (capacity, runs'.flatMap InstanceRun.cacheEvents) :=
  ⟨rfl, runs, runs', hperm, h.alone capacity runs hruns, h.nodup capacity runs hruns, rfl, rfl⟩

theorem Composes.reorder (hRuns : Reorders timelineMode Alone Runs Runs')
    {capacities : List ℕ+} {rows : List CapacitySweepRow} {files : List (ℕ+ × List CacheEvent)}
    (h : Composes timelineMode written Runs capacities rows files) :
    ∃ files', Composes timelineMode written Runs' capacities rows files' ∧
      List.Forall₂ (SameEvents Alone) files files' := by
  induction h with
  | nil => exact ⟨[], .nil, .nil⟩
  | write hwritten hruns hrows _ ih =>
    obtain ⟨files', hrest, hfiles⟩ := ih
    obtain ⟨runs', hruns', hperm⟩ := hRuns.reorder _ _ hruns
    rw [(hRuns.reportable _ _ hruns).runs_rows_perm hperm] at hrows
    exact ⟨_, .write hwritten hruns' hrows hrest, .cons (hRuns.same_events hruns hperm) hfiles⟩
  | skip hwritten hruns hrows _ ih =>
    obtain ⟨files', hrest, hfiles⟩ := ih
    obtain ⟨runs', hruns', hperm⟩ := hRuns.reorder _ _ hruns
    rw [(hRuns.reportable _ _ hruns).runs_rows_perm hperm] at hrows
    exact ⟨files', .skip hwritten hruns' hrows hrest, hfiles⟩

theorem CapacitySweepResult.Composed.reorder {result : CapacitySweepResult}
    {sweepConfig : CapacitySweepConfig} {accepted total : ℕ}
    (h : result.Composed timelineMode sweepConfig Runs accepted total)
    (hRuns : Reorders timelineMode Alone Runs Runs') :
    ∃ result', result'.Composed timelineMode sweepConfig Runs' accepted total ∧
      result.Matches Alone result' := by
  obtain ⟨rows, hcomposes, hrows⟩ := h.rows
  obtain ⟨files', hcomposes', hfiles⟩ := hcomposes.reorder hRuns
  exact ⟨{ result with cacheEventFiles := files' },
    ⟨⟨rows, hcomposes', hrows⟩, h.accepted_eq, h.rejected_eq⟩, rfl, rfl, rfl, hfiles⟩

end Composition

section Agreement

variable {sha256 : List UInt8 → List UInt8} {text : JsonText}
  {buildRequest : TraceRecord → Except PromptTooLongError SimulationRequest}
  {records : List TraceRecord} {clock : Clock} {fuel turns : ℕ} {capacity : ℕ+}
  {instanceUuid : String} {requests : List SimulationRequest} {run : InstanceRun}

/-- A streaming sweep of one scheduler, one backend and HBM caches. -/
structure StreamingCapacitySweepRunner.Uniform (runner : StreamingCapacitySweepRunner) : Prop where
  mode_eq : runner.cacheMode = .hbmLru
  no_profiles : runner.latencyResolver.instanceProfile = none
  no_runtime : runner.runtimeResolver = none

/-- Whatever the instance, it gets the one scheduler and the one backend. -/
theorem StreamingCapacitySweepRunner.Uniform.parts {runner : StreamingCapacitySweepRunner}
    (h : runner.Uniform) (hne : instanceUuid ≠ "") (capacity : ℕ+) :
    runner.schedulerFor instanceUuid = .ok runner.schedulerConfig ∧
      runner.defaultCacheFor instanceUuid = .ok none ∧
      buildStreamingPrefixCache capacity instanceUuid none runner.cacheMode =
        .ok (hbmCache capacity) ∧
      ∃ metadata, runner.latencyResolver.resolve instanceUuid =
        .ok (runner.latencyResolver.globalBackend, metadata) := by
  refine ⟨?_, ?_, ?_, ?_⟩
  · rw [schedulerFor, h.no_runtime]
  · rw [defaultCacheFor, h.no_runtime]
  · rw [h.mode_eq]
    rfl
  · rw [InstanceLatencyBackendResolver.resolve, if_neg hne, h.no_profiles]
    exact ⟨_, rfl⟩

theorem StreamingCapacitySweepRunner.Uniform.runs_alone_iff
    {runner : StreamingCapacitySweepRunner} (h : runner.Uniform) (hne : instanceUuid ≠ "") :
    runner.RunsAlone clock fuel capacity instanceUuid requests run ↔
      CapacitySweepRunner.RunsAlone runner.schedulerConfig runner.latencyResolver.globalBackend
        clock fuel capacity instanceUuid requests run := by
  obtain ⟨hscheduler, hdefaults, hcache, metadata, hresolve⟩ := h.parts hne capacity
  constructor
  · rintro ⟨config, backend, _, cacheDefaults, built, hconfig, hbackend, hcaches, hbuilt, halone⟩
    cases hscheduler.symm.trans hconfig
    cases hresolve.symm.trans hbackend
    cases hdefaults.symm.trans hcaches
    cases hcache.symm.trans hbuilt
    rw [h.mode_eq] at halone
    exact halone
  · intro halone
    refine ⟨_, _, metadata, none, _, hscheduler, hresolve, hdefaults, hcache, ?_⟩
    rw [h.mode_eq]
    exact halone

/-- Runs of instances in one order and in another. -/
theorem forall₂_perm {Run : String → InstanceRun → Prop} {instances instances' : List String}
    (hperm : instances'.Perm instances) {runs : List InstanceRun}
    (h : List.Forall₂ Run instances runs) :
    ∃ runs', List.Forall₂ Run instances' runs' ∧ runs.Perm runs' := by
  obtain ⟨runs', hruns', hperm'⟩ := List.perm_comp_forall₂ hperm h
  exact ⟨runs', hruns', hperm'.symm⟩

variable (buildRequest) in
/-- The instances in the order of their names, and in the order in which they appear. -/
theorem instances_perm (records : List TraceRecord) :
    (Dict.inOrder (instancesOf (acceptedRequests buildRequest records))).Perm
      ((groupByInstance (buildRequestLoop buildRequest records).inOrder.requests).map
        Prod.fst) := by
  refine (List.perm_ext_iff_of_nodup (Dict.inOrder_nodup _)
    (group_by_instance_grouped _).nodup).mpr fun instanceUuid ↦ ?_
  rw [Dict.mem_inOrder, mem_instancesOf, CapacitySweepRunner.group_instances]
  exact exists_congr fun request ↦ and_congr_left fun _ ↦
    (build_requests_perm buildRequest records).mem_iff.symm

variable {shardRoot : String} {runner : StreamingCapacitySweepRunner}

/-- An instance has the same run in both sweeps. -/
theorem StreamingCapacitySweepRunner.Uniform.same_run (h : runner.Uniform)
    (htrace : SweepTrace sha256 text shardRoot buildRequest records)
    (hne : instanceUuid ≠ "") :
    runner.RunsAlone clock fuel capacity instanceUuid
        (requestsOf (acceptedRequests buildRequest records) instanceUuid) run ↔
      CapacitySweepRunner.RunsAlone runner.schedulerConfig runner.latencyResolver.globalBackend
        clock fuel capacity instanceUuid (itemsOf SimulationRequest.instanceUuid
          (buildRequestLoop buildRequest records).inOrder.requests instanceUuid) run := by
  have hperm : (itemsOf SimulationRequest.instanceUuid
      (buildRequestLoop buildRequest records).inOrder.requests instanceUuid).Perm
        (requestsOf (acceptedRequests buildRequest records) instanceUuid) :=
    (build_requests_perm buildRequest records).filter _
  have hsorted := sorted_eq_of_perm hperm.symm (htrace.distinct instanceUuid)
  rw [h.runs_alone_iff hne, CapacitySweepRunner.RunsAlone, CapacitySweepRunner.RunsAlone,
    replay_alone_sorted hsorted]

/-- The runs of a streaming sweep, over some instances in one order and in another. -/
theorem StreamingCapacitySweepRunner.reorders
    (htrace : SweepTrace sha256 text shardRoot buildRequest records) (clock : Clock) (fuel : ℕ)
    {instances instances' : List String} (hnodup : instances.Nodup)
    (hmem : ∀ instanceUuid ∈ instances,
      instanceUuid ∈ instancesOf (acceptedRequests buildRequest records))
    (hperm : instances.Perm instances') :
    Reorders runner.cacheMode.timelineMode
      (fun capacity run ↦ runner.RunsAlone clock fuel capacity run.instanceUuid
        (requestsOf (acceptedRequests buildRequest records) run.instanceUuid) run)
      (fun capacity ↦ runner.AllRunAlone clock fuel capacity
        (requestsOf (acceptedRequests buildRequest records)) instances)
      (fun capacity ↦ runner.AllRunAlone clock fuel capacity
        (requestsOf (acceptedRequests buildRequest records)) instances') := by
  refine ⟨fun capacity runs hruns run hrun ↦ ?_, fun capacity runs hruns run hrun ↦ ?_,
    fun capacity runs hruns ↦ ?_, fun capacity runs hruns ↦ forall₂_perm hperm.symm hruns⟩
  · exact (htrace.runs_complete hmem hruns run hrun).2.2.reportable
  · exact (htrace.runs_complete hmem hruns run hrun).2.1
  · rw [(forall₂_instances (fun _ _ halone ↦ halone.instance_eq) hruns).1]
    exact hnodup

/-- The runs of a sweep in memory are those of a streaming sweep. -/
theorem StreamingCapacitySweepRunner.Uniform.batch_runs (h : runner.Uniform)
    (htrace : SweepTrace sha256 text shardRoot buildRequest records) (clock : Clock) (fuel : ℕ) :
    CapacitySweepRunner.AllRunAlone runner.schedulerConfig runner.latencyResolver.globalBackend
        clock fuel (buildRequestLoop buildRequest records).inOrder.requests =
      fun capacity ↦ runner.AllRunAlone clock fuel capacity
        (requestsOf (acceptedRequests buildRequest records))
        ((groupByInstance (buildRequestLoop buildRequest records).inOrder.requests).map
          Prod.fst) := by
  funext capacity runs
  have hne : ∀ instanceUuid ∈ (groupByInstance
      (buildRequestLoop buildRequest records).inOrder.requests).map Prod.fst,
      instanceUuid ≠ "" := by
    intro instanceUuid hmem
    obtain ⟨request, hrequest, rfl⟩ := CapacitySweepRunner.group_instances.mp hmem
    exact htrace.instance_ne request ((build_requests_perm buildRequest records).mem_iff.mp hrequest)
  refine propext ⟨fun hruns ↦ ?_, fun hruns ↦ ?_⟩
  · exact ((List.forall₂_and_left _ _).mpr ⟨hne, hruns⟩).imp fun instanceUuid run hrun ↦
      (h.same_run htrace hrun.1).mpr hrun.2
  · exact ((List.forall₂_and_left _ _).mpr ⟨hne, hruns⟩).imp fun instanceUuid run hrun ↦
      (h.same_run htrace hrun.1).mp hrun.2

/-- A trace that is read from the disk shard by shard is swept as it is in memory: a streaming
sweep returns where the sweep in memory does, with the same rows and counts, and with the same
cache events up to the order of the instances. The sweep in memory returns where the streaming
one does and the start times can be compared, as they are not in the shards. -/
theorem streaming_sweep_agrees {config config' : List (String × Json)}
    (hshares : SharesSweep config config') {batch : CapacitySweepRunner}
    (hbatch : CapacitySweepRunner.create config = .ok batch)
    {loadYaml : String → Except ConfigError Json} {tracePath : String}
    {streaming : StreamingCapacitySweepRunner}
    (hstreaming : StreamingCapacitySweepRunner.create loadYaml config' tracePath = .ok streaming)
    (hmode : streaming.cacheMode = .hbmLru)
    (htrace : SweepTrace sha256 text streaming.builder.shardRoot buildRequest records)
    (hturns : (acceptedRequests buildRequest records).length < turns) (clock : Clock) (fuel : ℕ)
    (disk : Disk) :
    (∀ result, batch.run clock fuel buildRequest records = .ok result →
      ∃ streamed resolved, streaming.run text clock turns fuel sha256 buildRequest records disk {} =
          .ok streamed resolved ∧
        streamed.Matches (fun capacity run ↦ streaming.RunsAlone clock fuel capacity
          run.instanceUuid (requestsOf (acceptedRequests buildRequest records) run.instanceUuid)
            run) result) ∧
    (TimesComparable (acceptedRequests buildRequest records) → ∀ streamed resolved,
      streaming.run text clock turns fuel sha256 buildRequest records disk {} =
          .ok streamed resolved →
        ∃ result, batch.run clock fuel buildRequest records = .ok result ∧
          streamed.Matches (fun capacity run ↦ streaming.RunsAlone clock fuel capacity
            run.instanceUuid (requestsOf (acceptedRequests buildRequest records) run.instanceUuid)
              run) result) := by
  obtain ⟨hsweep, hlatency, hruntime, hscheduler⟩ :=
    StreamingCapacitySweepRunner.create_reads hstreaming
  have huniform : streaming.Uniform :=
    ⟨hmode, hshares.no_profiles hlatency, hshares.no_runtime hruntime⟩
  have hglobal := build_resolver_global hlatency
  obtain ⟨sweepConfig, hsweep', hbatch⟩ := except_bind_ok.mp hbatch
  cases hbatch
  have hcapacities := hshares.sweep_config_eq hsweep' hsweep
  have hstream := StreamingCapacitySweepRunner.run_composed clock fuel htrace
    (build_batch_latency_backend_shipped hglobal) hturns disk
  rw [hshares.backend_eq] at hglobal
  rw [hshares.scheduler_eq] at hscheduler
  have hmemory := CapacitySweepRunner.run_composed { config, sweepConfig } clock fuel
    htrace hglobal hscheduler
  -- both are put together from the same runs
  have hperm := instances_perm buildRequest records
  have hin : ∀ instanceUuid ∈ Dict.inOrder (instancesOf (acceptedRequests buildRequest records)),
      instanceUuid ∈ instancesOf (acceptedRequests buildRequest records) :=
    fun instanceUuid hmem ↦ Dict.mem_inOrder.mp hmem
  have hthere := streaming.reorders htrace clock fuel (Dict.inOrder_nodup _) hin hperm
  have hback := streaming.reorders htrace clock fuel (hperm.nodup_iff.mp (Dict.inOrder_nodup _))
    (fun instanceUuid hmem ↦ hin instanceUuid (hperm.mem_iff.mpr hmem)) hperm.symm
  rw [hmode, ← huniform.batch_runs htrace clock fuel] at hthere hback
  rw [hmode, hcapacities] at hstream
  constructor
  · intro result hrun
    obtain ⟨streamed, hcomposed, hmatches⟩ := ((hmemory result).mp hrun).2.reorder hback
    obtain ⟨resolved, hrun'⟩ := (hstream streamed).mpr hcomposed
    exact ⟨streamed, resolved, hrun', hmatches.symm⟩
  · intro htimes streamed resolved hrun
    obtain ⟨result, hcomposed, hmatches⟩ := ((hstream streamed).mp ⟨resolved, hrun⟩).reorder hthere
    exact ⟨result, (hmemory result).mpr ⟨htimes, hcomposed⟩, hmatches⟩

end Agreement

namespace Sample

/-- The sections of a sweep over two capacities. -/
def sweepSections (mode : String) : List (String × Json) := [
  ("simulation", .object [("mode", .str mode)]),
  ("sweep", .object [("hbm_capacity_blocks", .list [.int 1, .int 4])]),
  ("output", .object [
    ("cache_events", .bool true),
    ("cache_event_capacities", .list [.int 4])]),
  ("latency", .object [
    ("backend", .str "formula"),
    ("model_name", .str "model"),
    ("hardware_name", .str "hardware"),
    ("formula", .object [
      ("iteration_fixed_overhead_ms", .int 1),
      ("iteration_prefill_token_ms", .int 1),
      ("iteration_batch_overhead_ms", .int 0),
      ("iteration_context_token_ms", .int 0)])]),
  ("scheduler", .object [("max_num_batched_tokens", .int 8), ("max_num_seqs", .int 2)]),
  ("streaming", .object [("shard_root", .str "shards")])]

def noYaml (_ : String) : Except ConfigError Json := .error .unsortedTraceUnsupported

theorem shares_sweep : SharesSweep (sweepSections "capacity_sweep")
    (sweepSections "capacity_sweep_streaming") where
  sections := by
    intro key hkey
    simp only [List.mem_cons, List.not_mem_nil, or_false] at hkey
    rcases hkey with rfl | rfl | rfl | rfl | rfl <;> rfl
  no_instances := rfl
  no_registry := rfl

theorem sweep_trace : SweepTrace shardDigest shardJson "shards" buildRow rows where
  sorted := by decide +kernel
  builds := row_builds (List.Subset.refl _)
  distinct instanceUuid := by
    rw [accepted_rows]
    exact List.Nodup.sublist (List.Sublist.map _ List.filter_sublist) (by decide +kernel)
  paths := row_paths (List.Subset.refl _)

theorem times_comparable : TimesComparable (acceptedRequests buildRow rows) := by
  rw [accepted_rows]
  decide

end Sample

/-- The instances of the sample are replayed at both capacities. -/
theorem Sample.streaming_sweep_creates : ∃ streaming, StreamingCapacitySweepRunner.create
      Sample.noYaml (Sample.sweepSections "capacity_sweep_streaming") "trace.csv" =
        .ok streaming ∧ streaming.builder.shardRoot = "shards" ∧ streaming.Uniform ∧
    ∀ capacity ∈ streaming.sweepConfig.capacities, ∀ instanceUuid ∈ ["a", "b"], ∃ run,
      CapacitySweepRunner.RunsAlone streaming.schedulerConfig
        streaming.latencyResolver.globalBackend .exact 9 capacity instanceUuid
        (requestsOf [Sample.firstOfShard, Sample.secondOfShard] instanceUuid) run := by
  refine ⟨_, rfl, rfl, ⟨rfl, rfl, rfl⟩, fun capacity hcapacity instanceUuid hinstance ↦
    except_ok_of_is_ok ?_⟩
  revert capacity instanceUuid
  decide +kernel

/-- The streaming sweep over the sample returns. -/
theorem Sample.streaming_sweep_returns : ∃ streaming, StreamingCapacitySweepRunner.create
      Sample.noYaml (Sample.sweepSections "capacity_sweep_streaming") "trace.csv" =
        .ok streaming ∧ streaming.cacheMode = .hbmLru ∧
    SweepTrace Sample.shardDigest Sample.shardJson streaming.builder.shardRoot Sample.buildRow
      Sample.rows ∧
    (acceptedRequests Sample.buildRow Sample.rows).length < 4 ∧
    ∃ streamed resolved, streaming.run Sample.shardJson .exact 4 9 Sample.shardDigest
      Sample.buildRow Sample.rows ∅ {} = .ok streamed resolved := by
  obtain ⟨streaming, hstreaming, hroot, huniform, hruns⟩ := Sample.streaming_sweep_creates
  have htrace : SweepTrace Sample.shardDigest Sample.shardJson streaming.builder.shardRoot
      Sample.buildRow Sample.rows := hroot ▸ Sample.sweep_trace
  have hturns : (acceptedRequests Sample.buildRow Sample.rows).length < 4 := by
    rw [Sample.accepted_rows]
    decide
  have hglobal := build_batch_latency_backend_shipped (build_resolver_global
    (StreamingCapacitySweepRunner.create_reads hstreaming).2.1)
  refine ⟨streaming, hstreaming, huniform.mode_eq, htrace, hturns,
    (StreamingCapacitySweepRunner.run_returns_iff .exact 9 htrace hglobal hturns ∅).mpr
      fun capacity hcapacity instanceUuid hinstance ↦ ?_⟩
  rw [Sample.accepted_rows] at hinstance ⊢
  have hmem : instanceUuid ∈ ["a", "b"] := by
    obtain ⟨request, hrequest, rfl⟩ := mem_instancesOf.mp hinstance
    rcases List.mem_pair.mp hrequest with rfl | rfl <;> decide
  have hne : instanceUuid ≠ "" := by
    rcases List.mem_pair.mp hmem with rfl | rfl <;> decide
  obtain ⟨run, halone⟩ := hruns capacity hcapacity instanceUuid hmem
  exact ⟨run, (huniform.runs_alone_iff hne).mpr halone⟩

/-- Both sweeps over the sample return. -/
theorem streaming_sweep_agrees_rows :
    ∃ batch streaming, CapacitySweepRunner.create (Sample.sweepSections "capacity_sweep") =
        .ok batch ∧
      StreamingCapacitySweepRunner.create Sample.noYaml
        (Sample.sweepSections "capacity_sweep_streaming") "trace.csv" = .ok streaming ∧
      ∃ streamed resolved result, streaming.run Sample.shardJson .exact 4 9 Sample.shardDigest
          Sample.buildRow Sample.rows ∅ {} = .ok streamed resolved ∧
        batch.run .exact 9 Sample.buildRow Sample.rows = .ok result ∧
        streamed.rows = result.rows := by
  obtain ⟨batch, hbatch⟩ : ∃ batch, CapacitySweepRunner.create
    (Sample.sweepSections "capacity_sweep") = .ok batch := ⟨_, rfl⟩
  obtain ⟨streaming, hstreaming, hmode, htrace, hturns, streamed, resolved, hrun⟩ :=
    Sample.streaming_sweep_returns
  obtain ⟨result, hresult, hmatches⟩ := (streaming_sweep_agrees Sample.shares_sweep hbatch
    hstreaming hmode htrace hturns .exact 9 ∅).2 Sample.times_comparable streamed resolved hrun
  exact ⟨batch, streaming, hbatch, hstreaming, streamed, resolved, result, hrun, hresult,
    hmatches.rows_eq⟩

end InferTwin
