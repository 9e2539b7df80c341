import InferTwin.Properties.SweepRows

namespace InferTwin

open Effect

section Requests

variable {buildRequest : TraceRecord → Except PromptTooLongError SimulationRequest}

theorem build_request_loop_requests (records : List TraceRecord) :
    (buildRequestLoop buildRequest records).requests = acceptedRequests buildRequest records := by
  induction records with
  | nil => rfl
  | cons record records ih =>
    rw [acceptedRequests, List.filterMap_cons]
    unfold buildRequestLoop
    cases buildRequest record with
    | ok request => exact congrArg (List.cons request) ih
    | error error => exact ih

theorem build_request_loop_counts (records : List TraceRecord) :
    (buildRequestLoop buildRequest records).requests.length +
      (buildRequestLoop buildRequest records).rejectedRecords.length = records.length := by
  induction records with
  | nil => rfl
  | cons record records ih =>
    unfold buildRequestLoop
    cases buildRequest record with
    | ok request =>
      simp only [List.length_cons]
      omega
    | error error =>
      simp only [List.length_cons]
      omega

variable (buildRequest) in
theorem build_requests_perm (records : List TraceRecord) :
    (buildRequestLoop buildRequest records).inOrder.requests.Perm
      (acceptedRequests buildRequest records) := by
  rw [← build_request_loop_requests]
  exact List.perm_insertionSort _ _

end Requests

/-- A trace that both sweeps can read: its rows are in order, their requests can be written and
read back, no two requests of an instance share an id, and no two instances a file. -/
structure SweepTrace (sha256 : List UInt8 → List UInt8) (text : JsonText) (shardRoot : String)
    (buildRequest : TraceRecord → Except PromptTooLongError SimulationRequest)
    (records : List TraceRecord) : Prop where
  sorted : records.Pairwise fun a b ↦ a.sortKey ≤ b.sortKey
  builds : ∀ record ∈ records, ∀ request, buildRequest record = .ok request →
    record.Builds text request
  distinct : ∀ instanceUuid, ((requestsOf (acceptedRequests buildRequest records)
    instanceUuid).map SimulationRequest.requestId).Nodup
  paths : Set.InjOn (shardPath sha256 shardRoot) {i | ∃ record ∈ records, record.instanceUuid = i}

namespace SweepTrace

variable {sha256 : List UInt8 → List UInt8} {text : JsonText} {shardRoot : String}
  {buildRequest : TraceRecord → Except PromptTooLongError SimulationRequest}
  {records : List TraceRecord} {turns : ℕ}

theorem accepted (h : SweepTrace sha256 text shardRoot buildRequest records) :
    ∀ request ∈ acceptedRequests buildRequest records, ∃ record ∈ records,
      record.Builds text request := by
  intro request hrequest
  obtain ⟨record, hrecord, hresult⟩ := mem_accepted.mp hrequest
  exact ⟨record, hrecord, h.builds record hrecord request hresult⟩

theorem instance_ne (h : SweepTrace sha256 text shardRoot buildRequest records) :
    ∀ request ∈ acceptedRequests buildRequest records, request.instanceUuid ≠ "" := by
  intro request hrequest
  obtain ⟨_, -, hbuilds⟩ := h.accepted request hrequest
  exact hbuilds.encodable.instance_uuid

/-- The shard of an instance, once it is on the disk. -/
theorem serves (h : SweepTrace sha256 text shardRoot buildRequest records)
    (hturns : (acceptedRequests buildRequest records).length < turns) {disk : Disk}
    {instanceUuid : String}
    (hmem : instanceUuid ∈ instancesOf (acceptedRequests buildRequest records))
    (hdisk : disk.lookup (shardPath sha256 shardRoot instanceUuid) = some
      (shardText text (requestsOf (acceptedRequests buildRequest records) instanceUuid))) :
    (requestShardOf sha256 shardRoot instanceUuid
        (requestsOf (acceptedRequests buildRequest records) instanceUuid)).Serves text disk turns
      (requestsOf (acceptedRequests buildRequest records) instanceUuid) := by
  obtain ⟨request, hrequest, hinstance⟩ := mem_instancesOf.mp hmem
  have hsorted := accepted_sorted h.builds h.sorted instanceUuid
  refine ⟨?_, rfl, ⟨_, hdisk, JsonlRequestSource.yields ?_ hsorted⟩, hsorted,
    h.distinct instanceUuid, ?_, ?_⟩
  · rw [← hinstance]
    exact h.instance_ne request hrequest
  · intro other hother
    obtain ⟨record, _, hbuilds⟩ := h.accepted other (List.mem_of_mem_filter hother)
    exact ⟨hbuilds.encodable, hbuilds.round_trips⟩
  · exact fun other hother ↦ of_decide_eq_true (List.mem_filter.mp hother).2
  · exact (List.length_filter_le _ _).trans_lt hturns

/-- The shards of such a trace are written, and each serves the requests of its instance. -/
theorem build (h : SweepTrace sha256 text shardRoot buildRequest records)
    {builder : StreamingRequestShardBuilder} (hroot : builder.shardRoot = shardRoot)
    (hturns : (acceptedRequests buildRequest records).length < turns) (disk : Disk) :
    ∃ result disk', builder.build sha256 text buildRequest records disk = .ok (result, disk') ∧
      result.manifest.acceptedCount = (acceptedRequests buildRequest records).length ∧
      result.manifest.acceptedCount + result.manifest.rejectedCount = records.length ∧
      result.manifest.shards.map RequestShard.instanceUuid =
        Dict.inOrder (instancesOf (acceptedRequests buildRequest records)) ∧
      ∀ shard ∈ result.manifest.shards, shard.Serves text disk' turns
        (requestsOf (acceptedRequests buildRequest records) shard.instanceUuid) := by
  subst hroot
  have hinj : Set.InjOn (shardPath sha256 builder.shardRoot)
      {i | ∃ request ∈ acceptedRequests buildRequest records, request.instanceUuid = i} := by
    refine h.paths.mono ?_
    rintro i ⟨request, hrequest, rfl⟩
    obtain ⟨record, hrecord, hbuilds⟩ := h.accepted request hrequest
    exact ⟨record, hrecord, hbuilds.instance_uuid.symm⟩
  obtain ⟨state, hrecords, hfollows⟩ := build_records_ok
    (BuildState.Follows.initial sha256 text buildRequest builder.shardRoot disk) h.builds hinj
    h.sorted 2
  rw [List.nil_append] at hfollows
  have hshards := build_shards_ok hfollows.store fun i hi ↦ by
    obtain ⟨request, hrequest, rfl⟩ := mem_instancesOf.mp hi
    exact h.instance_ne request hrequest
  have hsum := (sum_request_count hfollows.store).trans hfollows.accepted.symm
  have hresult : builder.build sha256 text buildRequest records disk = .ok ({
      manifest := {
        tracePath := builder.tracePath
        shardRoot := builder.shardRoot
        shards := requestShards sha256 builder.shardRoot
          (instancesOf (acceptedRequests buildRequest records))
          (acceptedRequests buildRequest records)
        acceptedCount := state.acceptedCount
        rejectedCount := state.rejectedCount
        requireSortedTrace := builder.requireSortedTrace }
      rejectedPath := if state.rejectedCount > 0 then builder.rejectedPath else none },
      state.shardStore.disk) := by
    rw [StreamingRequestShardBuilder.build, hrecords, except_ok_bind, hshards, except_ok_bind,
      validate_ok hsum]
    rfl
  refine ⟨_, _, hresult, hfollows.accepted, hfollows.counted, ?_, ?_⟩
  · rw [requestShards, List.map_map]
    exact List.map_id _
  · intro shard hshard
    obtain ⟨i, hi, rfl⟩ := List.mem_map.mp hshard
    have hmem := Dict.mem_inOrder.mp hi
    exact h.serves hturns hmem (hfollows.store.disk i hmem)

end SweepTrace

/-- The result of a sweep over some instances, from their runs. -/
structure CapacitySweepResult.Composed (result : CapacitySweepResult) (timelineMode : TimelineMode)
    (sweepConfig : CapacitySweepConfig) (Runs : ℕ+ → List InstanceRun → Prop)
    (accepted total : ℕ) : Prop where
  rows : ∃ rows, Composes timelineMode sweepConfig.cacheEventCapacities Runs
      sweepConfig.capacities rows result.cacheEventFiles ∧
    result.rows = sortCapacityRows rows
  accepted_eq : result.acceptedCount = accepted
  rejected_eq : result.acceptedCount + result.rejectedCount = total

section Existence

variable {timelineMode : TimelineMode} {written : List ℕ+} {Runs : ℕ+ → List InstanceRun → Prop}

theorem Composes.runs {capacities : List ℕ+} {rows : List CapacitySweepRow}
    {files : List (ℕ+ × List CacheEvent)}
    (h : Composes timelineMode written Runs capacities rows files) :
    ∀ capacity ∈ capacities, ∃ runs, Runs capacity runs := by
  induction h with
  | nil => exact fun capacity hmem ↦ absurd hmem List.not_mem_nil
  | write _ hruns _ _ ih => exact List.forall_mem_cons.mpr ⟨⟨_, hruns⟩, ih⟩
  | skip _ hruns _ _ ih => exact List.forall_mem_cons.mpr ⟨⟨_, hruns⟩, ih⟩

/-- Nothing but the runs can keep a sweep from returning. -/
theorem composes_of_runs
    (hreportable : ∀ capacity runs, Runs capacity runs → AllReportable timelineMode runs)
    {capacities : List ℕ+} (h : ∀ capacity ∈ capacities, ∃ runs, Runs capacity runs) :
    ∃ rows files, Composes timelineMode written Runs capacities rows files := by
  induction capacities with
  | nil => exact ⟨[], [], .nil⟩
  | cons capacity capacities ih =>
    obtain ⟨⟨runs, hruns⟩, hrest⟩ := List.forall_mem_cons.mp h
    obtain ⟨rest, files, hcomposes⟩ := ih hrest
    obtain ⟨rows, hrows⟩ := (hreportable capacity runs hruns).runs_rows_ok capacity
    by_cases hwritten : capacity ∈ written
    · exact ⟨_, _, .write hwritten hruns hrows hcomposes⟩
    · exact ⟨_, _, .skip hwritten hruns hrows hcomposes⟩

theorem forall₂_exists {α β : Type} {R : α → β → Prop} {l : List α} :
    (∃ l', List.Forall₂ R l l') ↔ ∀ a ∈ l, ∃ b, R a b := by
  induction l with
  | nil => simp
  | cons a l ih =>
    rw [List.forall_mem_cons, ← ih]
    constructor
    · rintro ⟨_, hfirst | ⟨hfirst, hrest⟩⟩
      exact ⟨⟨_, hfirst⟩, _, hrest⟩
    · rintro ⟨⟨b, hfirst⟩, l', hrest⟩
      exact ⟨b :: l', .cons hfirst hrest⟩

theorem forall₂_instances {Run : String → InstanceRun → Prop}
    (hrun : ∀ instanceUuid run, Run instanceUuid run → run.instanceUuid = instanceUuid)
    {instances : List String} {runs : List InstanceRun} (h : List.Forall₂ Run instances runs) :
    runs.map InstanceRun.instanceUuid = instances ∧
      ∀ run ∈ runs, run.instanceUuid ∈ instances ∧ Run run.instanceUuid run := by
  induction h with
  | nil => exact ⟨rfl, fun run hmem ↦ absurd hmem List.not_mem_nil⟩
  | cons hfirst _ ih =>
    obtain ⟨hmap, hall⟩ := ih
    have heq := hrun _ _ hfirst
    refine ⟨congrArg₂ List.cons heq hmap, List.forall_mem_cons.mpr ⟨?_, fun run hmem ↦ ?_⟩⟩
    · rw [heq]
      exact ⟨List.mem_cons_self, hfirst⟩
    · exact ⟨List.mem_cons_of_mem _ (hall run hmem).1, (hall run hmem).2⟩

end Existence

section Runs

variable {sha256 : List UInt8 → List UInt8} {text : JsonText} {shardRoot : String}
  {buildRequest : TraceRecord → Except PromptTooLongError SimulationRequest}
  {records : List TraceRecord} {turns : ℕ}

/-- The runs of the instances of a trace. -/
theorem SweepTrace.runs_complete (h : SweepTrace sha256 text shardRoot buildRequest records)
    {runner : StreamingCapacitySweepRunner} {clock : Clock} {fuel : ℕ} {capacity : ℕ+}
    {instances : List String}
    (hmem : ∀ instanceUuid ∈ instances,
      instanceUuid ∈ instancesOf (acceptedRequests buildRequest records))
    {runs : List InstanceRun} (hruns : runner.AllRunAlone clock fuel capacity
      (requestsOf (acceptedRequests buildRequest records)) instances runs) :
    ∀ run ∈ runs, run.instanceUuid ∈ instances ∧
      runner.RunsAlone clock fuel capacity run.instanceUuid
        (requestsOf (acceptedRequests buildRequest records) run.instanceUuid) run ∧
      run.Complete runner.cacheMode.timelineMode run.instanceUuid
        (requestsOf (acceptedRequests buildRequest records) run.instanceUuid) := by
  intro run hrun
  obtain ⟨hinstance, halone⟩ :=
    (forall₂_instances (fun _ _ halone ↦ halone.instance_eq) hruns).2 run hrun
  obtain ⟨request, hrequest, heq⟩ := mem_instancesOf.mp (hmem _ hinstance)
  have hne : run.instanceUuid ≠ "" := heq ▸ h.instance_ne request hrequest
  exact ⟨hinstance, halone, halone.complete hne (h.distinct _) fun other hother ↦
    of_decide_eq_true (List.mem_filter.mp hother).2⟩

/-- A streaming sweep is put together from the runs of its instances. -/
theorem StreamingCapacitySweepRunner.run_composed {runner : StreamingCapacitySweepRunner}
    (clock : Clock) (fuel : ℕ)
    (h : SweepTrace sha256 text runner.builder.shardRoot buildRequest records)
    (hshipped : ServingBackend runner.latencyResolver.globalBackend)
    (hturns : (acceptedRequests buildRequest records).length < turns) (disk : Disk)
    (result : CapacitySweepResult) :
    (∃ resolved, runner.run text clock turns fuel sha256 buildRequest records disk {} =
        .ok result resolved) ↔
      result.Composed runner.cacheMode.timelineMode runner.sweepConfig
        (fun capacity ↦ runner.AllRunAlone clock fuel capacity
          (requestsOf (acceptedRequests buildRequest records))
          (Dict.inOrder (instancesOf (acceptedRequests buildRequest records))))
        (acceptedRequests buildRequest records).length records.length := by
  obtain ⟨built, disk', hbuild, haccepted, hcounted, hinstances, hserves⟩ :=
    h.build rfl hturns disk
  obtain ⟨hthere, hback⟩ := run_capacities_composes clock fuel
    (⟨hserves, hshipped⟩ : runner.Ready text disk' turns _ _) runner.sweepConfig.capacities
    (ResolvedBackends.filled_empty runner.latencyResolver)
  rw [hinstances] at hthere hback
  unfold run
  rw [hbuild]
  constructor
  · rintro ⟨resolved, hrun⟩
    simp only [bind_ok, check_ok] at hrun
    obtain ⟨⟨_, _⟩, _, ⟨hchecked, rfl⟩, ⟨rows, files⟩, _, hcapacities, hrun⟩ := hrun
    cases hchecked
    cases hrun
    exact ⟨⟨rows, hthere rows files _ hcapacities, rfl⟩, haccepted, hcounted⟩
  · rintro ⟨⟨rows, hcomposes, hrows⟩, haccepted', hcounted'⟩
    obtain ⟨resolved, hcapacities⟩ := hback rows _ hcomposes
    refine ⟨resolved, ?_⟩
    obtain ⟨resultRows, acceptedCount, rejectedCount, files⟩ := result
    dsimp only at hrows haccepted' hcounted' hcapacities
    have hrejected : rejectedCount = built.manifest.rejectedCount := by omega
    rw [hrows, haccepted', ← haccepted, hrejected]
    simp only [Except.mapError, bind_apply, check_ok_apply, hcapacities]
    rfl

/-- A streaming sweep returns if and only if each instance can be replayed at each capacity. -/
theorem StreamingCapacitySweepRunner.run_returns_iff {runner : StreamingCapacitySweepRunner}
    (clock : Clock) (fuel : ℕ)
    (h : SweepTrace sha256 text runner.builder.shardRoot buildRequest records)
    (hshipped : ServingBackend runner.latencyResolver.globalBackend)
    (hturns : (acceptedRequests buildRequest records).length < turns) (disk : Disk) :
    (∃ result resolved, runner.run text clock turns fuel sha256 buildRequest records disk {} =
        .ok result resolved) ↔
      ∀ capacity ∈ runner.sweepConfig.capacities,
        ∀ instanceUuid ∈ instancesOf (acceptedRequests buildRequest records), ∃ run,
          runner.RunsAlone clock fuel capacity instanceUuid
            (requestsOf (acceptedRequests buildRequest records) instanceUuid) run := by
  have hcomposed := run_composed clock fuel h hshipped hturns disk
  have hin : ∀ instanceUuid ∈ Dict.inOrder (instancesOf (acceptedRequests buildRequest records)),
      instanceUuid ∈ instancesOf (acceptedRequests buildRequest records) :=
    fun _ hmem ↦ Dict.mem_inOrder.mp hmem
  constructor
  · rintro ⟨result, hrun⟩ capacity hcapacity instanceUuid hmem
    obtain ⟨_, hcomposes, -⟩ := ((hcomposed result).mp hrun).rows
    exact forall₂_exists.mp (hcomposes.runs capacity hcapacity) instanceUuid
      (Dict.mem_inOrder.mpr hmem)
  · intro hruns
    have hall : ∀ capacity ∈ runner.sweepConfig.capacities, ∃ runs,
        runner.AllRunAlone clock fuel capacity (requestsOf (acceptedRequests buildRequest records))
          (Dict.inOrder (instancesOf (acceptedRequests buildRequest records))) runs :=
      fun capacity hcapacity ↦ forall₂_exists.mpr fun instanceUuid hmem ↦
        hruns capacity hcapacity instanceUuid (hin instanceUuid hmem)
    obtain ⟨rows, files, hcomposes⟩ := composes_of_runs
      (fun capacity runs hruns run hrun ↦ (h.runs_complete hin hruns run hrun).2.2.reportable) hall
    refine ⟨⟨sortCapacityRows rows, (acceptedRequests buildRequest records).length,
      records.length - (acceptedRequests buildRequest records).length, files⟩,
      (hcomposed _).mpr ⟨⟨rows, hcomposes, rfl⟩, rfl, ?_⟩⟩
    exact Nat.add_sub_cancel' (List.length_filterMap_le _ _)

/-- A sweep in memory is put together from the runs of its instances, once their start times can
be compared. -/
theorem CapacitySweepRunner.run_composed (runner : CapacitySweepRunner) (clock : Clock)
    (fuel : ℕ)
    (h : SweepTrace sha256 text shardRoot buildRequest records) {config : SchedulerConfig}
    {latencyBackend : BatchLatencyBackend}
    (hbackend : buildBatchLatencyBackend runner.config = .ok latencyBackend)
    (hconfig : buildSchedulerConfigFromConfig runner.config = .ok config)
    (result : CapacitySweepResult) :
    runner.run clock fuel buildRequest records = .ok result ↔
      TimesComparable (acceptedRequests buildRequest records) ∧
        result.Composed .legacy runner.sweepConfig
          (AllRunAlone config latencyBackend clock fuel
            (buildRequestLoop buildRequest records).inOrder.requests)
          (acceptedRequests buildRequest records).length records.length := by
  have hperm := build_requests_perm buildRequest records
  have hready : runner.Ready config latencyBackend
      (buildRequestLoop buildRequest records).inOrder.requests := by
    refine ⟨hbackend, hconfig, fun request hrequest ↦ ?_, fun instanceUuid ↦ ?_⟩
    · exact h.instance_ne request (hperm.mem_iff.mp hrequest)
    · exact ((hperm.filter _).map _).nodup_iff.mpr (h.distinct instanceUuid)
  have hcomposes := run_capacities_composes clock fuel hready runner.sweepConfig.capacities
  have haccepted : (buildRequestLoop buildRequest records).inOrder.acceptedCount =
      (acceptedRequests buildRequest records).length := hperm.length_eq
  have hcounted : (buildRequestLoop buildRequest records).inOrder.acceptedCount +
      (buildRequestLoop buildRequest records).inOrder.rejectedCount = records.length := by
    rw [haccepted, ← build_request_loop_requests]
    exact build_request_loop_counts records
  unfold run buildRequestsFromRecords
  dsimp only
  rw [build_request_loop_requests]
  by_cases htimes : TimesComparable (acceptedRequests buildRequest records)
  swap
  · rw [if_neg htimes]
    exact iff_of_false nofun fun hcomposed ↦ htimes hcomposed.1
  rw [if_pos htimes, and_iff_right htimes, except_ok_bind]
  constructor
  · intro hrun
    obtain ⟨⟨rows, files⟩, hcapacities, hrun⟩ := except_bind_ok.mp hrun
    cases hrun
    exact ⟨⟨rows, (hcomposes rows files).mp hcapacities, rfl⟩, haccepted, hcounted⟩
  · rintro ⟨⟨rows, hrest, hrows⟩, haccepted', hcounted'⟩
    obtain ⟨resultRows, acceptedCount, rejectedCount, files⟩ := result
    dsimp only at hrows haccepted' hcounted' hrest
    have hrejected : rejectedCount =
        (buildRequestLoop buildRequest records).inOrder.rejectedCount := by omega
    rw [hrows, haccepted', ← haccepted, hrejected]
    simp only [(hcomposes rows files).mpr hrest]
    rfl

end Runs

end InferTwin
