import InferTwin.Properties.SweepAgreement

namespace InferTwin

open Effect

section Keys

variable {α β : Type} {keyOf : α → String} {instanceOf : β → String} {keep : String → Bool}

theorem Dict.inOrder_filter (keep : String → Bool) (keys : Finset String) :
    Dict.inOrder (keys.filter fun key ↦ keep key) = (Dict.inOrder keys).filter keep := by
  have hnodup := (Dict.inOrder_nodup keys).filter keep
  have hkeys : keys.filter (fun key ↦ keep key) =
      ((Dict.inOrder keys).filter keep).toFinset := by
    ext key
    rw [Finset.mem_filter, List.mem_toFinset, List.mem_filter, Dict.mem_inOrder]
  rw [hkeys]
  exact (List.toFinset_sort (· ≤ ·) hnodup).mpr ((Finset.pairwise_sort keys (· ≤ ·)).filter _)

/-- What is left of some items, where each came with its instance. -/
theorem flatMap_filter_instances {κ : Type} {keyOf : α → κ} {instanceOf : β → κ}
    {keep : κ → Bool} {items : β → List α} {runs : List β}
    (h : ∀ run ∈ runs, ∀ item ∈ items run, keyOf item = instanceOf run) :
    (runs.filter fun run ↦ keep (instanceOf run)).flatMap items =
      (runs.flatMap items).filter fun item ↦ keep (keyOf item) := by
  induction runs with
  | nil => rfl
  | cons run runs ih =>
    obtain ⟨hrun, hruns⟩ := List.forall_mem_cons.mp h
    have hown : (items run).filter (fun item ↦ keep (keyOf item)) =
        if keep (instanceOf run) then items run else [] := by
      split_ifs with hkeep
      · refine List.filter_eq_self.mpr fun item hitem ↦ ?_
        rw [hrun item hitem]
        exact hkeep
      · refine List.filter_eq_nil_iff.mpr fun item hitem ↦ ?_
        rw [hrun item hitem]
        exact hkeep
    rw [List.flatMap_cons, List.filter_append, ← ih hruns, hown, List.filter_cons]
    split_ifs <;> rfl

theorem itemsOf_filter {items : List α} {key : String} (hkeep : keep key = true) :
    itemsOf keyOf (items.filter fun item ↦ keep (keyOf item)) key = itemsOf keyOf items key := by
  rw [itemsOf, itemsOf, List.filter_filter]
  refine List.filter_congr fun item _ ↦ ?_
  rcases eq_or_ne (keyOf item) key with rfl | hne
  · rw [hkeep, Bool.and_true]
  · rw [decide_eq_false hne, Bool.false_and]

theorem group_items_filter (items : List α) :
    (groupItems keyOf (items.filter fun item ↦ keep (keyOf item))).sortedKeys =
      (groupItems keyOf items).sortedKeys.filter keep := by
  rw [Dict.sortedKeys, Dict.sortedKeys, group_items_keys, group_items_keys, ← Dict.inOrder_filter]
  congr 1
  ext key
  simp only [List.mem_toFinset, List.mem_map, List.mem_filter, Finset.mem_filter]
  constructor
  · rintro ⟨item, ⟨hitem, hkeep⟩, rfl⟩
    exact ⟨⟨item, hitem, rfl⟩, hkeep⟩
  · rintro ⟨⟨item, hitem, rfl⟩, hkeep⟩
    exact ⟨item, ⟨hitem, hkeep⟩, rfl⟩

variable (keep) in
theorem forall₂_filter {Run : String → β → Prop}
    (hrun : ∀ instanceUuid run, Run instanceUuid run → instanceOf run = instanceUuid)
    {instances : List String} {runs : List β} (h : List.Forall₂ Run instances runs) :
    List.Forall₂ Run (instances.filter keep) (runs.filter fun run ↦ keep (instanceOf run)) := by
  induction h with
  | nil => exact .nil
  | cons hfirst _ ih =>
    rw [List.filter_cons, List.filter_cons, hrun _ _ hfirst]
    split_ifs
    · exact .cons hfirst ih
    · exact ih

end Keys

section Rows

variable {timelineMode : TimelineMode} {written : List ℕ+} {keep : String → Bool}
  {runs : List InstanceRun} {rows : List CapacitySweepRow} {capacity : ℕ+}

/-- The rows of the instances that are kept. -/
def instanceRows (keep : String → Bool) (rows : List CapacitySweepRow) : List CapacitySweepRow :=
  rows.filter fun row ↦ row.scope = .oneInstance ∧ keep row.instanceUuid

theorem instance_rows_append (keep : String → Bool) (rows rows' : List CapacitySweepRow) :
    instanceRows keep (rows ++ rows') = instanceRows keep rows ++ instanceRows keep rows' :=
  List.filter_append ..

/-- The rows of a capacity without its first. -/
theorem instance_rows_of {row : CapacitySweepRow} {rowOf : String → CapacitySweepRow}
    {capacity : ℤ} (hrow : row.Stands capacity .trace "")
    (hrowOf : ∀ instanceUuid, (rowOf instanceUuid).Stands capacity .oneInstance instanceUuid)
    (keys : List String) :
    instanceRows keep (row :: keys.map rowOf) = (keys.filter keep).map rowOf := by
  have htrace : decide (row.scope = .oneInstance ∧ keep row.instanceUuid) = false := by
    rw [hrow.scope_eq]
    rfl
  have hkeep : (fun row : CapacitySweepRow ↦ decide (row.scope = .oneInstance ∧
      keep row.instanceUuid)) ∘ rowOf = keep := by
    funext instanceUuid
    rw [Function.comp_apply, (hrowOf instanceUuid).scope_eq, (hrowOf instanceUuid).instance_eq]
    simp
  rw [instanceRows, List.filter_cons, htrace, List.filter_map, hkeep]
  rfl

/-- Runs that name their instances in what they report. -/
def AllNamed (timelineMode : TimelineMode) (runs : List InstanceRun) : Prop :=
  ∀ run ∈ runs, ∃ requests, run.Complete timelineMode run.instanceUuid requests

theorem AllNamed.reportable (h : AllNamed timelineMode runs) : AllReportable timelineMode runs := by
  intro run hrun
  obtain ⟨_, hcomplete⟩ := h run hrun
  exact hcomplete.reportable

theorem AllNamed.filter (h : AllNamed timelineMode runs) (keep : InstanceRun → Bool) :
    AllNamed timelineMode (runs.filter keep) :=
  fun run hrun ↦ h run (List.mem_of_mem_filter hrun)

/-- Some of the runs report the rows of their instances. -/
theorem AllNamed.runs_rows_filter (h : AllNamed timelineMode runs)
    (hrows : runsRows capacity timelineMode runs = .ok rows) :
    ∃ rows', runsRows capacity timelineMode (runs.filter fun run ↦ keep run.instanceUuid) =
        .ok rows' ∧
      instanceRows (fun _ ↦ true) rows' = instanceRows keep rows := by
  have hrequests : (runs.filter fun run ↦ keep run.instanceUuid).flatMap
      InstanceRun.requestMetrics = (runs.flatMap InstanceRun.requestMetrics).filter
        fun metric ↦ keep metric.instanceUuid :=
    flatMap_filter_instances fun run hrun metric hmetric ↦ by
      obtain ⟨_, hcomplete⟩ := h run hrun
      exact hcomplete.requests_on metric hmetric
  have hiterations : (runs.filter fun run ↦ keep run.instanceUuid).flatMap
      InstanceRun.iterationMetrics = (runs.flatMap InstanceRun.iterationMetrics).filter
        fun metric ↦ keep metric.instanceUuid :=
    flatMap_filter_instances fun run hrun metric hmetric ↦ by
      obtain ⟨_, hcomplete⟩ := h run hrun
      exact hcomplete.iterations_on metric hmetric
  obtain ⟨row, rowOf, -, hrow, hrowOf, hstandsOf, hbuilt⟩ := h.reportable.flat.capacity_rows
    (capacity : ℕ) { totalEvents := (runs.flatMap InstanceRun.cacheEvents).length }
  obtain ⟨row', rowOf', -, hrow', hrowOf', hstandsOf', hbuilt'⟩ :=
    (h.filter fun run ↦ keep run.instanceUuid).reportable.flat.capacity_rows (capacity : ℕ) {
      totalEvents := ((runs.filter fun run ↦ keep run.instanceUuid).flatMap
        InstanceRun.cacheEvents).length }
  cases hrows.symm.trans hbuilt
  refine ⟨_, hbuilt', ?_⟩
  rw [instance_rows_of hrow hstandsOf, instance_rows_of hrow' hstandsOf', List.filter_true,
    hrequests, group_items_filter]
  refine List.map_congr_left fun instanceUuid hmem ↦ ?_
  have hkeep : keep instanceUuid = true := (List.mem_filter.mp hmem).2
  have hown := hrowOf' instanceUuid
  rw [hrequests, hiterations, itemsOf_filter hkeep, itemsOf_filter hkeep] at hown
  exact Except.ok.inj (hown.symm.trans (hrowOf instanceUuid))

/-- Two files of cache events of one capacity, where the first has some of the events. -/
def KeepsEvents (file file' : ℕ+ × List CacheEvent) : Prop :=
  file.1 = file'.1 ∧ file.2.Sublist file'.2

theorem Composes.filter {Runs Runs' : ℕ+ → List InstanceRun → Prop}
    (hnamed : ∀ capacity runs, Runs capacity runs → AllNamed timelineMode runs)
    (hRuns : ∀ capacity runs, Runs capacity runs →
      Runs' capacity (runs.filter fun run ↦ keep run.instanceUuid))
    {capacities : List ℕ+} {files : List (ℕ+ × List CacheEvent)}
    (h : Composes timelineMode written Runs capacities rows files) :
    ∃ rows' files', Composes timelineMode written Runs' capacities rows' files' ∧
      instanceRows (fun _ ↦ true) rows' = instanceRows keep rows ∧
      List.Forall₂ KeepsEvents files' files := by
  induction h with
  | nil => exact ⟨[], [], .nil, rfl, .nil⟩
  | write hwritten hruns hrows _ ih =>
    obtain ⟨rest, files', hcomposes, hrest, hfiles⟩ := ih
    obtain ⟨own, hown, heq⟩ := (hnamed _ _ hruns).runs_rows_filter hrows
    refine ⟨own ++ rest, _, .write hwritten (hRuns _ _ hruns) hown hcomposes, ?_,
      .cons ⟨rfl, List.filter_sublist.flatMap _⟩ hfiles⟩
    rw [instance_rows_append, instance_rows_append, heq, hrest]
  | skip hwritten hruns hrows _ ih =>
    obtain ⟨rest, files', hcomposes, hrest, hfiles⟩ := ih
    obtain ⟨own, hown, heq⟩ := (hnamed _ _ hruns).runs_rows_filter hrows
    refine ⟨own ++ rest, files', .skip hwritten (hRuns _ _ hruns) hown hcomposes, ?_, hfiles⟩
    rw [instance_rows_append, instance_rows_append, heq, hrest]

theorem instance_rows_sorted (keep : String → Bool) (rows : List CapacitySweepRow) :
    instanceRows keep (sortCapacityRows rows) = sortCapacityRows (instanceRows keep rows) :=
  StableSort.filter_sort_key CapacitySweepRow.sortKey _ rows

end Rows

section Trace

variable {sha256 : List UInt8 → List UInt8} {text : JsonText} {shardRoot : String}
  {buildRequest : TraceRecord → Except PromptTooLongError SimulationRequest}
  {records : List TraceRecord} {keep : String → Bool}

/-- Some of the rows of a trace. -/
theorem SweepTrace.filter (h : SweepTrace sha256 text shardRoot buildRequest records)
    (kept : TraceRecord → Bool) :
    SweepTrace sha256 text shardRoot buildRequest (records.filter kept) where
  sorted := h.sorted.filter _
  builds record hrecord := h.builds record (List.mem_of_mem_filter hrecord)
  distinct instanceUuid := by
    have hsublist : (acceptedRequests buildRequest (records.filter kept)).Sublist
        (acceptedRequests buildRequest records) := List.filter_sublist.filterMap _
    exact (h.distinct instanceUuid).sublist ((hsublist.filter _).map _)
  paths := by
    refine h.paths.mono ?_
    rintro _ ⟨record, hrecord, rfl⟩
    exact ⟨record, List.mem_of_mem_filter hrecord, rfl⟩

/-- The requests of some of the instances. -/
theorem SweepTrace.accepted_filter
    (h : SweepTrace sha256 text shardRoot buildRequest records) (keep : String → Bool) :
    acceptedRequests buildRequest (records.filter fun record ↦ keep record.instanceUuid) =
      (acceptedRequests buildRequest records).filter fun request ↦ keep request.instanceUuid := by
  rw [acceptedRequests, acceptedRequests, List.filterMap_filter, List.filter_filterMap]
  refine List.filterMap_congr fun record hrecord ↦ ?_
  cases hresult : buildRequest record with
  | error error => cases keep record.instanceUuid <;> rfl
  | ok request =>
    have hinstance := (h.builds record hrecord request hresult).instance_uuid
    show _ = Option.filter _ (some request)
    rw [Option.filter_some, hinstance]
    rfl

theorem instancesOf_filter (requests : List SimulationRequest) :
    instancesOf (requests.filter fun request ↦ keep request.instanceUuid) =
      (instancesOf requests).filter fun instanceUuid ↦ keep instanceUuid := by
  ext instanceUuid
  rw [mem_instancesOf, Finset.mem_filter, mem_instancesOf]
  constructor
  · rintro ⟨request, hrequest, rfl⟩
    obtain ⟨hmem, hkeep⟩ := List.mem_filter.mp hrequest
    exact ⟨⟨request, hmem, rfl⟩, hkeep⟩
  · rintro ⟨⟨request, hrequest, rfl⟩, hkeep⟩
    exact ⟨request, List.mem_filter.mpr ⟨hrequest, hkeep⟩, rfl⟩

variable {turns : ℕ} {runner : StreamingCapacitySweepRunner}

variable (keep) in
/-- The runs of the instances that are kept. -/
theorem StreamingCapacitySweepRunner.AllRunAlone.filter {clock : Clock} {fuel : ℕ}
    {capacity : ℕ+} {requests : List SimulationRequest} {runs : List InstanceRun}
    (h : runner.AllRunAlone clock fuel capacity (requestsOf requests)
      (Dict.inOrder (instancesOf requests)) runs) :
    runner.AllRunAlone clock fuel capacity
      (requestsOf (requests.filter fun request ↦ keep request.instanceUuid))
      (Dict.inOrder (instancesOf (requests.filter fun request ↦ keep request.instanceUuid)))
      (runs.filter fun run ↦ keep run.instanceUuid) := by
  rw [instancesOf_filter, Dict.inOrder_filter]
  have hkeep : ∀ instanceUuid ∈ (Dict.inOrder (instancesOf requests)).filter keep,
      keep instanceUuid = true := fun _ hmem ↦ (List.mem_filter.mp hmem).2
  have hfilter := forall₂_filter keep (fun _ _ halone ↦ halone.instance_eq) h
  refine ((List.forall₂_and_left _ _).mpr ⟨hkeep, hfilter⟩).imp fun instanceUuid run hrun ↦ ?_
  rw [requestsOf, itemsOf_filter hrun.1]
  exact hrun.2

/-- A sweep over some of the instances of a trace reports the rows of these in the sweep over
the whole trace, and it writes some of the cache events. Where each instance alone can be swept,
the whole trace can be. -/
theorem sweep_rows_of_instances {loadYaml : String → Except ConfigError Json}
    {config : List (String × Json)} {tracePath : String}
    (hcreate : StreamingCapacitySweepRunner.create loadYaml config tracePath = .ok runner)
    (htrace : SweepTrace sha256 text runner.builder.shardRoot buildRequest records)
    (hturns : (acceptedRequests buildRequest records).length < turns) (clock : Clock) (fuel : ℕ)
    (disk disk' : Disk) :
    (∀ keep result resolved,
      runner.run text clock turns fuel sha256 buildRequest records disk {} = .ok result resolved →
      ∃ part resolved', runner.run text clock turns fuel sha256 buildRequest
          (records.filter fun record ↦ keep record.instanceUuid) disk' {} = .ok part resolved' ∧
        instanceRows (fun _ ↦ true) part.rows = instanceRows keep result.rows ∧
        List.Forall₂ KeepsEvents part.cacheEventFiles result.cacheEventFiles) ∧
    ((∀ instanceUuid, ∃ part resolved', runner.run text clock turns fuel sha256 buildRequest
        (records.filter fun record ↦ record.instanceUuid = instanceUuid) disk' {} =
          .ok part resolved') →
      ∃ result resolved, runner.run text clock turns fuel sha256 buildRequest records disk {} =
        .ok result resolved) := by
  have hglobal := build_batch_latency_backend_shipped (build_resolver_global
    (StreamingCapacitySweepRunner.create_reads hcreate).2.1)
  have hshort (keep : String → Bool) : (acceptedRequests buildRequest
      (records.filter fun record ↦ keep record.instanceUuid)).length < turns := by
    rw [htrace.accepted_filter keep]
    exact (List.length_filter_le _ _).trans_lt hturns
  have hin : ∀ instanceUuid ∈ Dict.inOrder (instancesOf (acceptedRequests buildRequest records)),
      instanceUuid ∈ instancesOf (acceptedRequests buildRequest records) :=
    fun _ hmem ↦ Dict.mem_inOrder.mp hmem
  constructor
  · intro keep result resolved hrun
    have hcomposed := (StreamingCapacitySweepRunner.run_composed clock fuel htrace hglobal hturns
      disk result).mp ⟨resolved, hrun⟩
    obtain ⟨rows, hcomposes, hrows⟩ := hcomposed.rows
    have hnamed (capacity : ℕ+) (runs : List InstanceRun)
        (hruns : runner.AllRunAlone clock fuel capacity
          (requestsOf (acceptedRequests buildRequest records))
          (Dict.inOrder (instancesOf (acceptedRequests buildRequest records))) runs) :
        AllNamed runner.cacheMode.timelineMode runs :=
      fun run hrun ↦ ⟨_, (htrace.runs_complete hin hruns run hrun).2.2⟩
    obtain ⟨own, files, hown, heq, hfiles⟩ := hcomposes.filter hnamed fun capacity runs hruns ↦
      hruns.filter keep
    obtain ⟨resolved', hpart⟩ := (StreamingCapacitySweepRunner.run_composed clock fuel
      (htrace.filter fun record ↦ keep record.instanceUuid) hglobal (hshort keep) disk' {
        rows := sortCapacityRows own
        acceptedCount := (acceptedRequests buildRequest
          (records.filter fun record ↦ keep record.instanceUuid)).length
        rejectedCount := (records.filter fun record ↦ keep record.instanceUuid).length -
          (acceptedRequests buildRequest
            (records.filter fun record ↦ keep record.instanceUuid)).length
        cacheEventFiles := files }).mpr ⟨⟨own, htrace.accepted_filter keep ▸ hown, rfl⟩, rfl,
          Nat.add_sub_cancel' (List.length_filterMap_le _ _)⟩
    refine ⟨_, resolved', hpart, ?_, hfiles⟩
    rw [instance_rows_sorted, hrows, instance_rows_sorted, heq]
  · intro hparts
    refine (StreamingCapacitySweepRunner.run_returns_iff clock fuel htrace hglobal hturns
      disk).mpr fun capacity hcapacity instanceUuid hmem ↦ ?_
    have hpart (keep : String → Bool) (hkeep : keep instanceUuid = true)
        (hreturns : ∃ part resolved', runner.run text clock turns fuel sha256 buildRequest
          (records.filter fun record ↦ keep record.instanceUuid) disk' {} = .ok part resolved') :
        ∃ run, runner.RunsAlone clock fuel capacity instanceUuid
          (requestsOf (acceptedRequests buildRequest records) instanceUuid) run := by
      have hruns := (StreamingCapacitySweepRunner.run_returns_iff clock fuel (htrace.filter _)
        hglobal (hshort keep) disk').mp hreturns
      rw [htrace.accepted_filter keep, instancesOf_filter] at hruns
      obtain ⟨run, halone⟩ := hruns capacity hcapacity instanceUuid
        (Finset.mem_filter.mpr ⟨hmem, hkeep⟩)
      rw [requestsOf, itemsOf_filter hkeep] at halone
      exact ⟨run, halone⟩
    exact hpart (fun key ↦ key = instanceUuid) (decide_eq_true rfl) (hparts instanceUuid)

/-- One instance of the sample. -/
theorem sweep_rows_of_instances_one : ∃ streaming, StreamingCapacitySweepRunner.create
      Sample.noYaml (Sample.sweepSections "capacity_sweep_streaming") "trace.csv" =
        .ok streaming ∧
    ∃ result resolved part resolved', streaming.run Sample.shardJson .exact 4 9 Sample.shardDigest
        Sample.buildRow Sample.rows ∅ {} = .ok result resolved ∧
      streaming.run Sample.shardJson .exact 4 9 Sample.shardDigest Sample.buildRow
        (Sample.rows.filter fun record ↦ record.instanceUuid = "a") ∅ {} = .ok part resolved' ∧
      instanceRows (fun _ ↦ true) part.rows = instanceRows (fun key ↦ key = "a") result.rows := by
  obtain ⟨streaming, hstreaming, -, htrace, hturns, result, resolved, hrun⟩ :=
    Sample.streaming_sweep_returns
  obtain ⟨part, resolved', hpart, hrows, -⟩ := (sweep_rows_of_instances hstreaming htrace hturns
    .exact 9 ∅ ∅).1 (fun key ↦ key = "a") result resolved hrun
  exact ⟨streaming, hstreaming, result, resolved, part, resolved', hrun, hpart, hrows⟩

end Trace

end InferTwin
