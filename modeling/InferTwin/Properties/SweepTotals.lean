import InferTwin.Properties.Percentile
import InferTwin.Properties.SweepInstances

namespace InferTwin

open Effect

section Columns

/-- A column of the rows that adds up over the metrics. -/
structure Column (M : Type) where
  ofRow : CapacitySweepRow → M
  ofRequest : BatchAwareRequestMetrics → M
  ofIteration : IterationMetrics → M

def requestCountColumn : Column ℕ := ⟨(·.requestCount), fun _ ↦ 1, fun _ ↦ 0⟩

def promptTokensColumn : Column ℕ := ⟨(·.totalPromptTokens), (·.promptTokens), fun _ ↦ 0⟩

def countColumns : List (Column ℕ) := [
  requestCountColumn,
  ⟨(·.iterationCount), fun _ ↦ 0, fun _ ↦ 1⟩,
  promptTokensColumn,
  ⟨(·.hbmHitTokens), (·.hbmHitTokens), fun _ ↦ 0⟩,
  ⟨(·.ddrHitTokens), (·.ddrHitTokens), fun _ ↦ 0⟩,
  ⟨(·.missTokens), (·.missTokens), fun _ ↦ 0⟩,
  ⟨(·.totalHitTokens), fun metric ↦ metric.hbmHitTokens + metric.ddrHitTokens, fun _ ↦ 0⟩,
  ⟨(·.totalChunkCount), (·.chunkCount), fun _ ↦ 0⟩,
  ⟨(·.totalLoadEventCount), (·.loadEventCount), fun _ ↦ 0⟩,
  ⟨(·.totalProgressiveMaterializedBlocks), (·.progressiveMaterializedBlocks), fun _ ↦ 0⟩,
  ⟨(·.totalProgressiveMaterializedTokens), (·.progressiveMaterializedTokens), fun _ ↦ 0⟩,
  ⟨(·.totalWaitingForComputeCount), fun _ ↦ 0, (·.waitingForComputeCount)⟩,
  ⟨(·.totalWaitingForKvLoadCount), fun _ ↦ 0, (·.waitingForKvLoadCount)⟩,
  ⟨(·.totalScheduledChunkCount), fun _ ↦ 0, (·.scheduledChunkCount)⟩]

def timeColumns : List (Column ℚ) := [
  ⟨(·.totalKvLoadMs), (·.kvLoadMs), fun _ ↦ 0⟩,
  ⟨(·.totalComputeWaitMs), (·.computeWaitMs), fun _ ↦ 0⟩,
  ⟨(·.totalKvLoadWaitMs), (·.kvLoadWaitMs), fun _ ↦ 0⟩,
  ⟨(·.totalUncachedPrefillComputeMs), (·.uncachedPrefillComputeMs), fun _ ↦ 0⟩,
  ⟨(·.totalUnattributedTtftMs), (·.unattributedTtftMs), fun _ ↦ 0⟩]

theorem request_count_mem : requestCountColumn ∈ countColumns := by simp [countColumns]

theorem prompt_tokens_mem : promptTokensColumn ∈ countColumns := by simp [countColumns]

variable {M : Type} [AddCommMonoid M]

/-- What the metrics come to in a column. -/
def Column.total (column : Column M) (requests : List BatchAwareRequestMetrics)
    (iterations : List IterationMetrics) : M :=
  (requests.map column.ofRequest).sum + (iterations.map column.ofIteration).sum

/-- A row that has the totals of some metrics. -/
structure CapacitySweepRow.Sums (row : CapacitySweepRow)
    (requests : List BatchAwareRequestMetrics) (iterations : List IterationMetrics)
    (cacheEventCount : ℕ) : Prop where
  counts : ∀ column ∈ countColumns, column.ofRow row = column.total requests iterations
  times : ∀ column ∈ timeColumns, column.ofRow row = column.total requests iterations
  events : row.cacheEventCount = cacheEventCount
  tokens : row.hbmHitTokens + row.ddrHitTokens + row.missTokens = row.totalPromptTokens

variable {capacity : ℤ} {scope : RowScope} {instanceUuid : String}
  {requests : List BatchAwareRequestMetrics} {iterations : List IterationMetrics}
  {cacheEventCount : ℕ} {timelineMode ttftGranularity : String} {row : CapacitySweepRow}

theorem aggregate_row_sums (h : aggregateRow capacity scope instanceUuid requests iterations
    cacheEventCount timelineMode ttftGranularity = .ok row) :
    row.Sums requests iterations cacheEventCount := by
  unfold aggregateRow at h
  dsimp only at h
  split_ifs at h with htokens
  · cases h
  · iterate 15
      obtain ⟨_, -, h⟩ := except_bind_ok.mp h
    cases h
    refine ⟨?_, ?_, rfl, not_not.mp htokens⟩
    · simp [countColumns, requestCountColumn, promptTokensColumn, Column.total]
    · simp [timeColumns, Column.total]

theorem CapacitySweepRow.Sums.request_count (h : row.Sums requests iterations cacheEventCount) :
    row.requestCount = requests.length := by
  have hcount := h.counts requestCountColumn request_count_mem
  simpa [requestCountColumn, Column.total] using hcount

theorem CapacitySweepRow.Sums.prompt_tokens (h : row.Sums requests iterations cacheEventCount) :
    row.totalPromptTokens = (requests.map BatchAwareRequestMetrics.promptTokens).sum := by
  have hprompt := h.counts promptTokensColumn prompt_tokens_mem
  simpa [promptTokensColumn, Column.total] using hprompt

/-- Metrics with the tags of some requests have their number and their tokens. -/
theorem tags_account {requests : List SimulationRequest} {metrics : List BatchAwareRequestMetrics}
    (h : (metrics.map BatchAwareRequestMetrics.tag).Perm (requests.map SimulationRequest.tag)) :
    metrics.length = requests.length ∧
      (metrics.map BatchAwareRequestMetrics.promptTokens).sum =
        (requests.map SimulationRequest.promptTokens).sum := by
  constructor
  · have hlength := h.length_eq
    rwa [List.length_map, List.length_map] at hlength
  · have hsum := (h.map Tag.promptTokens).sum_eq
    rw [List.map_map, List.map_map] at hsum
    exact hsum

/-- The percentiles of a column, in order. -/
theorem percentile_mono {values : List ℚ} {p q low high : ℚ} (hpos : 0 < p) (hpq : p ≤ q)
    (hle : q ≤ 100) (hlow : percentile values p = .ok low) (hhigh : percentile values q = .ok high) :
    low ≤ high := by
  rcases eq_or_ne values [] with rfl | hne
  · cases hlow
    cases hhigh
    exact le_rfl
  · rw [percentile_eq hne hpos (hpq.trans hle)] at hlow
    rw [percentile_eq hne (hpos.trans_le hpq) hle] at hhigh
    cases hlow
    cases hhigh
    have hhigh := (nearest_rank_value_le_iff hne (hpos.trans_le hpq) hle _).mp le_rfl
    refine (nearest_rank_value_le_iff hne hpos (hpq.trans hle) _).mpr (le_trans ?_ hhigh)
    exact mul_le_mul_of_nonneg_right hpq (Nat.cast_nonneg _)

/-- A row whose percentiles are in order, and whose hit rates are parts of one. -/
structure CapacitySweepRow.Sane (row : CapacitySweepRow) : Prop where
  ttft : row.p50TtftMs ≤ row.p90TtftMs ∧ row.p90TtftMs ≤ row.p99TtftMs
  kv_load : row.p50KvLoadMs ≤ row.p90KvLoadMs ∧ row.p90KvLoadMs ≤ row.p99KvLoadMs
  compute_wait : row.p50ComputeWaitMs ≤ row.p90ComputeWaitMs ∧
    row.p90ComputeWaitMs ≤ row.p99ComputeWaitMs
  kv_load_wait : row.p50KvLoadWaitMs ≤ row.p90KvLoadWaitMs ∧
    row.p90KvLoadWaitMs ≤ row.p99KvLoadWaitMs
  rates : 0 ≤ row.hbmHitRate ∧ 0 ≤ row.ddrHitRate ∧
    row.kvHitRate = row.hbmHitRate + row.ddrHitRate ∧ row.kvHitRate ≤ 1

theorem sweep_rate_nonneg {numerator denominator : ℕ} :
    0 ≤ sweepRate (numerator : ℚ) denominator := by
  unfold sweepRate
  split_ifs
  · exact le_rfl
  · positivity

theorem sweep_rate_add (numerator numerator' denominator : ℕ) :
    sweepRate ((numerator + numerator' : ℕ) : ℚ) denominator =
      sweepRate (numerator : ℚ) denominator + sweepRate (numerator' : ℚ) denominator := by
  unfold sweepRate
  split_ifs
  · exact (add_zero 0).symm
  · rw [Nat.cast_add, add_div]

theorem sweep_rate_le_one {numerator denominator : ℕ} (h : numerator ≤ denominator) :
    sweepRate (numerator : ℚ) denominator ≤ 1 := by
  unfold sweepRate
  split_ifs
  · exact zero_le_one
  · exact div_le_one_of_le₀ (Nat.cast_le.mpr h) (Nat.cast_nonneg _)

theorem aggregate_row_sane (h : aggregateRow capacity scope instanceUuid requests iterations
    cacheEventCount timelineMode ttftGranularity = .ok row) : row.Sane := by
  have hmono {values : List ℚ} {p50 p90 p99 : ℚ} (h50 : percentile values 50 = .ok p50)
      (h90 : percentile values 90 = .ok p90) (h99 : percentile values 99 = .ok p99) :
      p50 ≤ p90 ∧ p90 ≤ p99 :=
    ⟨percentile_mono (by norm_num) (by norm_num) (by norm_num) h50 h90,
      percentile_mono (by norm_num) (by norm_num) (by norm_num) h90 h99⟩
  unfold aggregateRow at h
  dsimp only at h
  split_ifs at h with htokens
  · cases h
  · obtain ⟨_, -, h⟩ := except_bind_ok.mp h
    obtain ⟨_, -, h⟩ := except_bind_ok.mp h
    obtain ⟨_, httft50, h⟩ := except_bind_ok.mp h
    obtain ⟨_, httft90, h⟩ := except_bind_ok.mp h
    obtain ⟨_, httft99, h⟩ := except_bind_ok.mp h
    obtain ⟨_, hload50, h⟩ := except_bind_ok.mp h
    obtain ⟨_, hload90, h⟩ := except_bind_ok.mp h
    obtain ⟨_, hload99, h⟩ := except_bind_ok.mp h
    obtain ⟨_, hcompute50, h⟩ := except_bind_ok.mp h
    obtain ⟨_, hcompute90, h⟩ := except_bind_ok.mp h
    obtain ⟨_, hcompute99, h⟩ := except_bind_ok.mp h
    obtain ⟨_, hwait50, h⟩ := except_bind_ok.mp h
    obtain ⟨_, hwait90, h⟩ := except_bind_ok.mp h
    obtain ⟨_, hwait99, h⟩ := except_bind_ok.mp h
    obtain ⟨_, -, h⟩ := except_bind_ok.mp h
    cases h
    refine ⟨hmono httft50 httft90 httft99, hmono hload50 hload90 hload99,
      hmono hcompute50 hcompute90 hcompute99, hmono hwait50 hwait90 hwait99,
      sweep_rate_nonneg, sweep_rate_nonneg, sweep_rate_add _ _ _, sweep_rate_le_one ?_⟩
    rw [← not_not.mp htokens]
    exact Nat.le_add_right _ _

end Columns

section Keys

variable {α β κ : Type} [DecidableEq κ] {keyOf : α → κ} {instanceOf : β → κ}
  {items : β → List α} {runs : List β}

theorem filter_instance_eq (hd : (runs.map instanceOf).Nodup) {run : β} (hrun : run ∈ runs) :
    (runs.filter fun other ↦ instanceOf other = instanceOf run) = [run] := by
  induction runs with
  | nil => cases hrun
  | cons first runs ih =>
    obtain ⟨hfirst, hd⟩ := List.nodup_cons.mp hd
    rcases List.mem_cons.mp hrun with rfl | hrun
    · rw [List.filter_cons, if_pos (decide_eq_true rfl)]
      refine congrArg (List.cons run) (List.filter_eq_nil_iff.mpr fun other hother heq ↦ hfirst ?_)
      rw [← of_decide_eq_true heq]
      exact List.mem_map_of_mem hother
    · rw [List.filter_cons_of_neg]
      · exact ih hd hrun
      · intro heq
        refine hfirst ?_
        rw [of_decide_eq_true heq]
        exact List.mem_map_of_mem hrun

/-- The items that came with one of the runs. -/
theorem filter_flatMap_eq (h : ∀ run ∈ runs, ∀ item ∈ items run, keyOf item = instanceOf run)
    (hd : (runs.map instanceOf).Nodup) {run : β} (hrun : run ∈ runs) :
    ((runs.flatMap items).filter fun item ↦ keyOf item = instanceOf run) = items run := by
  have hpart := @flatMap_filter_instances _ _ _ _ _ (fun key ↦ key = instanceOf run) _ _ h
  rw [filter_instance_eq hd hrun] at hpart
  exact hpart.symm.trans (List.flatMap_singleton _ _)

end Keys

section Runs

variable {timelineMode : TimelineMode} {capacity : ℕ+} {requests : List SimulationRequest}
  {runs : List InstanceRun} {rows : List CapacitySweepRow}

/-- The rows of a capacity account for all the requests: one row for the trace, whose counts
and times are those of the instances together, and one for each instance with requests. -/
structure RowsAccount (requests : List SimulationRequest) (trace : CapacitySweepRow)
    (rows : List CapacitySweepRow) : Prop where
  scopes : trace.scope = .trace ∧ ∀ row ∈ rows, row.scope = .oneInstance
  instances : rows.map CapacitySweepRow.instanceUuid = Dict.inOrder (instancesOf requests)
  trace_eq : trace.requestCount = requests.length ∧
    trace.totalPromptTokens = (requests.map SimulationRequest.promptTokens).sum
  own : ∀ row ∈ rows, row.requestCount = (requestsOf requests row.instanceUuid).length ∧
    row.totalPromptTokens =
      ((requestsOf requests row.instanceUuid).map SimulationRequest.promptTokens).sum
  counts : ∀ column ∈ countColumns, column.ofRow trace = (rows.map column.ofRow).sum
  times : ∀ column ∈ timeColumns, column.ofRow trace = (rows.map column.ofRow).sum
  tokens : ∀ row ∈ trace :: rows,
    row.hbmHitTokens + row.ddrHitTokens + row.missTokens = row.totalPromptTokens
  sane : ∀ row ∈ trace :: rows, row.Sane

/-- The runs of all instances with requests. -/
structure RunsComplete (timelineMode : TimelineMode) (requests : List SimulationRequest)
    (runs : List InstanceRun) : Prop where
  instances : runs.map InstanceRun.instanceUuid = Dict.inOrder (instancesOf requests)
  complete : ∀ run ∈ runs,
    run.Complete timelineMode run.instanceUuid (requestsOf requests run.instanceUuid)

namespace RunsComplete

theorem named (h : RunsComplete timelineMode requests runs) : AllNamed timelineMode runs :=
  fun run hrun ↦ ⟨_, h.complete run hrun⟩

theorem nodup (h : RunsComplete timelineMode requests runs) :
    (runs.map InstanceRun.instanceUuid).Nodup := by
  rw [h.instances]
  exact Dict.inOrder_nodup _

theorem requests_of (h : RunsComplete timelineMode requests runs) {run : InstanceRun}
    (hrun : run ∈ runs) :
    itemsOf BatchAwareRequestMetrics.instanceUuid (runs.flatMap InstanceRun.requestMetrics)
      run.instanceUuid = run.requestMetrics :=
  filter_flatMap_eq (fun run hrun ↦ (h.complete run hrun).requests_on) h.nodup hrun

/-- The request metrics of an instance, with the tags of its requests. -/
theorem tags (h : RunsComplete timelineMode requests runs) {instanceUuid : String}
    (hmem : instanceUuid ∈ Dict.inOrder (instancesOf requests)) :
    ((itemsOf BatchAwareRequestMetrics.instanceUuid (runs.flatMap InstanceRun.requestMetrics)
      instanceUuid).map BatchAwareRequestMetrics.tag).Perm
        ((requestsOf requests instanceUuid).map SimulationRequest.tag) := by
  rw [← h.instances] at hmem
  obtain ⟨run, hrun, rfl⟩ := List.mem_map.mp hmem
  rw [h.requests_of hrun]
  exact (h.complete run hrun).accounted.tags

theorem request_instances (h : RunsComplete timelineMode requests runs) :
    ∀ metric ∈ runs.flatMap InstanceRun.requestMetrics,
      metric.instanceUuid ∈ Dict.inOrder (instancesOf requests) := by
  intro metric hmetric
  obtain ⟨run, hrun, hmem⟩ := List.mem_flatMap.mp hmetric
  rw [(h.complete run hrun).requests_on metric hmem, ← h.instances]
  exact List.mem_map_of_mem hrun

theorem iteration_instances (h : RunsComplete timelineMode requests runs) :
    ∀ metric ∈ runs.flatMap InstanceRun.iterationMetrics,
      metric.instanceUuid ∈ Dict.inOrder (instancesOf requests) := by
  intro metric hmetric
  obtain ⟨run, hrun, hmem⟩ := List.mem_flatMap.mp hmetric
  rw [(h.complete run hrun).iterations_on metric hmem, ← h.instances]
  exact List.mem_map_of_mem hrun

/-- There is a row for each instance with requests. -/
theorem sorted_keys (h : RunsComplete timelineMode requests runs) :
    (groupItems BatchAwareRequestMetrics.instanceUuid
      (runs.flatMap InstanceRun.requestMetrics)).sortedKeys =
        Dict.inOrder (instancesOf requests) := by
  rw [Dict.sortedKeys, group_items_keys]
  congr 1
  ext instanceUuid
  rw [List.mem_toFinset, List.mem_map]
  constructor
  · rintro ⟨metric, hmetric, rfl⟩
    exact Dict.mem_inOrder.mp (h.request_instances metric hmetric)
  · intro hmem
    have htags := (h.tags (Dict.mem_inOrder.mpr hmem)).length_eq
    rw [List.length_map, List.length_map] at htags
    obtain ⟨request, hrequest, heq⟩ := mem_instancesOf.mp hmem
    have hpos : 0 < (requestsOf requests instanceUuid).length :=
      List.length_pos_of_mem (List.mem_filter.mpr ⟨hrequest, decide_eq_true heq⟩)
    rw [← htags] at hpos
    obtain ⟨metric, hmetric⟩ := List.exists_mem_of_length_pos hpos
    obtain ⟨hmem, hinstance⟩ := List.mem_filter.mp hmetric
    exact ⟨metric, hmem, of_decide_eq_true hinstance⟩

/-- The column of the trace is that of the instances together. -/
theorem total_eq {M : Type} [AddCommMonoid M] (h : RunsComplete timelineMode requests runs)
    (column : Column M) :
    column.total (runs.flatMap InstanceRun.requestMetrics)
        (runs.flatMap InstanceRun.iterationMetrics) =
      ((Dict.inOrder (instancesOf requests)).map fun instanceUuid ↦ column.total
        (itemsOf BatchAwareRequestMetrics.instanceUuid
          (runs.flatMap InstanceRun.requestMetrics) instanceUuid)
        (itemsOf IterationMetrics.instanceUuid
          (runs.flatMap InstanceRun.iterationMetrics) instanceUuid)).sum := by
  unfold Column.total
  rw [List.sum_map_add,
    sum_map_itemsOf _ (Dict.inOrder_nodup _) h.request_instances column.ofRequest,
    sum_map_itemsOf _ (Dict.inOrder_nodup _) h.iteration_instances column.ofIteration]

/-- The rows of the runs account for the requests. -/
theorem runs_rows_account (h : RunsComplete timelineMode requests runs)
    (hrows : runsRows capacity timelineMode runs = .ok rows) :
    ∃ trace own, rows = trace :: own ∧ RowsAccount requests trace own ∧
      trace.hbmCapacityBlocks = (capacity : ℕ) ∧
      (∀ row ∈ own, row.hbmCapacityBlocks = (capacity : ℕ)) ∧
      sortCapacityRows rows = rows ∧
      trace.cacheEventCount = (runs.flatMap InstanceRun.cacheEvents).length := by
  obtain ⟨trace, rowOf, htrace, hstands, hrowOf, hstandsOf, hbuilt⟩ :=
    h.named.reportable.flat.capacity_rows (capacity : ℕ)
      { totalEvents := (runs.flatMap InstanceRun.cacheEvents).length }
  cases hrows.symm.trans hbuilt
  rw [h.sorted_keys]
  have hsums := aggregate_row_sums htrace
  have hsumsOf (instanceUuid : String) := aggregate_row_sums (hrowOf instanceUuid)
  have hown : ∀ instanceUuid ∈ Dict.inOrder (instancesOf requests),
      (rowOf instanceUuid).requestCount = (requestsOf requests instanceUuid).length ∧
        (rowOf instanceUuid).totalPromptTokens =
          ((requestsOf requests instanceUuid).map SimulationRequest.promptTokens).sum := by
    intro instanceUuid hmem
    rw [(hsumsOf instanceUuid).request_count, (hsumsOf instanceUuid).prompt_tokens]
    exact tags_account (h.tags hmem)
  have hcolumn {M : Type} [AddCommMonoid M] (column : Column M)
      (htotal : column.ofRow trace = column.total (runs.flatMap InstanceRun.requestMetrics)
        (runs.flatMap InstanceRun.iterationMetrics))
      (htotalOf : ∀ instanceUuid, column.ofRow (rowOf instanceUuid) = column.total
        (itemsOf BatchAwareRequestMetrics.instanceUuid
          (runs.flatMap InstanceRun.requestMetrics) instanceUuid)
        (itemsOf IterationMetrics.instanceUuid
          (runs.flatMap InstanceRun.iterationMetrics) instanceUuid)) :
      column.ofRow trace =
        (((Dict.inOrder (instancesOf requests)).map rowOf).map column.ofRow).sum := by
    rw [htotal, h.total_eq, List.map_map]
    exact congrArg List.sum (List.map_congr_left fun instanceUuid _ ↦ (htotalOf instanceUuid).symm)
  have hcovers : ∀ request ∈ requests,
      request.instanceUuid ∈ Dict.inOrder (instancesOf requests) :=
    fun request hrequest ↦ Dict.mem_inOrder.mpr (mem_instancesOf.mpr ⟨request, hrequest, rfl⟩)
  have htraceEq : trace.requestCount = requests.length ∧
      trace.totalPromptTokens = (requests.map SimulationRequest.promptTokens).sum := by
    constructor
    · have hcount := hcolumn requestCountColumn (hsums.counts _ request_count_mem) fun instanceUuid ↦
        (hsumsOf instanceUuid).counts _ request_count_mem
      rw [List.map_map] at hcount
      rw [← sum_length_itemsOf _ (Dict.inOrder_nodup _) hcovers]
      exact hcount.trans (congrArg List.sum (List.map_congr_left fun instanceUuid hmem ↦
        (hown instanceUuid hmem).1))
    · have hprompt := hcolumn promptTokensColumn (hsums.counts _ prompt_tokens_mem)
        fun instanceUuid ↦ (hsumsOf instanceUuid).counts _ prompt_tokens_mem
      rw [List.map_map] at hprompt
      rw [← sum_map_itemsOf _ (Dict.inOrder_nodup _) hcovers SimulationRequest.promptTokens]
      exact hprompt.trans (congrArg List.sum (List.map_congr_left fun instanceUuid hmem ↦
        (hown instanceUuid hmem).2))
  refine ⟨trace, _, rfl, ⟨⟨hstands.scope_eq, ?_⟩, ?_, ?_, ?_, ?_, ?_, ?_, ?_⟩,
    hstands.capacity_eq, ?_, sort_capacity_rows_eq hstands hstandsOf (Finset.pairwise_sort _ _),
    hsums.events⟩
  · exact List.forall_mem_map.mpr fun instanceUuid _ ↦ (hstandsOf instanceUuid).scope_eq
  · rw [List.map_map]
    exact List.map_id'' (fun instanceUuid ↦ (hstandsOf instanceUuid).instance_eq) _
  · exact htraceEq
  · refine List.forall_mem_map.mpr fun instanceUuid hmem ↦ ?_
    rw [(hstandsOf instanceUuid).instance_eq]
    exact hown instanceUuid hmem
  · exact fun column hcolumn' ↦ hcolumn column (hsums.counts column hcolumn')
      fun instanceUuid ↦ (hsumsOf instanceUuid).counts column hcolumn'
  · exact fun column hcolumn' ↦ hcolumn column (hsums.times column hcolumn')
      fun instanceUuid ↦ (hsumsOf instanceUuid).times column hcolumn'
  · exact List.forall_mem_cons.mpr ⟨hsums.tokens, List.forall_mem_map.mpr fun instanceUuid _ ↦
      (hsumsOf instanceUuid).tokens⟩
  · exact List.forall_mem_cons.mpr ⟨aggregate_row_sane htrace,
      List.forall_mem_map.mpr fun instanceUuid _ ↦ aggregate_row_sane (hrowOf instanceUuid)⟩
  · exact List.forall_mem_map.mpr fun instanceUuid _ ↦ (hstandsOf instanceUuid).capacity_eq

end RunsComplete

/-- The rows of a capacity. -/
def rowsAt (capacity : ℕ+) (rows : List CapacitySweepRow) : List CapacitySweepRow :=
  rows.filter fun row ↦ row.hbmCapacityBlocks = (capacity : ℕ)

/-- Each capacity has its own runs, whose rows are reported one capacity after the other. -/
structure CapacityRuns (timelineMode : TimelineMode) (Runs : ℕ+ → List InstanceRun → Prop)
    (capacities : List ℕ+) (runsOf : ℕ+ → List InstanceRun)
    (rowsOf : ℕ+ → List CapacitySweepRow) : Prop where
  runs : ∀ capacity ∈ capacities, Runs capacity (runsOf capacity)
  rows : ∀ capacity ∈ capacities,
    runsRows capacity timelineMode (runsOf capacity) = .ok (rowsOf capacity)

/-- The files of the capacities whose cache events are written. -/
def filesOf (written : List ℕ+) (capacities : List ℕ+) (runsOf : ℕ+ → List InstanceRun) :
    List (ℕ+ × List CacheEvent) :=
  (capacities.filter (· ∈ written)).map fun capacity ↦
    (capacity, (runsOf capacity).flatMap InstanceRun.cacheEvents)

section Capacities

variable {Runs : ℕ+ → List InstanceRun → Prop} {capacities : List ℕ+}
  {runsOf : ℕ+ → List InstanceRun} {rowsOf : ℕ+ → List CapacitySweepRow}

theorem CapacityRuns.composes (h : CapacityRuns timelineMode Runs capacities runsOf rowsOf)
    (written : List ℕ+) : Composes timelineMode written Runs capacities
      (capacities.flatMap rowsOf) (filesOf written capacities runsOf) := by
  obtain ⟨hruns, hrows⟩ := h
  induction capacities with
  | nil => exact .nil
  | cons capacity capacities ih =>
    obtain ⟨hown, hruns⟩ := List.forall_mem_cons.mp hruns
    obtain ⟨hownRows, hrows⟩ := List.forall_mem_cons.mp hrows
    rw [List.flatMap_cons, filesOf, List.filter_cons]
    by_cases hwritten : capacity ∈ written
    · rw [if_pos (decide_eq_true hwritten), List.map_cons]
      exact .write hwritten hown hownRows (ih hruns hrows)
    · rw [if_neg (by simpa using hwritten)]
      exact .skip hwritten hown hownRows (ih hruns hrows)

theorem CapacityRuns.cons {capacity : ℕ+} {runs : List InstanceRun}
    {rows : List CapacitySweepRow} (hruns : Runs capacity runs)
    (hrows : runsRows capacity timelineMode runs = .ok rows)
    (h : CapacityRuns timelineMode Runs capacities runsOf rowsOf) (hnotin : capacity ∉ capacities) :
    CapacityRuns timelineMode Runs (capacity :: capacities)
        (Function.update runsOf capacity runs) (Function.update rowsOf capacity rows) ∧
      (capacity :: capacities).flatMap (Function.update rowsOf capacity rows) =
        rows ++ capacities.flatMap rowsOf ∧
      ∀ written, filesOf written (capacity :: capacities) (Function.update runsOf capacity runs) =
        (if capacity ∈ written then [(capacity, runs.flatMap InstanceRun.cacheEvents)] else []) ++
          filesOf written capacities runsOf := by
  have hne : ∀ other ∈ capacities, other ≠ capacity := fun other hother heq ↦
    hnotin (heq ▸ hother)
  refine ⟨⟨List.forall_mem_cons.mpr ⟨?_, fun other hother ↦ ?_⟩,
    List.forall_mem_cons.mpr ⟨?_, fun other hother ↦ ?_⟩⟩, ?_, fun written ↦ ?_⟩
  · rwa [Function.update_self]
  · rw [Function.update_of_ne (hne other hother)]
    exact h.runs other hother
  · rwa [Function.update_self, Function.update_self]
  · rw [Function.update_of_ne (hne other hother), Function.update_of_ne (hne other hother)]
    exact h.rows other hother
  · rw [List.flatMap_cons, Function.update_self]
    exact congrArg (rows ++ ·) (List.flatMap_congr fun other hother ↦
      Function.update_of_ne (hne other hother) _ _)
  · have hrest : (capacities.filter (· ∈ written)).map (fun other ↦
        (other, (Function.update runsOf capacity runs other).flatMap InstanceRun.cacheEvents)) =
          filesOf written capacities runsOf := by
      refine List.map_congr_left fun other hother ↦ ?_
      rw [Function.update_of_ne (hne other (List.mem_of_mem_filter hother))]
    rw [filesOf, List.filter_cons]
    split_ifs with hwritten hif hif
    · rw [List.map_cons, hrest, Function.update_self]
      rfl
    · exact absurd (of_decide_eq_true hwritten) hif
    · exact absurd (decide_eq_true hif) hwritten
    · exact hrest

theorem Composes.capacity_runs {written : List ℕ+} {rows : List CapacitySweepRow}
    {files : List (ℕ+ × List CacheEvent)}
    (h : Composes timelineMode written Runs capacities rows files) (hd : capacities.Nodup) :
    ∃ runsOf rowsOf, CapacityRuns timelineMode Runs capacities runsOf rowsOf ∧
      rows = capacities.flatMap rowsOf ∧ files = filesOf written capacities runsOf := by
  induction h with
  | nil =>
    exact ⟨fun _ ↦ [], fun _ ↦ [], ⟨fun _ hmem ↦ absurd hmem List.not_mem_nil,
      fun _ hmem ↦ absurd hmem List.not_mem_nil⟩, rfl, rfl⟩
  | write hwritten hruns hrows _ ih =>
    obtain ⟨hnotin, hd⟩ := List.nodup_cons.mp hd
    obtain ⟨runsOf, rowsOf, hrest, rfl, rfl⟩ := ih hd
    obtain ⟨hall, hflat, hfiles⟩ := hrest.cons hruns hrows hnotin
    refine ⟨_, _, hall, hflat.symm, ?_⟩
    rw [hfiles, if_pos hwritten]
    rfl
  | skip hwritten hruns hrows _ ih =>
    obtain ⟨hnotin, hd⟩ := List.nodup_cons.mp hd
    obtain ⟨runsOf, rowsOf, hrest, rfl, rfl⟩ := ih hd
    obtain ⟨hall, hflat, hfiles⟩ := hrest.cons hruns hrows hnotin
    refine ⟨_, _, hall, hflat.symm, ?_⟩
    rw [hfiles, if_neg hwritten]
    rfl

/-- The rows of a capacity in a whole sweep, and the number of events in its file. -/
structure CapacityAccount (requests : List SimulationRequest) (result : CapacitySweepResult)
    (capacity : ℕ+) (trace : CapacitySweepRow) (rest : List CapacitySweepRow) : Prop
    extends RowsAccount requests trace rest where
  rows_eq : rowsAt capacity result.rows = trace :: rest
  events : ∀ file ∈ result.cacheEventFiles, file.1 = capacity →
    trace.cacheEventCount = file.2.length

/-- The rows of a sweep account for the requests at every capacity. -/
theorem CapacitySweepResult.Composed.account {result : CapacitySweepResult}
    {sweepConfig : CapacitySweepConfig} {accepted total : ℕ}
    (h : result.Composed timelineMode sweepConfig Runs accepted total)
    (hRuns : ∀ capacity runs, Runs capacity runs → RunsComplete timelineMode requests runs) :
    (∀ row ∈ result.rows, ∃ capacity ∈ sweepConfig.capacities,
      row.hbmCapacityBlocks = (capacity : ℕ)) ∧
    ∀ capacity ∈ sweepConfig.capacities, ∃ trace rest,
      CapacityAccount requests result capacity trace rest := by
  obtain ⟨rows, hcomposes, hrows⟩ := h.rows
  obtain ⟨runsOf, rowsOf, hall, rfl, hfiles⟩ :=
    hcomposes.capacity_runs sweepConfig.capacities_nodup
  have hcapacities : ∀ capacity ∈ sweepConfig.capacities, ∀ row ∈ rowsOf capacity,
      row.hbmCapacityBlocks = (capacity : ℕ) := by
    intro capacity hmem
    obtain ⟨trace, own, heq, -, htrace, hown, -, -⟩ :=
      (hRuns capacity _ (hall.runs capacity hmem)).runs_rows_account (hall.rows capacity hmem)
    rw [heq]
    exact List.forall_mem_cons.mpr ⟨htrace, hown⟩
  have hnodup : (sweepConfig.capacities.map fun capacity : ℕ+ ↦ ((capacity : ℕ) : ℤ)).Nodup :=
    sweepConfig.capacities_nodup.map fun _ _ heq ↦ PNat.coe_injective (Int.ofNat.inj heq)
  refine ⟨fun row hrow ↦ ?_, fun capacity hmem ↦ ?_⟩
  · rw [hrows, sortCapacityRows, List.mem_insertionSort] at hrow
    obtain ⟨capacity, hmem, hrow⟩ := List.mem_flatMap.mp hrow
    exact ⟨capacity, hmem, hcapacities capacity hmem row hrow⟩
  obtain ⟨trace, own, heq, haccount, -, -, hsorted, hevents⟩ :=
    (hRuns capacity _ (hall.runs capacity hmem)).runs_rows_account (hall.rows capacity hmem)
  refine ⟨trace, own, haccount, ?_, ?_⟩
  · rw [rowsAt, hrows, sortCapacityRows, StableSort.filter_sort_key,
      filter_flatMap_eq hcapacities hnodup hmem, ← heq]
    exact hsorted
  · rintro ⟨_, events⟩ hfile rfl
    rw [hfiles] at hfile
    obtain ⟨capacity, -, heq⟩ := List.mem_map.mp hfile
    cases heq
    exact hevents

/-- Results that differ in the files of cache events only, where both wrote the same ones. -/
structure CapacitySweepResult.SameRows (written written' : List ℕ+)
    (result result' : CapacitySweepResult) : Prop where
  rows_eq : result'.rows = result.rows
  accepted_eq : result'.acceptedCount = result.acceptedCount
  rejected_eq : result'.rejectedCount = result.rejectedCount
  files : ∀ capacity ∈ written, capacity ∈ written' → ∀ events,
    (capacity, events) ∈ result.cacheEventFiles ↔ (capacity, events) ∈ result'.cacheEventFiles

theorem mem_files_of {written : List ℕ+} {capacity : ℕ+} {events : List CacheEvent} :
    (capacity, events) ∈ filesOf written capacities runsOf ↔
      (capacity ∈ capacities ∧ capacity ∈ written) ∧
        (runsOf capacity).flatMap InstanceRun.cacheEvents = events := by
  rw [filesOf, List.mem_map]
  constructor
  · rintro ⟨_, hmem, heq⟩
    cases heq
    obtain ⟨hmem, hwritten⟩ := List.mem_filter.mp hmem
    exact ⟨⟨hmem, of_decide_eq_true hwritten⟩, rfl⟩
  · rintro ⟨⟨hmem, hwritten⟩, rfl⟩
    exact ⟨capacity, List.mem_filter.mpr ⟨hmem, decide_eq_true hwritten⟩, rfl⟩

/-- The same runs make up the same rows, wherever cache events are written. -/
theorem CapacitySweepResult.Composed.rewrite {result : CapacitySweepResult}
    {sweepConfig sweepConfig' : CapacitySweepConfig} {accepted total : ℕ}
    (h : result.Composed timelineMode sweepConfig Runs accepted total)
    (hsame : sweepConfig'.capacities = sweepConfig.capacities) :
    ∃ result', result'.Composed timelineMode sweepConfig' Runs accepted total ∧
      result.SameRows sweepConfig.cacheEventCapacities sweepConfig'.cacheEventCapacities result' := by
  obtain ⟨rows, hcomposes, hrows⟩ := h.rows
  obtain ⟨runsOf, rowsOf, hall, rfl, hfiles⟩ :=
    hcomposes.capacity_runs sweepConfig.capacities_nodup
  rw [← hsame] at hall hfiles
  have hcomposes' := hall.composes sweepConfig'.cacheEventCapacities
  refine ⟨⟨result.rows, result.acceptedCount, result.rejectedCount, _⟩,
    ⟨⟨_, hcomposes', hsame ▸ hrows⟩, h.accepted_eq, h.rejected_eq⟩, rfl, rfl, rfl,
    fun capacity hwritten hwritten' events ↦ ?_⟩
  have hfile : (capacity, events) ∈ filesOf sweepConfig'.cacheEventCapacities
      sweepConfig'.capacities runsOf ↔ _ := mem_files_of
  rw [and_iff_left hwritten'] at hfile
  rw [hfiles, mem_files_of, and_iff_left hwritten]
  exact hfile.symm

end Capacities

end Runs

section Sweeps

variable {sha256 : List UInt8 → List UInt8} {text : JsonText} {shardRoot : String}
  {buildRequest : TraceRecord → Except PromptTooLongError SimulationRequest}
  {records : List TraceRecord} {turns : ℕ} {loadYaml : String → Except ConfigError Json}
  {config : List (String × Json)} {tracePath : String} {runner : StreamingCapacitySweepRunner}

/-- The rows of a streaming sweep account for every request of the trace at every capacity. -/
theorem sweep_rows_account
    (hcreate : StreamingCapacitySweepRunner.create loadYaml config tracePath = .ok runner)
    (htrace : SweepTrace sha256 text runner.builder.shardRoot buildRequest records)
    (hturns : (acceptedRequests buildRequest records).length < turns) (clock : Clock) (fuel : ℕ)
    (disk : Disk) {result : CapacitySweepResult} {resolved : ResolvedBackends}
    (hrun : runner.run text clock turns fuel sha256 buildRequest records disk {} =
      .ok result resolved) :
    result.acceptedCount = (acceptedRequests buildRequest records).length ∧
    result.acceptedCount + result.rejectedCount = records.length ∧
    (∀ row ∈ result.rows, ∃ capacity ∈ runner.sweepConfig.capacities,
      row.hbmCapacityBlocks = (capacity : ℕ)) ∧
    ∀ capacity ∈ runner.sweepConfig.capacities, ∃ trace rest,
      CapacityAccount (acceptedRequests buildRequest records) result capacity trace rest := by
  have hglobal := build_batch_latency_backend_shipped (build_resolver_global
    (StreamingCapacitySweepRunner.create_reads hcreate).2.1)
  have hcomposed := (StreamingCapacitySweepRunner.run_composed clock fuel htrace hglobal hturns
    disk result).mp ⟨resolved, hrun⟩
  have hin : ∀ instanceUuid ∈ Dict.inOrder (instancesOf (acceptedRequests buildRequest records)),
      instanceUuid ∈ instancesOf (acceptedRequests buildRequest records) :=
    fun _ hmem ↦ Dict.mem_inOrder.mp hmem
  refine ⟨hcomposed.accepted_eq, hcomposed.rejected_eq,
    hcomposed.account fun capacity runs hruns ↦ ⟨?_, fun run hrun ↦ ?_⟩⟩
  · exact (forall₂_instances (fun _ _ halone ↦ halone.instance_eq) hruns).1
  · exact (htrace.runs_complete hin hruns run hrun).2.2

/-- A sweep on the sample. -/
theorem sweep_rows_account_rows : ∃ streaming, StreamingCapacitySweepRunner.create
      Sample.noYaml (Sample.sweepSections "capacity_sweep_streaming") "trace.csv" =
        .ok streaming ∧
    ∃ result resolved, streaming.run Sample.shardJson .exact 4 9 Sample.shardDigest
        Sample.buildRow Sample.rows ∅ {} = .ok result resolved ∧
      result.acceptedCount = 2 ∧ result.acceptedCount + result.rejectedCount = 3 ∧
      ∀ capacity ∈ streaming.sweepConfig.capacities, ∃ trace rest,
        CapacityAccount [Sample.firstOfShard, Sample.secondOfShard] result capacity trace rest := by
  obtain ⟨streaming, hstreaming, -, htrace, hturns, result, resolved, hrun⟩ :=
    Sample.streaming_sweep_returns
  obtain ⟨haccepted, hcounted, -, haccount⟩ :=
    sweep_rows_account hstreaming htrace hturns .exact 9 ∅ hrun
  rw [Sample.accepted_rows] at haccepted haccount
  exact ⟨streaming, hstreaming, result, resolved, hrun, haccepted, hcounted, haccount⟩

theorem StreamingCapacitySweepRunner.AllRunAlone.of_sweep_config {clock : Clock} {fuel : ℕ}
    {capacity : ℕ+} {requestsOf : String → List SimulationRequest} {instances : List String}
    {runs : List InstanceRun} (sweepConfig : CapacitySweepConfig) :
    ({ runner with sweepConfig } : StreamingCapacitySweepRunner).AllRunAlone clock fuel capacity
        requestsOf instances runs ↔
      runner.AllRunAlone clock fuel capacity requestsOf instances runs :=
  ⟨fun h ↦ h.imp fun _ _ halone ↦ ⟨halone.replays⟩, fun h ↦ h.imp fun _ _ halone ↦
    ⟨halone.replays⟩⟩

/-- The same sweep, which writes no cache events. -/
def CapacitySweepConfig.withoutEvents (sweepConfig : CapacitySweepConfig) :
    CapacitySweepConfig where
  capacities := sweepConfig.capacities
  cacheEvents := false
  cacheEventCapacities := []
  parallelInstances := sweepConfig.parallelInstances
  capacities_nodup := sweepConfig.capacities_nodup
  events_iff := ⟨nofun, fun h ↦ absurd rfl h⟩
  events_subset := List.nil_subset _

/-- Cache events are an output only. A sweep returns with the same rows and counts, whatever
capacities it writes the events of, and a capacity that is written either way has the same
file. -/
theorem cache_event_files_observe
    (hcreate : StreamingCapacitySweepRunner.create loadYaml config tracePath = .ok runner)
    (htrace : SweepTrace sha256 text runner.builder.shardRoot buildRequest records)
    (hturns : (acceptedRequests buildRequest records).length < turns) (clock : Clock) (fuel : ℕ)
    (disk : Disk) {sweepConfig : CapacitySweepConfig}
    (hsame : sweepConfig.capacities = runner.sweepConfig.capacities)
    {result : CapacitySweepResult} {resolved : ResolvedBackends}
    (hrun : runner.run text clock turns fuel sha256 buildRequest records disk {} =
      .ok result resolved) :
    ∃ result' resolved', ({ runner with sweepConfig } : StreamingCapacitySweepRunner).run text
        clock turns fuel sha256 buildRequest records disk {} = .ok result' resolved' ∧
      result.SameRows runner.sweepConfig.cacheEventCapacities sweepConfig.cacheEventCapacities
        result' := by
  have hglobal := build_batch_latency_backend_shipped (build_resolver_global
    (StreamingCapacitySweepRunner.create_reads hcreate).2.1)
  have hcomposed := (StreamingCapacitySweepRunner.run_composed clock fuel htrace hglobal hturns
    disk result).mp ⟨resolved, hrun⟩
  obtain ⟨result', hcomposed', hrows⟩ := hcomposed.rewrite hsame
  have hruns : (fun capacity ↦ ({ runner with sweepConfig } :
      StreamingCapacitySweepRunner).AllRunAlone clock fuel capacity
        (requestsOf (acceptedRequests buildRequest records))
        (Dict.inOrder (instancesOf (acceptedRequests buildRequest records)))) =
      fun capacity ↦ runner.AllRunAlone clock fuel capacity
        (requestsOf (acceptedRequests buildRequest records))
        (Dict.inOrder (instancesOf (acceptedRequests buildRequest records))) := by
    funext capacity runs
    exact propext (StreamingCapacitySweepRunner.AllRunAlone.of_sweep_config sweepConfig)
  rw [← hruns] at hcomposed'
  have hrewritten : SweepTrace sha256 text
      ({ runner with sweepConfig } : StreamingCapacitySweepRunner).builder.shardRoot buildRequest
        records := htrace
  obtain ⟨resolved', hrun'⟩ := (StreamingCapacitySweepRunner.run_composed clock fuel hrewritten
    hglobal hturns disk result').mpr hcomposed'
  exact ⟨result', resolved', hrun', hrows⟩

/-- The sample without any cache events. -/
theorem cache_event_files_observe_none : ∃ streaming, StreamingCapacitySweepRunner.create
      Sample.noYaml (Sample.sweepSections "capacity_sweep_streaming") "trace.csv" =
        .ok streaming ∧
    ∃ result resolved result' resolved', streaming.run Sample.shardJson .exact 4 9
        Sample.shardDigest Sample.buildRow Sample.rows ∅ {} = .ok result resolved ∧
      ({ streaming with sweepConfig := streaming.sweepConfig.withoutEvents } :
        StreamingCapacitySweepRunner).run Sample.shardJson .exact 4 9 Sample.shardDigest
          Sample.buildRow Sample.rows ∅ {} = .ok result' resolved' ∧
      result'.rows = result.rows := by
  obtain ⟨streaming, hstreaming, -, htrace, hturns, result, resolved, hrun⟩ :=
    Sample.streaming_sweep_returns
  obtain ⟨result', resolved', hrun', hrows⟩ := cache_event_files_observe hstreaming htrace hturns
    .exact 9 ∅ (rfl : streaming.sweepConfig.withoutEvents.capacities = _) hrun
  exact ⟨streaming, hstreaming, result, resolved, result', resolved', hrun, hrun', hrows.rows_eq⟩

end Sweeps

end InferTwin
