import InferTwin.Foundation.Effect
import InferTwin.Foundation.Group
import InferTwin.Streaming.Metrics

namespace InferTwin

open Effect

section Summaries

/-- A percentile does not depend on the order of the values. -/
theorem percentile_perm {values values' : List ℚ} (h : values.Perm values') (p : ℚ) :
    percentile values p = percentile values' p := by
  have hsorted : values.insertionSort (· ≤ ·) = values'.insertionSort (· ≤ ·) := by
    refine List.Perm.eq_of_pairwise' ?_ ?_ ?_ (r := (· ≤ ·))
    · exact List.pairwise_insertionSort _ values
    · exact List.pairwise_insertionSort _ values'
    · exact ((List.perm_insertionSort _ values).trans h).trans
        (List.perm_insertionSort _ values').symm
  have hnil : values = [] ↔ values' = [] := by
    rw [← List.length_eq_zero_iff, h.length_eq, List.length_eq_zero_iff]
  unfold percentile
  simp only [hnil, hsorted]

theorem percentile_ok (values : List ℚ) {p : ℚ} (hlow : 0 ≤ p) (hhigh : p ≤ 100) :
    ∃ value, percentile values p = .ok value := by
  unfold percentile
  split_ifs with hnil hrange
  · exact ⟨0, rfl⟩
  · rcases hrange with h | h
    · exact absurd h (not_lt.mpr hlow)
    · exact absurd h (not_lt.mpr hhigh)
  · exact ⟨_, rfl⟩

theorem resolve_metric_string_eq {configured : String} {values : List String}
    (h : ∀ value ∈ values, value = configured) (fieldName : String) :
    resolveMetricString configured values fieldName = .ok configured := by
  have hunique : ∀ value ∈ (values.filter (· ≠ "")).dedup, value = configured := by
    intro value hvalue
    exact h value (List.mem_of_mem_filter (List.mem_dedup.mp hvalue))
  have hnodup := List.nodup_dedup (values.filter (· ≠ ""))
  unfold resolveMetricString
  match hdedup : (values.filter (· ≠ "")).dedup with
  | [] => rfl
  | [value] =>
    rw [hdedup] at hunique
    rw [hunique value (List.mem_singleton_self value)]
  | value :: other :: rest =>
    rw [hdedup] at hunique hnodup
    have heq : value = other := by
      rw [hunique value (by simp), hunique other (by simp)]
    exact absurd heq (by
      rintro rfl
      simp at hnodup)

theorem max_or_zero_concat (values : List ℕ) (value : ℕ) :
    maxOrZero (values ++ [value]) = max (maxOrZero values) value := by
  unfold maxOrZero
  cases values with
  | nil => simp
  | cons first values =>
    rw [List.cons_append, List.max?_cons', List.max?_cons', List.foldl_append]
    rfl

theorem max_or_zero_perm {values values' : List ℕ} (h : values.Perm values') :
    maxOrZero values = maxOrZero values' := by
  have hbound (values : List ℕ) (value : ℕ) :
      maxOrZero values ≤ value ↔ ∀ item ∈ values, item ≤ value := by
    induction values using List.reverseRecOn with
    | nil => simp [maxOrZero]
    | append_singleton values last ih =>
      rw [max_or_zero_concat, max_le_iff, ih, List.forall_mem_append]
      simp
  refine le_antisymm ((hbound _ _).mpr fun item hitem ↦ ?_) ((hbound _ _).mpr fun item hitem ↦ ?_)
  · exact (hbound values' _).mp le_rfl item (h.subset hitem)
  · exact (hbound values _).mp le_rfl item (h.symm.subset hitem)

end Summaries

/-- The accumulator of a scope to which some metrics belong. -/
def ScopeAccumulator.of (timelineMode ttftGranularity : String)
    (requests : List BatchAwareRequestMetrics) (iterations : List IterationMetrics) :
    ScopeAccumulator where
  timelineMode
  ttftGranularity
  requestCount := requests.length
  iterationCount := iterations.length
  totalPromptTokens := (requests.map BatchAwareRequestMetrics.promptTokens).sum
  hbmHitTokens := (requests.map BatchAwareRequestMetrics.hbmHitTokens).sum
  ddrHitTokens := (requests.map BatchAwareRequestMetrics.ddrHitTokens).sum
  missTokens := (requests.map BatchAwareRequestMetrics.missTokens).sum
  totalKvLoadMs := (requests.map BatchAwareRequestMetrics.kvLoadMs).sum
  totalComputeWaitMs := (requests.map BatchAwareRequestMetrics.computeWaitMs).sum
  totalKvLoadWaitMs := (requests.map BatchAwareRequestMetrics.kvLoadWaitMs).sum
  totalUncachedPrefillComputeMs :=
    (requests.map BatchAwareRequestMetrics.uncachedPrefillComputeMs).sum
  totalUnattributedTtftMs := (requests.map BatchAwareRequestMetrics.unattributedTtftMs).sum
  totalChunkCount := (requests.map BatchAwareRequestMetrics.chunkCount).sum
  totalLoadEventCount := (requests.map BatchAwareRequestMetrics.loadEventCount).sum
  totalProgressiveMaterializedBlocks :=
    (requests.map BatchAwareRequestMetrics.progressiveMaterializedBlocks).sum
  totalProgressiveMaterializedTokens :=
    (requests.map BatchAwareRequestMetrics.progressiveMaterializedTokens).sum
  totalWaitingForComputeCount := (iterations.map IterationMetrics.waitingForComputeCount).sum
  totalWaitingForKvLoadCount := (iterations.map IterationMetrics.waitingForKvLoadCount).sum
  totalScheduledChunkCount := (iterations.map IterationMetrics.scheduledChunkCount).sum
  maxKvTransferQueueDepth := maxOrZero (iterations.map IterationMetrics.kvTransferQueueDepthMax)
  ttftValues := requests.map BatchAwareRequestMetrics.ttftMs
  kvLoadValues := requests.map BatchAwareRequestMetrics.kvLoadMs
  computeWaitValues := requests.map BatchAwareRequestMetrics.computeWaitMs
  kvLoadWaitValues := requests.map BatchAwareRequestMetrics.kvLoadWaitMs
  uncachedPrefillComputeValues := requests.map BatchAwareRequestMetrics.uncachedPrefillComputeMs

namespace ScopeAccumulator

variable {timelineMode ttftGranularity : String} {requests : List BatchAwareRequestMetrics}
  {iterations : List IterationMetrics}

theorem check_timeline_values_ok {accumulator : ScopeAccumulator} {mode : TimelineMode}
    {granularity : TtftGranularity} (hmode : mode.value = accumulator.timelineMode)
    (hgranularity : granularity.value = accumulator.ttftGranularity) :
    accumulator.checkTimelineValues mode granularity = .ok () := by
  rw [checkTimelineValues, if_neg (not_not.mpr hmode), if_neg (not_not.mpr hgranularity)]

theorem of_on_request {metric : BatchAwareRequestMetrics}
    (hmode : metric.timelineMode.value = timelineMode)
    (hgranularity : metric.ttftGranularity.value = ttftGranularity) :
    (of timelineMode ttftGranularity requests iterations).onRequest metric =
      .ok (of timelineMode ttftGranularity (requests ++ [metric]) iterations) := by
  have hcheck : (of timelineMode ttftGranularity requests iterations).checkTimelineValues
      metric.timelineMode metric.ttftGranularity = .ok () :=
    check_timeline_values_ok hmode hgranularity
  rw [onRequest, hcheck, except_ok_bind]
  simp [of, pure, Except.pure]

theorem of_on_iteration {metric : IterationMetrics}
    (hmode : metric.timelineMode.value = timelineMode)
    (hgranularity : metric.ttftGranularity.value = ttftGranularity) :
    (of timelineMode ttftGranularity requests iterations).onIteration metric =
      .ok (of timelineMode ttftGranularity requests (iterations ++ [metric])) := by
  have hcheck : (of timelineMode ttftGranularity requests iterations).checkTimelineValues
      metric.timelineMode metric.ttftGranularity = .ok () :=
    check_timeline_values_ok hmode hgranularity
  rw [onIteration, hcheck, except_ok_bind]
  simp [of, max_or_zero_concat, pure, Except.pure]

/-- The row of an accumulator is the row of its metrics, computed from the lists of them. -/
theorem of_to_row (hrequests : ∀ metric ∈ requests, metric.timelineMode.value = timelineMode ∧
      metric.ttftGranularity.value = ttftGranularity)
    (hiterations : ∀ metric ∈ iterations, metric.timelineMode.value = timelineMode ∧
      metric.ttftGranularity.value = ttftGranularity)
    (capacity : ℤ) (scope : RowScope) (instanceUuid : String) (cacheEventCount : ℕ) :
    (of timelineMode ttftGranularity requests iterations).toRow capacity scope instanceUuid
        cacheEventCount =
      aggregateRow capacity scope instanceUuid requests iterations cacheEventCount timelineMode
        ttftGranularity := by
  have hmode : resolveMetricString timelineMode
      (requests.map (fun item ↦ item.timelineMode.value) ++
        iterations.map fun item ↦ item.timelineMode.value) "timeline_mode" = .ok timelineMode := by
    refine resolve_metric_string_eq (List.forall_mem_append.mpr ⟨?_, ?_⟩) _
    · exact List.forall_mem_map.mpr fun metric hmetric ↦ (hrequests metric hmetric).1
    · exact List.forall_mem_map.mpr fun metric hmetric ↦ (hiterations metric hmetric).1
  have hgranularity : resolveMetricString ttftGranularity
      (requests.map (fun item ↦ item.ttftGranularity.value) ++
        iterations.map fun item ↦ item.ttftGranularity.value) "ttft_granularity" =
          .ok ttftGranularity := by
    refine resolve_metric_string_eq (List.forall_mem_append.mpr ⟨?_, ?_⟩) _
    · exact List.forall_mem_map.mpr fun metric hmetric ↦ (hrequests metric hmetric).2
    · exact List.forall_mem_map.mpr fun metric hmetric ↦ (hiterations metric hmetric).2
  unfold toRow aggregateRow
  simp only [hmode, hgranularity, except_ok_bind]
  rfl

end ScopeAccumulator

/-- A row does not depend on the order of the metrics. -/
theorem aggregate_row_perm {requests requests' : List BatchAwareRequestMetrics}
    {iterations iterations' : List IterationMetrics} (hrequests : requests.Perm requests')
    (hiterations : iterations.Perm iterations') {timelineMode ttftGranularity : String}
    (hmodes : ∀ metric ∈ requests, metric.timelineMode.value = timelineMode ∧
      metric.ttftGranularity.value = ttftGranularity)
    (hmodes' : ∀ metric ∈ iterations, metric.timelineMode.value = timelineMode ∧
      metric.ttftGranularity.value = ttftGranularity)
    (capacity : ℤ) (scope : RowScope) (instanceUuid : String) (cacheEventCount : ℕ) :
    aggregateRow capacity scope instanceUuid requests iterations cacheEventCount timelineMode
        ttftGranularity =
      aggregateRow capacity scope instanceUuid requests' iterations' cacheEventCount timelineMode
        ttftGranularity := by
  have hnat (f : BatchAwareRequestMetrics → ℕ) : (requests.map f).sum = (requests'.map f).sum :=
    (hrequests.map f).sum_eq
  have hrat (f : BatchAwareRequestMetrics → ℚ) : (requests.map f).sum = (requests'.map f).sum :=
    (hrequests.map f).sum_eq
  have hcount (f : IterationMetrics → ℕ) : (iterations.map f).sum = (iterations'.map f).sum :=
    (hiterations.map f).sum_eq
  have hpercentile (f : BatchAwareRequestMetrics → ℚ) (p : ℚ) :
      percentile (requests.map f) p = percentile (requests'.map f) p :=
    percentile_perm (hrequests.map f) p
  have hdepth := max_or_zero_perm (hiterations.map IterationMetrics.kvTransferQueueDepthMax)
  rw [← ScopeAccumulator.of_to_row hmodes hmodes', ← ScopeAccumulator.of_to_row
    (fun metric hmetric ↦ hmodes metric (hrequests.symm.subset hmetric))
    fun metric hmetric ↦ hmodes' metric (hiterations.symm.subset hmetric)]
  unfold ScopeAccumulator.toRow ScopeAccumulator.of
  simp only [hnat, hrat, hcount, hpercentile, hdepth, hrequests.length_eq, hiterations.length_eq]

theorem except_bind_yields {α β : Type} {x : Except SweepError α} {f : α → Except SweepError β}
    {P : β → Prop} (hx : ∃ a, x = .ok a) (hf : ∀ a, ∃ b, f a = .ok b ∧ P b) :
    ∃ b, (x >>= f) = .ok b ∧ P b := by
  obtain ⟨a, rfl⟩ := hx
  exact hf a

/-- Where a row stands in the report. -/
structure CapacitySweepRow.Stands (row : CapacitySweepRow) (capacity : ℤ) (scope : RowScope)
    (instanceUuid : String) : Prop where
  capacity_eq : row.hbmCapacityBlocks = capacity
  scope_eq : row.scope = scope
  instance_eq : row.instanceUuid = instanceUuid

/-- Token counts that add up give a row. -/
theorem ScopeAccumulator.to_row_ok {accumulator : ScopeAccumulator}
    (htokens : accumulator.hbmHitTokens + accumulator.ddrHitTokens + accumulator.missTokens =
      accumulator.totalPromptTokens)
    (capacity : ℤ) (scope : RowScope) (instanceUuid : String) (cacheEventCount : ℕ) :
    ∃ row, accumulator.toRow capacity scope instanceUuid cacheEventCount = .ok row ∧
      row.Stands capacity scope instanceUuid := by
  unfold toRow
  dsimp only
  rw [if_neg (not_not.mpr htokens)]
  iterate 13
    refine except_bind_yields (percentile_ok _ (by norm_num) (by norm_num)) fun _ ↦ ?_
  exact ⟨_, rfl, rfl, rfl, rfl⟩

/-- Metrics that closed their books carry the configured values and name their instance. -/
structure Reportable (timelineMode ttftGranularity : String)
    (requests : List BatchAwareRequestMetrics) (iterations : List IterationMetrics) : Prop where
  request_values : ∀ metric ∈ requests, metric.timelineMode.value = timelineMode ∧
    metric.ttftGranularity.value = ttftGranularity
  iteration_values : ∀ metric ∈ iterations, metric.timelineMode.value = timelineMode ∧
    metric.ttftGranularity.value = ttftGranularity
  request_instances : ∀ metric ∈ requests, metric.instanceUuid ≠ ""
  iteration_instances : ∀ metric ∈ iterations, metric.instanceUuid ≠ ""
  tokens : ∀ metric ∈ requests,
    metric.hbmHitTokens + metric.ddrHitTokens + metric.missTokens = metric.promptTokens

namespace Reportable

variable {timelineMode ttftGranularity : String}
  {requests requests' : List BatchAwareRequestMetrics}
  {iterations iterations' : List IterationMetrics}

theorem mono (h : Reportable timelineMode ttftGranularity requests iterations)
    (hrequests : requests' ⊆ requests) (hiterations : iterations' ⊆ iterations) :
    Reportable timelineMode ttftGranularity requests' iterations' where
  request_values metric hmetric := h.request_values metric (hrequests hmetric)
  iteration_values metric hmetric := h.iteration_values metric (hiterations hmetric)
  request_instances metric hmetric := h.request_instances metric (hrequests hmetric)
  iteration_instances metric hmetric := h.iteration_instances metric (hiterations hmetric)
  tokens metric hmetric := h.tokens metric (hrequests hmetric)

theorem tokens_sum (h : Reportable timelineMode ttftGranularity requests iterations) :
    (requests.map BatchAwareRequestMetrics.hbmHitTokens).sum +
        (requests.map BatchAwareRequestMetrics.ddrHitTokens).sum +
        (requests.map BatchAwareRequestMetrics.missTokens).sum =
      (requests.map BatchAwareRequestMetrics.promptTokens).sum := by
  rw [← List.sum_map_add, ← List.sum_map_add]
  exact congrArg List.sum (List.map_congr_left h.tokens)

/-- The row of such metrics. -/
theorem row_ok (h : Reportable timelineMode ttftGranularity requests iterations) (capacity : ℤ)
    (scope : RowScope) (instanceUuid : String) (cacheEventCount : ℕ) :
    ∃ row, aggregateRow capacity scope instanceUuid requests iterations cacheEventCount
        timelineMode ttftGranularity = .ok row ∧ row.Stands capacity scope instanceUuid := by
  rw [← ScopeAccumulator.of_to_row h.request_values h.iteration_values]
  exact ScopeAccumulator.to_row_ok h.tokens_sum capacity scope instanceUuid cacheEventCount

end Reportable

namespace MetricCall

def request? : MetricCall → Option BatchAwareRequestMetrics
  | onRequest metric => some metric
  | onIteration _ => none

def iteration? : MetricCall → Option IterationMetrics
  | onRequest _ => none
  | onIteration metric => some metric

end MetricCall

namespace CapacitySweepStreamingMetricAggregator

/-- The aggregator after some metrics: one accumulator for all of them, and one for each
instance that sent any. -/
structure Tracks (aggregator : CapacitySweepStreamingMetricAggregator)
    (timelineMode ttftGranularity : String) (requests : List BatchAwareRequestMetrics)
    (iterations : List IterationMetrics) : Prop where
  mode_eq : aggregator.timelineMode = timelineMode
  granularity_eq : aggregator.ttftGranularity = ttftGranularity
  trace_eq : aggregator.trace = .of timelineMode ttftGranularity requests iterations
  keys_eq : Finmap.keys aggregator.instances =
    (requests.map BatchAwareRequestMetrics.instanceUuid ++
      iterations.map IterationMetrics.instanceUuid).toFinset
  lookup_eq : ∀ instanceUuid, (aggregator.instances.lookup instanceUuid).getD
      (.of timelineMode ttftGranularity [] []) =
    .of timelineMode ttftGranularity
      (itemsOf BatchAwareRequestMetrics.instanceUuid requests instanceUuid)
      (itemsOf IterationMetrics.instanceUuid iterations instanceUuid)

variable {aggregator : CapacitySweepStreamingMetricAggregator}
  {timelineMode ttftGranularity : String} {requests : List BatchAwareRequestMetrics}
  {iterations : List IterationMetrics}

theorem tracks_create (timelineMode ttftGranularity : String) :
    (create timelineMode ttftGranularity).Tracks timelineMode ttftGranularity [] [] :=
  ⟨rfl, rfl, rfl, rfl, fun _ ↦ rfl⟩

namespace Tracks

theorem instance_accumulator_ok
    (h : aggregator.Tracks timelineMode ttftGranularity requests iterations)
    {instanceUuid : String} (hne : instanceUuid ≠ "") :
    aggregator.instanceAccumulator instanceUuid = .ok (.of timelineMode ttftGranularity
      (itemsOf BatchAwareRequestMetrics.instanceUuid requests instanceUuid)
      (itemsOf IterationMetrics.instanceUuid iterations instanceUuid)) := by
  rw [instanceAccumulator, if_neg hne, h.mode_eq, h.granularity_eq, ← h.lookup_eq]
  rfl

theorem on_request (h : aggregator.Tracks timelineMode ttftGranularity requests iterations)
    {metric : BatchAwareRequestMetrics}
    (hmetric : Reportable timelineMode ttftGranularity [metric] []) :
    ∃ aggregator', aggregator.onRequest metric = .ok aggregator' ∧
      aggregator'.Tracks timelineMode ttftGranularity (requests ++ [metric]) iterations := by
  have hself := List.mem_singleton_self metric
  obtain ⟨hmode, hgranularity⟩ := hmetric.request_values metric hself
  have hvalid : metric.validate = .ok () := by
    rw [BatchAwareRequestMetrics.validate, if_neg (not_not.mpr (hmetric.tokens metric hself))]
  unfold onRequest
  rw [hvalid, except_ok_bind, h.trace_eq, ScopeAccumulator.of_on_request hmode hgranularity,
    except_ok_bind, h.instance_accumulator_ok (hmetric.request_instances metric hself),
    except_ok_bind, ScopeAccumulator.of_on_request hmode hgranularity, except_ok_bind]
  refine ⟨_, rfl, h.mode_eq, h.granularity_eq, rfl, ?_, fun instanceUuid ↦ ?_⟩
  · dsimp only
    rw [Dict.keys_insert, h.keys_eq]
    ext instanceUuid
    simp only [Finset.mem_insert, List.mem_toFinset, List.mem_append, List.map_append,
      List.map_cons, List.map_nil, List.mem_singleton]
    tauto
  · dsimp only
    rw [itemsOf_concat]
    rcases eq_or_ne instanceUuid metric.instanceUuid with rfl | hne
    · rw [Finmap.lookup_insert, Option.getD_some, if_pos rfl]
    · rw [Finmap.lookup_insert_of_ne _ hne, h.lookup_eq, if_neg hne.symm, List.append_nil]

theorem on_iteration (h : aggregator.Tracks timelineMode ttftGranularity requests iterations)
    {metric : IterationMetrics} (hmetric : Reportable timelineMode ttftGranularity [] [metric]) :
    ∃ aggregator', aggregator.onIteration metric = .ok aggregator' ∧
      aggregator'.Tracks timelineMode ttftGranularity requests (iterations ++ [metric]) := by
  have hself := List.mem_singleton_self metric
  obtain ⟨hmode, hgranularity⟩ := hmetric.iteration_values metric hself
  unfold onIteration
  rw [h.trace_eq, ScopeAccumulator.of_on_iteration hmode hgranularity, except_ok_bind,
    h.instance_accumulator_ok (hmetric.iteration_instances metric hself), except_ok_bind,
    ScopeAccumulator.of_on_iteration hmode hgranularity, except_ok_bind]
  refine ⟨_, rfl, h.mode_eq, h.granularity_eq, rfl, ?_, fun instanceUuid ↦ ?_⟩
  · dsimp only
    rw [Dict.keys_insert, h.keys_eq]
    ext instanceUuid
    simp only [Finset.mem_insert, List.mem_toFinset, List.mem_append, List.map_append,
      List.map_cons, List.map_nil, List.mem_singleton]
    tauto
  · dsimp only
    rw [itemsOf_concat]
    rcases eq_or_ne instanceUuid metric.instanceUuid with rfl | hne
    · rw [Finmap.lookup_insert, Option.getD_some, if_pos rfl]
    · rw [Finmap.lookup_insert_of_ne _ hne, h.lookup_eq, if_neg hne.symm, List.append_nil]

/-- In whatever order the metrics come. -/
theorem record (h : aggregator.Tracks timelineMode ttftGranularity requests iterations)
    {calls : List MetricCall} (hcalls : Reportable timelineMode ttftGranularity
      (calls.filterMap MetricCall.request?) (calls.filterMap MetricCall.iteration?)) :
    ∃ aggregator', aggregator.record calls = .ok aggregator' ∧
      aggregator'.Tracks timelineMode ttftGranularity
        (requests ++ calls.filterMap MetricCall.request?)
        (iterations ++ calls.filterMap MetricCall.iteration?) := by
  induction calls generalizing aggregator requests iterations with
  | nil =>
    refine ⟨aggregator, rfl, ?_⟩
    rw [List.filterMap_nil, List.filterMap_nil, List.append_nil, List.append_nil]
    exact h
  | cons call calls ih =>
    cases call with
    | onRequest metric =>
      have hfirst : Reportable timelineMode ttftGranularity [metric] [] :=
        hcalls.mono (List.cons_subset_cons metric (List.nil_subset _)) (List.nil_subset _)
      have hrest : Reportable timelineMode ttftGranularity
          (calls.filterMap MetricCall.request?) (calls.filterMap MetricCall.iteration?) :=
        hcalls.mono (List.subset_cons_self metric _) (List.Subset.refl _)
      obtain ⟨next, hnext, htracks⟩ := h.on_request hfirst
      obtain ⟨last, hlast, htracks'⟩ := ih htracks hrest
      refine ⟨last, ?_, ?_⟩
      · rw [CapacitySweepStreamingMetricAggregator.record, hnext, except_ok_bind, hlast]
      · rwa [List.append_assoc] at htracks'
    | onIteration metric =>
      have hfirst : Reportable timelineMode ttftGranularity [] [metric] :=
        hcalls.mono (List.nil_subset _) (List.cons_subset_cons metric (List.nil_subset _))
      have hrest : Reportable timelineMode ttftGranularity
          (calls.filterMap MetricCall.request?) (calls.filterMap MetricCall.iteration?) :=
        hcalls.mono (List.Subset.refl _) (List.subset_cons_self metric _)
      obtain ⟨next, hnext, htracks⟩ := h.on_iteration hfirst
      obtain ⟨last, hlast, htracks'⟩ := ih htracks hrest
      refine ⟨last, ?_, ?_⟩
      · rw [CapacitySweepStreamingMetricAggregator.record, hnext, except_ok_bind, hlast]
      · rwa [List.append_assoc] at htracks'

end Tracks

/-- The instances that are reported, in order: those that finished a request. -/
theorem Tracks.reported_instances_eq
    (h : aggregator.Tracks timelineMode ttftGranularity requests iterations) :
    aggregator.reportedInstances =
      (groupItems BatchAwareRequestMetrics.instanceUuid requests).sortedKeys.map fun instanceUuid ↦
        (instanceUuid, .of timelineMode ttftGranularity
          (itemsOf BatchAwareRequestMetrics.instanceUuid requests instanceUuid)
          (itemsOf IterationMetrics.instanceUuid iterations instanceUuid)) := by
  have hitems : (aggregator.instances.sortedKeys.filterMap fun instanceUuid ↦
      (aggregator.instances.lookup instanceUuid).map fun accumulator ↦
        (instanceUuid, accumulator)) =
      aggregator.instances.sortedKeys.map fun instanceUuid ↦
        (instanceUuid, .of timelineMode ttftGranularity
          (itemsOf BatchAwareRequestMetrics.instanceUuid requests instanceUuid)
          (itemsOf IterationMetrics.instanceUuid iterations instanceUuid)) := by
    rw [← List.filterMap_eq_map]
    refine List.filterMap_congr fun instanceUuid hkey ↦ ?_
    obtain ⟨accumulator, hlookup⟩ := Dict.mem_iff_lookup.mp
      (Finmap.mem_keys.mp (Dict.mem_sortedKeys.mp hkey))
    have heq := h.lookup_eq instanceUuid
    rw [hlookup, Option.getD_some] at heq
    rw [hlookup, heq]
    rfl
  have hcount (instanceUuid : String) :
      0 < (itemsOf BatchAwareRequestMetrics.instanceUuid requests instanceUuid).length ↔
        instanceUuid ∈ requests.map BatchAwareRequestMetrics.instanceUuid := by
    rw [List.length_pos_iff_exists_mem, List.mem_map]
    simp only [itemsOf, List.mem_filter, decide_eq_true_eq]
  -- two lists of the same keys in the same order
  have hkeys : (aggregator.instances.sortedKeys.filter fun instanceUuid ↦
      0 < (itemsOf BatchAwareRequestMetrics.instanceUuid requests instanceUuid).length) =
      (groupItems BatchAwareRequestMetrics.instanceUuid requests).sortedKeys := by
    refine List.Perm.eq_of_pairwise' (r := (· ≤ ·)) ?_ ?_ ?_
    · exact (Finset.pairwise_sort _ _).filter _
    · exact Finset.pairwise_sort _ _
    · refine (List.perm_ext_iff_of_nodup ((Finset.sort_nodup _ _).filter _)
        (Finset.sort_nodup _ _)).mpr fun instanceUuid ↦ ?_
      rw [List.mem_filter, Finset.mem_sort, Finset.mem_sort, h.keys_eq, group_items_keys,
        decide_eq_true_iff, hcount]
      simp only [List.mem_toFinset, List.mem_append]
      tauto
  rw [reportedInstances, hitems, List.filter_map, ← hkeys]
  rfl

end CapacitySweepStreamingMetricAggregator

/-- The rows of the batch aggregation are in the order of the report. -/
theorem sort_capacity_rows_eq {capacity : ℤ} {row : CapacitySweepRow} {keys : List String}
    {rowOf : String → CapacitySweepRow} (hrow : row.Stands capacity .trace "")
    (hrows : ∀ instanceUuid, (rowOf instanceUuid).Stands capacity .oneInstance instanceUuid)
    (hkeys : keys.Pairwise (· ≤ ·)) :
    sortCapacityRows (row :: keys.map rowOf) = row :: keys.map rowOf := by
  refine List.Pairwise.insertionSort_eq (List.pairwise_cons.mpr ⟨?_, ?_⟩)
  · intro other hother
    obtain ⟨instanceUuid, -, rfl⟩ := List.mem_map.mp hother
    have hstands := hrows instanceUuid
    rw [CapacitySweepRow.sortKey, CapacitySweepRow.sortKey, hrow.capacity_eq, hrow.scope_eq,
      hstands.capacity_eq, hstands.scope_eq]
    refine Prod.Lex.toLex_le_toLex.mpr (.inr ⟨rfl, ?_⟩)
    exact Prod.Lex.toLex_le_toLex.mpr (.inl Nat.zero_lt_one)
  · refine List.pairwise_map.mpr (hkeys.imp fun {a b} hab ↦ ?_)
    rw [CapacitySweepRow.sortKey, CapacitySweepRow.sortKey, (hrows a).capacity_eq,
      (hrows a).scope_eq, (hrows a).instance_eq, (hrows b).capacity_eq, (hrows b).scope_eq,
      (hrows b).instance_eq]
    refine Prod.Lex.toLex_le_toLex.mpr (.inr ⟨rfl, ?_⟩)
    exact Prod.Lex.toLex_le_toLex.mpr (.inr ⟨rfl, hab⟩)

/-- The streaming aggregator reports what the batch aggregation of the same metrics does,
row for row, however the calls are interleaved and ordered. -/
theorem streaming_rows_eq_batch_rows {timelineMode ttftGranularity : String}
    {requests : List BatchAwareRequestMetrics} {iterations : List IterationMetrics}
    (hreport : Reportable timelineMode ttftGranularity requests iterations)
    {calls : List MetricCall} (hrequests : (calls.filterMap MetricCall.request?).Perm requests)
    (hiterations : (calls.filterMap MetricCall.iteration?).Perm iterations) (capacity : ℤ)
    (stats : CacheEventStats) :
    ∃ aggregator rows,
      (CapacitySweepStreamingMetricAggregator.create timelineMode ttftGranularity).record calls =
        .ok aggregator ∧
      aggregator.buildRows capacity stats = .ok rows ∧
      buildCapacityRows capacity requests iterations stats timelineMode ttftGranularity =
        .ok rows := by
  have hcalls := hreport.mono hrequests.subset hiterations.subset
  obtain ⟨aggregator, hrecord, htracks⟩ :=
    (CapacitySweepStreamingMetricAggregator.tracks_create timelineMode ttftGranularity).record hcalls
  obtain ⟨row, hrow, hstands⟩ := hreport.row_ok capacity .trace "" stats.totalEvents
  have hinstance (instanceUuid : String) :
      Reportable timelineMode ttftGranularity
        (itemsOf BatchAwareRequestMetrics.instanceUuid requests instanceUuid)
        (itemsOf IterationMetrics.instanceUuid iterations instanceUuid) :=
    hreport.mono (List.filter_subset_self _) (List.filter_subset_self _)
  choose rowOf hrowOf hstandsOf using fun instanceUuid ↦
    (hinstance instanceUuid).row_ok capacity .oneInstance instanceUuid 0
  have hbatch : buildCapacityRows capacity requests iterations stats timelineMode
      ttftGranularity = .ok (row ::
        (groupItems BatchAwareRequestMetrics.instanceUuid requests).sortedKeys.map rowOf) := by
    unfold buildCapacityRows
    rw [hrow, except_ok_bind]
    simp only [group_items_getD]
    rw [except_mapM_ok fun instanceUuid _ ↦ hrowOf instanceUuid]
    rfl
  refine ⟨aggregator, _, hrecord, ?_, hbatch⟩
  have htrace : aggregator.trace.toRow capacity .trace "" stats.totalEvents = .ok row := by
    rw [htracks.trace_eq, List.nil_append, List.nil_append,
      ScopeAccumulator.of_to_row hcalls.request_values hcalls.iteration_values,
      aggregate_row_perm hrequests hiterations hcalls.request_values hcalls.iteration_values, hrow]
  have hkeys : (groupItems BatchAwareRequestMetrics.instanceUuid
      (calls.filterMap MetricCall.request?)).sortedKeys =
        (groupItems BatchAwareRequestMetrics.instanceUuid requests).sortedKeys := by
    rw [Dict.sortedKeys, Dict.sortedKeys, group_items_keys, group_items_keys,
      List.toFinset_eq_of_perm _ _ (hrequests.map _)]
  have hrows : (aggregator.reportedInstances.mapM fun item ↦
      item.2.toRow capacity .oneInstance item.1 0) =
        .ok ((groupItems BatchAwareRequestMetrics.instanceUuid requests).sortedKeys.map rowOf) := by
    rw [htracks.reported_instances_eq, List.nil_append, List.nil_append, hkeys, List.mapM_map]
    refine except_mapM_ok fun instanceUuid _ ↦ ?_
    have hpart : Reportable timelineMode ttftGranularity
        (itemsOf BatchAwareRequestMetrics.instanceUuid (calls.filterMap MetricCall.request?)
          instanceUuid)
        (itemsOf IterationMetrics.instanceUuid (calls.filterMap MetricCall.iteration?)
          instanceUuid) :=
      hcalls.mono (List.filter_subset_self _) (List.filter_subset_self _)
    rw [Function.comp_apply,
      ScopeAccumulator.of_to_row hpart.request_values hpart.iteration_values]
    exact (aggregate_row_perm (hrequests.filter _) (hiterations.filter _) hpart.request_values
      hpart.iteration_values _ _ _ _).trans (hrowOf instanceUuid)
  unfold CapacitySweepStreamingMetricAggregator.buildRows
  rw [htrace, except_ok_bind, hrows, except_ok_bind]
  exact congrArg Except.ok
    (sort_capacity_rows_eq hstands hstandsOf (Finset.pairwise_sort _ _))

namespace Sample

def requestMetric (requestId instanceUuid : String) (ttftMs : ℚ) : BatchAwareRequestMetrics where
  requestId
  tenantId := "tenant"
  instanceUuid
  model := "model"
  tokenizerProfile := "profile"
  arrivalTimeMs := 0
  firstScheduledTimeMs := 0
  finishTimeMs := ttftMs
  schedulerWaitMs := 0
  ttftMs
  promptTokens := 10
  promptBlocks := 1
  hbmHitTokens := 4
  ddrHitTokens := 0
  missTokens := 6
  effectiveHitRate := 4 / 10
  scheduledIterationCount := 1
  kvLoadTokens := 0
  kvLoadBytes := 0
  kvLoadMs := 0
  prefillComputeMs := ttftMs
  queueMs := 0
  timelineMode := .legacy
  ttftGranularity := .iteration
  computeWaitMs := 0
  kvLoadWaitMs := 0
  uncachedPrefillComputeMs := 0
  unattributedTtftMs := 0
  chunkCount := 0
  loadEventCount := 0
  progressiveMaterializedBlocks := 0
  progressiveMaterializedTokens := 0

def iterationMetric (instanceUuid : String) (iterationId : ℕ) : IterationMetrics where
  instanceUuid
  iterationId
  startTimeMs := 0
  finishTimeMs := 1
  durationMs := 1
  batchSize := 1
  scheduledPrefillTokens := 6
  scheduledDecodeTokens := 0
  maxQueryLen := 6
  totalContextTokens := 10
  backend := "formula"
  shapeKey := ""
  memoized := false
  requestIds := []
  kvLoadTokens := 0
  kvLoadBytes := 0
  kvLoadRequestCount := 0
  kvLoadMs := 0
  prefillComputeMs := 1
  queueMs := 0
  timelineMode := .legacy
  ttftGranularity := .iteration
  waitingForComputeCount := 0
  waitingForKvLoadCount := 0
  scheduledChunkCount := 0
  kvTransferQueueDepthMax := 2
  computeWaitMs := 0
  kvLoadWaitMs := 0
  progressiveMaterializedBlocks := 0
  progressiveMaterializedTokens := 0

end Sample

/-- Two instances in turns, and a third one that finished nothing. -/
theorem streaming_rows_eq_batch_rows_interleaved :
    ∃ aggregator rows,
      (CapacitySweepStreamingMetricAggregator.create "legacy_iteration_v1" "iteration").record
        [.onIteration (Sample.iterationMetric "c" 0), .onRequest (Sample.requestMetric "r2" "b" 20),
          .onIteration (Sample.iterationMetric "a" 0),
          .onRequest (Sample.requestMetric "r1" "a" 30)] = .ok aggregator ∧
      aggregator.buildRows 8 {} = .ok rows ∧
      buildCapacityRows 8 [Sample.requestMetric "r1" "a" 30, Sample.requestMetric "r2" "b" 20]
        [Sample.iterationMetric "a" 0, Sample.iterationMetric "c" 0] {} "legacy_iteration_v1"
        "iteration" = .ok rows := by
  have hreport : Reportable "legacy_iteration_v1" "iteration"
      [Sample.requestMetric "r1" "a" 30, Sample.requestMetric "r2" "b" 20]
      [Sample.iterationMetric "a" 0, Sample.iterationMetric "c" 0] := by
    refine ⟨?_, ?_, ?_, ?_, ?_⟩ <;> decide
  exact streaming_rows_eq_batch_rows hreport (by decide +kernel) (by decide +kernel) 8 {}

end InferTwin
