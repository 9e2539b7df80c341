import InferTwin.Properties.Reported

namespace InferTwin

open Effect

section Rows

variable {requests requests' : List BatchAwareRequestMetrics}
  {iterations iterations' : List IterationMetrics} {timelineMode ttftGranularity : String}

/-- A row does not show which iterations were remembered. -/
theorem aggregate_row_forget_memo (capacity : ℤ) (scope : RowScope) (instanceUuid : String)
    (requests : List BatchAwareRequestMetrics) (iterations : List IterationMetrics)
    (cacheEventCount : ℕ) (timelineMode ttftGranularity : String) :
    aggregateRow capacity scope instanceUuid requests
        (iterations.map IterationMetrics.forgetMemo) cacheEventCount timelineMode
        ttftGranularity =
      aggregateRow capacity scope instanceUuid requests iterations cacheEventCount timelineMode
        ttftGranularity := by
  unfold aggregateRow
  simp only [List.map_map, List.length_map]
  rfl

theorem Reportable.forget_memo
    (h : Reportable timelineMode ttftGranularity requests iterations) :
    Reportable timelineMode ttftGranularity requests
      (iterations.map IterationMetrics.forgetMemo) where
  request_values := h.request_values
  iteration_values := List.forall_mem_map.mpr h.iteration_values
  request_instances := h.request_instances
  iteration_instances := List.forall_mem_map.mpr h.iteration_instances
  tokens := h.tokens

/-- Neither the order of the metrics shows in a row, nor what was remembered. -/
theorem aggregate_row_congr (h : Reportable timelineMode ttftGranularity requests iterations)
    (hrequests : requests.Perm requests')
    (hiterations : (iterations.map IterationMetrics.forgetMemo).Perm
      (iterations'.map IterationMetrics.forgetMemo))
    (capacity : ℤ) (scope : RowScope) (instanceUuid : String) (cacheEventCount : ℕ) :
    aggregateRow capacity scope instanceUuid requests iterations cacheEventCount timelineMode
        ttftGranularity =
      aggregateRow capacity scope instanceUuid requests' iterations' cacheEventCount timelineMode
        ttftGranularity := by
  rw [← aggregate_row_forget_memo _ _ _ requests, ← aggregate_row_forget_memo _ _ _ requests']
  exact aggregate_row_perm hrequests hiterations h.forget_memo.request_values
    h.forget_memo.iteration_values capacity scope instanceUuid cacheEventCount

/-- Nothing that can be reported is in the flags of the iterations. -/
theorem Reportable.of_same (h : Reportable timelineMode ttftGranularity requests iterations)
    (hsame : iterations'.map IterationMetrics.forgetMemo =
      iterations.map IterationMetrics.forgetMemo) :
    Reportable timelineMode ttftGranularity requests iterations' := by
  have hforget := h.forget_memo
  rw [← hsame] at hforget
  refine ⟨h.request_values, fun metric hmetric ↦ ?_, h.request_instances,
    fun metric hmetric ↦ ?_, h.tokens⟩
  · exact hforget.iteration_values metric.forgetMemo (List.mem_map_of_mem hmetric)
  · exact hforget.iteration_instances metric.forgetMemo (List.mem_map_of_mem hmetric)

theorem Reportable.of_instance (h : Reportable timelineMode ttftGranularity requests iterations)
    (instanceUuid : String) :
    Reportable timelineMode ttftGranularity
      (itemsOf BatchAwareRequestMetrics.instanceUuid requests instanceUuid)
      (itemsOf IterationMetrics.instanceUuid iterations instanceUuid) :=
  h.mono (List.filter_subset_self _) (List.filter_subset_self _)

theorem items_of_forget_memo (iterations : List IterationMetrics) (instanceUuid : String) :
    (itemsOf IterationMetrics.instanceUuid iterations instanceUuid).map
        IterationMetrics.forgetMemo =
      itemsOf IterationMetrics.instanceUuid (iterations.map IterationMetrics.forgetMemo)
        instanceUuid := by
  rw [itemsOf, itemsOf, List.filter_map]
  rfl

/-- The rows of a capacity show neither the order of the metrics nor what was remembered, and
of the cache events only their number. -/
theorem capacity_rows_congr (h : Reportable timelineMode ttftGranularity requests iterations)
    (hrequests : requests.Perm requests')
    (hiterations : (iterations.map IterationMetrics.forgetMemo).Perm
      (iterations'.map IterationMetrics.forgetMemo))
    {stats stats' : CacheEventStats} (hstats : stats.totalEvents = stats'.totalEvents)
    (capacity : ℤ) :
    buildCapacityRows capacity requests iterations stats timelineMode ttftGranularity =
      buildCapacityRows capacity requests' iterations' stats' timelineMode ttftGranularity := by
  have hkeys : (groupItems BatchAwareRequestMetrics.instanceUuid requests).sortedKeys =
      (groupItems BatchAwareRequestMetrics.instanceUuid requests').sortedKeys := by
    rw [Dict.sortedKeys, Dict.sortedKeys, group_items_keys, group_items_keys,
      List.toFinset_eq_of_perm _ _ (hrequests.map _)]
  have hinstance (instanceUuid : String) :
      aggregateRow capacity .oneInstance instanceUuid
          (itemsOf BatchAwareRequestMetrics.instanceUuid requests instanceUuid)
          (itemsOf IterationMetrics.instanceUuid iterations instanceUuid) 0 timelineMode
          ttftGranularity =
        aggregateRow capacity .oneInstance instanceUuid
          (itemsOf BatchAwareRequestMetrics.instanceUuid requests' instanceUuid)
          (itemsOf IterationMetrics.instanceUuid iterations' instanceUuid) 0 timelineMode
          ttftGranularity := by
    have hforget : ((itemsOf IterationMetrics.instanceUuid iterations instanceUuid).map
        IterationMetrics.forgetMemo).Perm
          ((itemsOf IterationMetrics.instanceUuid iterations' instanceUuid).map
            IterationMetrics.forgetMemo) := by
      rw [items_of_forget_memo, items_of_forget_memo]
      exact hiterations.filter _
    exact aggregate_row_congr (h.of_instance instanceUuid) (hrequests.filter _) hforget _ _ _ _
  unfold buildCapacityRows
  rw [aggregate_row_congr h hrequests hiterations, hstats]
  simp only [group_items_getD, hinstance, hkeys]

/-- The rows of metrics that can be reported: one for the trace, and one for each instance that
finished a request. -/
theorem Reportable.capacity_rows (h : Reportable timelineMode ttftGranularity requests iterations)
    (capacity : ℤ) (stats : CacheEventStats) :
    ∃ row rowOf,
      aggregateRow capacity .trace "" requests iterations stats.totalEvents timelineMode
          ttftGranularity = .ok row ∧
      row.Stands capacity .trace "" ∧
      (∀ instanceUuid, aggregateRow capacity .oneInstance instanceUuid
          (itemsOf BatchAwareRequestMetrics.instanceUuid requests instanceUuid)
          (itemsOf IterationMetrics.instanceUuid iterations instanceUuid) 0 timelineMode
          ttftGranularity = .ok (rowOf instanceUuid)) ∧
      (∀ instanceUuid, (rowOf instanceUuid).Stands capacity .oneInstance instanceUuid) ∧
      buildCapacityRows capacity requests iterations stats timelineMode ttftGranularity =
        .ok (row :: (groupItems BatchAwareRequestMetrics.instanceUuid requests).sortedKeys.map
          rowOf) := by
  obtain ⟨row, hrow, hstands⟩ := h.row_ok capacity .trace "" stats.totalEvents
  choose rowOf hrowOf hstandsOf using fun instanceUuid ↦
    (h.of_instance instanceUuid).row_ok capacity .oneInstance instanceUuid 0
  refine ⟨row, rowOf, hrow, hstands, hrowOf, hstandsOf, ?_⟩
  unfold buildCapacityRows
  rw [hrow, except_ok_bind]
  simp only [group_items_getD]
  rw [except_mapM_ok fun instanceUuid _ ↦ hrowOf instanceUuid]
  rfl

/-- An aggregator that has been given the metrics reports the rows of these. -/
theorem CapacitySweepStreamingMetricAggregator.Tracks.build_rows
    {aggregator : CapacitySweepStreamingMetricAggregator}
    (h : aggregator.Tracks timelineMode ttftGranularity requests iterations)
    (hreport : Reportable timelineMode ttftGranularity requests iterations) (capacity : ℤ)
    (stats : CacheEventStats) :
    aggregator.buildRows capacity stats =
      buildCapacityRows capacity requests iterations stats timelineMode ttftGranularity := by
  obtain ⟨row, rowOf, hrow, hstands, hrowOf, hstandsOf, hbatch⟩ :=
    hreport.capacity_rows capacity stats
  have htrace : aggregator.trace.toRow capacity .trace "" stats.totalEvents = .ok row := by
    rw [h.trace_eq, ScopeAccumulator.of_to_row hreport.request_values
      hreport.iteration_values, hrow]
  have hrows : (aggregator.reportedInstances.mapM fun item ↦
      item.2.toRow capacity .oneInstance item.1 0) =
        .ok ((groupItems BatchAwareRequestMetrics.instanceUuid requests).sortedKeys.map
          rowOf) := by
    rw [h.reported_instances_eq, List.mapM_map]
    refine except_mapM_ok fun instanceUuid _ ↦ ?_
    have hinstance := hreport.of_instance instanceUuid
    rw [Function.comp_apply,
      ScopeAccumulator.of_to_row hinstance.request_values hinstance.iteration_values]
    exact hrowOf instanceUuid
  rw [hbatch]
  unfold buildRows
  rw [htrace, except_ok_bind, hrows, except_ok_bind]
  exact congrArg Except.ok
    (sort_capacity_rows_eq hstands hstandsOf (Finset.pairwise_sort _ _))

end Rows

end InferTwin
