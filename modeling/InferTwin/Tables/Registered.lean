import InferTwin.Tables.Frontier
import InferTwin.Tables.Iteration
import Mathlib.Algebra.BigOperators.Group.List.Basic

namespace InferTwin

open Effect

variable {C K : Type} {engine : Engine C K}

/-- Every active request is the one registered under its id, and none of them is finished. -/
structure Locals.Registered (locals : Locals) : Prop where
  nodup : locals.active.Nodup
  states : ∀ ref ∈ locals.active,
    locals.statesById.lookup (locals.heap ref).requestId = some ref
  requests : ∀ ref ∈ locals.active, ∃ request,
    locals.requestsById.lookup (locals.heap ref).requestId = some request ∧
      request.tag = (locals.heap ref).tag
  unfinished : ∀ ref ∈ locals.active, (locals.heap ref).status ≠ .finished

/-- The blocks and tokens made visible so far for some requests. -/
def Heap.visible (heap : Heap) (refs : List ℕ) : ℕ × ℕ :=
  (refs.map fun ref ↦ (heap ref).visible).sum

def IterationMetrics.visible (metric : IterationMetrics) : ℕ × ℕ :=
  (metric.progressiveMaterializedBlocks, metric.progressiveMaterializedTokens)

theorem forall₂_map_eq {α β γ : Type} {R : α → β → Prop} {as : List α} {bs : List β} {f : β → γ}
    {g : α → γ} (h : List.Forall₂ R as bs) (hfg : ∀ a ∈ as, ∀ b, R a b → f b = g a) :
    bs.map f = as.map g := by
  induction h with
  | nil => rfl
  | cons hab _ ih =>
    rw [List.map_cons, List.map_cons, hfg _ (List.mem_cons_self ..) _ hab,
      ih fun a ha ↦ hfg a (List.mem_cons_of_mem _ ha)]

/-- Some active requests have left, each with a metric of its own. -/
structure Locals.Parts (locals locals' : Locals) (done : List ℕ)
    (metrics : List BatchAwareRequestMetrics) : Prop where
  states_eq : locals'.statesById = locals.statesById
  requests_eq : locals'.requestsById = locals.requestsById
  tag_eq : ∀ ref, (locals'.heap ref).tag = (locals.heap ref).tag
  metrics_eq : locals'.requestMetrics = locals.requestMetrics ++ metrics
  emits : List.Forall₂ (fun ref ↦ Emits locals.requestsById (locals'.heap ref)) done metrics
  active_perm : (done ++ locals'.active).Perm locals.active
  unfinished : ∀ ref ∈ locals'.active, (locals'.heap ref).status ≠ .finished

namespace Locals.Parts

variable {locals locals' : Locals} {done : List ℕ} {metrics : List BatchAwareRequestMetrics}

theorem id_eq (h : locals.Parts locals' done metrics) (ref : ℕ) :
    (locals'.heap ref).requestId = (locals.heap ref).requestId :=
  congrArg Tag.requestId (h.tag_eq ref)

theorem active_subset (h : locals.Parts locals' done metrics) :
    locals'.active ⊆ locals.active :=
  fun _ href ↦ h.active_perm.subset (List.mem_append_right _ href)

/-- The requests that stay are registered as before. -/
theorem registered (h : locals.Parts locals' done metrics) (hreg : locals.Registered) :
    locals'.Registered where
  nodup := (h.active_perm.nodup_iff.mpr hreg.nodup).of_append_right
  states ref href := by
    rw [h.states_eq, h.id_eq]
    exact hreg.states ref (h.active_subset href)
  requests ref href := by
    rw [h.requests_eq, h.id_eq, h.tag_eq]
    exact hreg.requests ref (h.active_subset href)
  unfinished := h.unfinished

/-- The metrics are those of the requests that have left. -/
theorem tags_eq (h : locals.Parts locals' done metrics) (hreg : locals.Registered) :
    metrics.map BatchAwareRequestMetrics.tag = done.map fun ref ↦ (locals.heap ref).tag := by
  refine forall₂_map_eq h.emits fun ref href metric hemits ↦ ?_
  obtain ⟨request, hlookup, htag⟩ := hemits.registered
  have hactive := h.active_perm.subset (List.mem_append_left _ href)
  obtain ⟨own, hown, hownTag⟩ := hreg.requests ref hactive
  rw [h.id_eq, hown] at hlookup
  cases hlookup
  exact htag.trans hownTag

theorem visible_eq (h : locals.Parts locals' done metrics) :
    metrics.map BatchAwareRequestMetrics.visible =
      done.map fun ref ↦ (locals'.heap ref).visible :=
  forall₂_map_eq h.emits fun _ _ _ hemits ↦ hemits.visible_eq

end Locals.Parts

theorem Locals.Clears.parts {locals locals' : Locals} {done dropped : List ℕ}
    {metrics : List BatchAwareRequestMetrics} (h : locals.Clears locals' done dropped metrics)
    (hreg : locals.Registered)
    (hperm : (done ++ dropped ++ locals'.active).Perm locals.active) :
    locals.Parts locals' done metrics := by
  have hdropped : dropped = [] := by
    refine List.eq_nil_iff_forall_not_mem.mpr fun ref href ↦ ?_
    have hactive := hperm.subset (List.mem_append_left _ (List.mem_append_right _ href))
    exact hreg.unfinished ref hactive (h.dropped ref href)
  subst hdropped
  rw [List.append_nil] at hperm
  refine ⟨h.states_eq, h.requests_eq, h.tag_eq, h.metrics_eq, ?_, hperm, ?_⟩
  · refine h.emits.imp fun ref metric hemits ↦ ?_
    exact hemits.congr (h.id_eq ref).symm (h.visible_eq ref).symm
  · intro ref href hfinished
    have hnodup := hperm.nodup_iff.mpr hreg.nodup
    rcases (h.finished_iff ref).mp hfinished with hbefore | hdone
    · exact hreg.unfinished ref (hperm.subset (List.mem_append_right _ href)) hbefore
    · exact hnodup.disjoint hdone href

/-- The preparation of a batch, among registered requests. -/
theorem frontier_parts {nowMs : ℚ} {plan : FrontierPlan} {locals locals' : Locals}
    {world world' : World C K} (hreg : locals.Registered)
    (h : engine.prepareSchedulerFrontier nowMs locals world = .ok (plan, locals') world') :
    ∃ done metrics, locals.Parts locals' done metrics ∧
      (∀ ref, (locals'.heap ref).visible = (locals.heap ref).visible) ∧
      locals'.iterationMetrics = locals.iterationMetrics := by
  obtain ⟨done, dropped, metrics, hclears, hperm⟩ := frontier_clears hreg.nodup h
  exact ⟨done, metrics, hclears.parts hreg hperm, hclears.visible_eq, hclears.iterations_eq⟩

/-- Two heaps that agree off some of the requests. -/
theorem Heap.visible_balance {heap heap' : Heap} {scheduled refs : List ℕ}
    (hsub : scheduled.Sublist refs) (hnodup : refs.Nodup)
    (hsame : ∀ ref ∈ refs, ref ∉ scheduled → (heap' ref).visible = (heap ref).visible) :
    heap.visible refs + heap'.visible scheduled = heap'.visible refs + heap.visible scheduled := by
  obtain ⟨rest, hperm⟩ := hsub.exists_perm_append
  have hapart := (hperm.nodup_iff.mp hnodup).disjoint
  have hrest : heap'.visible rest = heap.visible rest := by
    refine congrArg List.sum (List.map_congr_left fun ref href ↦ hsame ref ?_ ?_)
    · exact hperm.symm.subset (List.mem_append_right _ href)
    · exact fun hmem ↦ hapart hmem href
  have hsplit (heap : Heap) : heap.visible refs = heap.visible scheduled + heap.visible rest := by
    rw [Heap.visible, Heap.visible, Heap.visible, (hperm.map _).sum_eq, List.map_append,
      List.sum_append]
  rw [hsplit heap, hsplit heap', hrest, add_right_comm, add_comm (heap.visible scheduled),
    add_right_comm]

/-- The request objects, queues and metrics of an iteration, phase by phase: the scheduler and
the waits of those who sit it out, the slices, and the end. -/
structure Iteration (locals started served locals' : Locals) (scheduled : List ℕ)
    (shape : BatchShape) (metric : IterationMetrics) (totals : IterationTotals) : Prop where
  slices : Slices locals.heap started.heap scheduled shape.requestSlices
  scheduled_sublist : scheduled.Sublist locals.active
  scheduled_running : scheduled ⊆ started.running
  running_subset : started.running ⊆ locals.running ++ scheduled
  waiting_subset : started.waiting ⊆ locals.waiting
  active_eq : started.active = locals.active
  states_eq : started.statesById = locals.statesById
  requests_eq : started.requestsById = locals.requestsById
  lookups_eq : started.lookupById = locals.lookupById
  metrics_eq : started.requestMetrics = locals.requestMetrics
  iterations_eq : started.iterationMetrics = locals.iterationMetrics
  applies : started.Applies served shape.requestSlices
  metric_eq : metric.visible = totals.visible
  final_eq : locals' = { served with
    iterationMetrics := served.iterationMetrics ++ [metric]
    running := served.running.filter fun ref ↦ (served.heap ref).status ≠ .finished }

theorem run_iteration_phases {instanceUuid : String} {nowMs finishMs : ℚ} {iterationId : ℕ}
    {locals locals' : Locals} {world world' : World C K}
    (h : engine.runIteration instanceUuid nowMs iterationId locals world =
      .ok (finishMs, locals') world') :
    ∃ started served scheduled shape metric totals,
      Iteration locals started served locals' scheduled shape metric totals ∧
      ∃ startTimeMs contributions records world₁ world₂,
        engine.applySlices startTimeMs finishMs contributions shape.requestSlices {} [] started
          world₁ = .ok (totals, records, served) world₂ := by
  unfold Engine.runIteration at h
  simp only [bind_ok, check_ok] at h
  obtain ⟨⟨shape, admission⟩, _, ⟨hschedule, rfl⟩, h⟩ := h
  obtain ⟨scheduled, hslices, hsub, hrunning, hadmitted, hwaiting, hactive⟩ :=
    schedule_slices hschedule
  split_ifs at h
  · simp only [bind_ok] at h
    obtain ⟨_, _, hthrow, -⟩ := h
    cases hthrow
  simp only [bind_ok, check_ok] at h
  obtain ⟨latency, world₁, -, ⟨wait, heap⟩, _, ⟨hwait, rfl⟩, locals₁, world₂, happly, _, world₃, -,
    h⟩ := h
  cases h
  simp only [Engine.applyScheduleResult, bind_ok, check_ok] at happly
  obtain ⟨contributions, _, ⟨-, rfl⟩, ⟨totals, records, served⟩, world₄, hserve, metric, _,
    ⟨hmetric, rfl⟩, _, _, -, hlocals⟩ := happly
  cases hlocals
  have hrests := compute_wait_rests hwait
  refine ⟨_, served, scheduled, shape, metric, totals, ?_, _, contributions, records, _, _, hserve⟩
  refine ⟨?_, hsub, hrunning, hadmitted, hwaiting, hactive, rfl, rfl, rfl, rfl, rfl,
    apply_slices_applies hserve, ?_, rfl⟩
  · exact ⟨hslices.supplies, fun ref ↦ (hslices.rests ref).trans (hrests ref),
      hslices.unfinished, fun ref href ↦ (hrests ref).load_eq (hslices.handed ref href)⟩
  · unfold buildIterationMetrics at hmetric
    obtain ⟨breakdown, -, hmetric⟩ := except_bind_ok.mp hmetric
    cases hmetric
    rfl

namespace Iteration

variable {locals started served locals' : Locals} {scheduled : List ℕ} {shape : BatchShape}
  {metric : IterationMetrics} {totals : IterationTotals}

theorem id_eq (h : Iteration locals started served locals' scheduled shape metric totals)
    (ref : ℕ) : (started.heap ref).requestId = (locals.heap ref).requestId :=
  (h.slices.continues ref).id_eq

theorem finished_iff (h : Iteration locals started served locals' scheduled shape metric totals)
    (ref : ℕ) : (started.heap ref).status = .finished ↔ (locals.heap ref).status = .finished :=
  (h.slices.continues ref).finished_iff

/-- A request is left alone by the slices unless it is registered under the id of a scheduled
one. -/
theorem untouched (h : Iteration locals started served locals' scheduled shape metric totals)
    {ref : ℕ} (hother : ∀ other ∈ scheduled,
      locals.statesById.lookup (locals.heap other).requestId ≠ some ref) :
    served.heap ref = started.heap ref := by
  refine h.applies.untouched ref fun slice hslice ↦ ?_
  obtain ⟨other, hmem, hid⟩ := forall₂_mem_right h.slices.ids hslice
  rw [hid, h.states_eq]
  exact hother other hmem

/-- Among registered requests only the scheduled ones change. -/
theorem unscheduled (h : Iteration locals started served locals' scheduled shape metric totals)
    (hreg : locals.Registered) {ref : ℕ} (href : ref ∉ scheduled) :
    served.heap ref = started.heap ref := by
  refine h.untouched fun other hother hlookup ↦ ?_
  rw [hreg.states other (h.scheduled_sublist.subset hother)] at hlookup
  cases hlookup
  exact href hother

theorem active_final (h : Iteration locals started served locals' scheduled shape metric totals) :
    locals'.active = (started.running.filter fun ref ↦
      (served.heap ref).status ≠ .finished) ++ started.waiting := by
  rw [h.final_eq, Locals.active, h.applies.running_eq, h.applies.waiting_eq]

theorem active_sublist
    (h : Iteration locals started served locals' scheduled shape metric totals) :
    locals'.active.Sublist locals.active := by
  rw [h.active_final, ← h.active_eq]
  exact List.filter_sublist.append (List.Sublist.refl _)

/-- Whoever has not finished stays. -/
theorem stays (h : Iteration locals started served locals' scheduled shape metric totals)
    {ref : ℕ} (href : ref ∈ locals.active) (hunfinished : (served.heap ref).status ≠ .finished) :
    ref ∈ locals'.active := by
  rw [h.active_final]
  rw [← h.active_eq] at href
  rcases List.mem_append.mp href with href | href
  · exact List.mem_append_left _ (List.mem_filter.mpr ⟨href, decide_eq_true hunfinished⟩)
  · exact List.mem_append_right _ href

theorem heap_final (h : Iteration locals started served locals' scheduled shape metric totals) :
    locals'.heap = served.heap := by
  rw [h.final_eq]

theorem states_final (h : Iteration locals started served locals' scheduled shape metric totals) :
    locals'.statesById = locals.statesById := by
  rw [h.final_eq, h.applies.states_eq, h.states_eq]

theorem states (h : Iteration locals started served locals' scheduled shape metric totals)
    (hreg : locals.Registered) : ∀ ref ∈ scheduled,
      started.statesById.lookup (started.heap ref).requestId = some ref := by
  intro ref href
  rw [h.states_eq, h.id_eq]
  exact hreg.states ref (h.scheduled_sublist.subset href)

theorem ids (h : Iteration locals started served locals' scheduled shape metric totals) :
    List.Forall₂ (fun ref (slice : ScheduledSlice) ↦
      slice.requestId = (started.heap ref).requestId) scheduled shape.requestSlices :=
  h.slices.ids.imp fun ref _ hslice ↦ hslice.trans (h.id_eq ref).symm

theorem parts (h : Iteration locals started served locals' scheduled shape metric totals)
    (hreg : locals.Registered) {done : List ℕ} {metrics : List BatchAwareRequestMetrics}
    (hmetrics : served.requestMetrics = started.requestMetrics ++ metrics)
    (hsub : done.Sublist scheduled)
    (hfinished : ∀ ref ∈ scheduled, (served.heap ref).status = .finished ↔ ref ∈ done)
    (hemits : List.Forall₂ (fun ref ↦ Emits started.requestsById (served.heap ref)) done metrics) :
    locals.Parts locals' done metrics := by
  have hnodup : started.active.Nodup := h.active_eq ▸ hreg.nodup
  -- who is finished after the slices
  have hdone : ∀ ref ∈ started.active, (served.heap ref).status = .finished ↔ ref ∈ done := by
    intro ref href
    by_cases hscheduled : ref ∈ scheduled
    · exact hfinished ref hscheduled
    · rw [h.unscheduled hreg hscheduled, h.finished_iff]
      exact iff_of_false (hreg.unfinished ref (h.active_eq ▸ href))
        fun hmem ↦ hscheduled (hsub.subset hmem)
  have hrunning : (done ++ started.running.filter fun ref ↦
      (served.heap ref).status ≠ .finished).Perm started.running := by
    refine (List.perm_ext_iff_of_nodup ?_ hnodup.of_append_left).mpr fun ref ↦ ?_
    · refine List.Nodup.append (hreg.nodup.sublist (hsub.trans h.scheduled_sublist))
        (hnodup.of_append_left.filter _) fun ref hmem hkept ↦ ?_
      obtain ⟨href, hunfinished⟩ := List.mem_filter.mp hkept
      exact of_decide_eq_true hunfinished
        ((hdone ref (List.mem_append_left _ href)).mpr hmem)
    · rw [List.mem_append, List.mem_filter, decide_eq_true_iff]
      constructor
      · rintro (hmem | ⟨href, -⟩)
        · exact h.scheduled_running (hsub.subset hmem)
        · exact href
      · intro href
        rw [ne_eq, hdone ref (List.mem_append_left _ href)]
        by_cases hmem : ref ∈ done
        · exact .inl hmem
        · exact .inr ⟨href, hmem⟩
  have hactive := h.active_final
  have hheap := h.heap_final
  refine ⟨h.states_final, ?_, ?_, ?_, ?_, ?_, ?_⟩
  · rw [h.final_eq, h.applies.requests_eq, h.requests_eq]
  · intro ref
    rw [hheap, h.applies.tag_eq]
    exact (h.slices.continues ref).tag_eq
  · rw [h.final_eq, hmetrics, h.metrics_eq]
  · rw [hheap, ← h.requests_eq]
    exact hemits
  · rw [hactive, ← h.active_eq, ← List.append_assoc]
    exact hrunning.append_right _
  · rw [hactive, hheap]
    intro ref href
    rcases List.mem_append.mp href with href | href
    · exact of_decide_eq_true (List.mem_filter.mp href).2
    · intro hclosed
      have hmem := (hdone ref (List.mem_append_right _ href)).mp hclosed
      exact hnodup.disjoint (h.scheduled_running (hsub.subset hmem)) href

end Iteration

/-- One iteration, among registered requests. -/
theorem run_iteration_parts {instanceUuid : String} {nowMs finishMs : ℚ} {iterationId : ℕ}
    {locals locals' : Locals} {world world' : World C K} (hreg : locals.Registered)
    (h : engine.runIteration instanceUuid nowMs iterationId locals world =
      .ok (finishMs, locals') world') :
    ∃ done metrics metric, locals.Parts locals' done metrics ∧
      locals'.iterationMetrics = locals.iterationMetrics ++ [metric] ∧
      metric.visible + locals.heap.visible locals.active =
        locals'.heap.visible locals.active := by
  obtain ⟨started, served, scheduled, shape, metric, totals, hphases, _, _, _, _, _, hserve⟩ :=
    run_iteration_phases h
  have hnodup := hreg.nodup.sublist hphases.scheduled_sublist
  obtain ⟨done, metrics, hmetrics, hsub, hfinished, hemits, hvisible⟩ :=
    apply_slices_serves hphases.ids (hphases.states hreg) hnodup hserve
  refine ⟨done, metrics, metric, hphases.parts hreg hmetrics hsub hfinished hemits, ?_, ?_⟩
  · rw [hphases.final_eq, hphases.applies.iterations_eq, hphases.iterations_eq]
  · have hbalance : started.heap.visible locals.active + served.heap.visible scheduled =
        served.heap.visible locals.active + started.heap.visible scheduled :=
      Heap.visible_balance hphases.scheduled_sublist hreg.nodup fun ref _ href ↦
        congrArg RequestState.visible (hphases.unscheduled hreg href)
    have hstart : started.heap.visible locals.active = locals.heap.visible locals.active :=
      congrArg List.sum (List.map_congr_left fun ref _ ↦
        (hphases.slices.continues ref).visible_eq)
    have hserved : totals.visible + started.heap.visible scheduled =
        served.heap.visible scheduled := by
      refine hvisible.trans ?_
      exact zero_add _
    rw [hstart, ← hserved, ← add_assoc] at hbalance
    rw [hphases.metric_eq, hphases.final_eq, add_comm totals.visible]
    exact add_right_cancel hbalance

end InferTwin
