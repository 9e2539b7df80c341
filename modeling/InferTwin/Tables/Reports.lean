import InferTwin.Tables.Moves
import InferTwin.Tables.Run

namespace InferTwin

open Effect

variable {C K : Type} {engine : Engine C K}

/-- Pairs that are not decreasing and have equal sums on both sides are equal pairs. -/
theorem pairs_eq_of_sums {pairs : List (ℕ × ℕ)} (hle : ∀ pair ∈ pairs, pair.1 ≤ pair.2)
    (hsum : (pairs.map Prod.fst).sum = (pairs.map Prod.snd).sum) :
    ∀ pair ∈ pairs, pair.1 = pair.2 := by
  intro pair hpair
  by_contra hne
  have hlt : ((pairs : Multiset (ℕ × ℕ)).map Prod.fst).sum <
      ((pairs : Multiset (ℕ × ℕ)).map Prod.snd).sum :=
    Multiset.sum_lt_sum hle ⟨pair, hpair, lt_of_le_of_ne (hle pair hpair) hne⟩
  rw [Multiset.map_coe, Multiset.map_coe, Multiset.sum_coe, Multiset.sum_coe, hsum] at hlt
  exact lt_irrefl _ hlt

/-- Permuted pieces of disjoint lists are permuted one by one. -/
theorem perm_pieces {α : Type} [DecidableEq α] {as as' bs bs' : List α}
    (h : (as ++ as').Perm (bs ++ bs')) (hsub : as ⊆ bs) (hsub' : as' ⊆ bs')
    (hdisjoint : bs.Disjoint bs') : as.Perm bs ∧ as'.Perm bs' := by
  have hfilter := h.filter fun a ↦ a ∈ bs
  have hall : as.filter (fun a ↦ a ∈ bs) = as :=
    List.filter_eq_self.mpr fun a ha ↦ decide_eq_true (hsub ha)
  have hnone : as'.filter (fun a ↦ a ∈ bs) = [] :=
    List.filter_eq_nil_iff.mpr fun a ha ↦ by simpa using fun hmem ↦ hdisjoint hmem (hsub' ha)
  have hall' : bs.filter (fun a ↦ a ∈ bs) = bs :=
    List.filter_eq_self.mpr fun a ha ↦ decide_eq_true ha
  have hnone' : bs'.filter (fun a ↦ a ∈ bs) = [] :=
    List.filter_eq_nil_iff.mpr fun a ha ↦ by simpa using fun hmem ↦ hdisjoint hmem ha
  rw [List.filter_append, List.filter_append, hall, hnone, hall', hnone', List.append_nil,
    List.append_nil] at hfilter
  exact ⟨hfilter, (List.perm_append_left_iff as).mp (h.trans (hfilter.symm.append_right bs'))⟩

section Leaving

variable {count : ℕ} {locals locals' locals'' : Locals} {left left' : List ℕ}
  {metrics metrics' : List BatchAwareRequestMetrics}

/-- Requests leave, each with a metric that says what is registered under its id. -/
structure Locals.Leaves (locals locals' : Locals) (left : List ℕ)
    (metrics : List BatchAwareRequestMetrics) : Prop where
  states_eq : locals'.statesById = locals.statesById
  requests_eq : locals'.requestsById = locals.requestsById
  tag_eq : ∀ ref, (locals'.heap ref).tag = (locals.heap ref).tag
  finished_iff : ∀ ref, (locals'.heap ref).status = .finished ↔
    (locals.heap ref).status = .finished ∨ ref ∈ left
  active : locals'.active.Subperm locals.active
  stays : ∀ ref ∈ locals.active, (locals'.heap ref).status ≠ .finished → ref ∈ locals'.active
  metrics_eq : locals'.requestMetrics = locals.requestMetrics ++ metrics
  attributed : List.Forall₂ (fun ref (metric : BatchAwareRequestMetrics) ↦
    ∃ request, locals.requestsById.lookup (locals.heap ref).requestId = some request ∧
      metric.tag = request.tag) left metrics

namespace Locals.Leaves

theorem id_eq (h : locals.Leaves locals' left metrics) (ref : ℕ) :
    (locals'.heap ref).requestId = (locals.heap ref).requestId :=
  congrArg Tag.requestId (h.tag_eq ref)

theorem trans (h : locals.Leaves locals' left metrics)
    (h' : locals'.Leaves locals'' left' metrics') :
    locals.Leaves locals'' (left ++ left') (metrics ++ metrics') where
  states_eq := h'.states_eq.trans h.states_eq
  requests_eq := h'.requests_eq.trans h.requests_eq
  tag_eq ref := (h'.tag_eq ref).trans (h.tag_eq ref)
  finished_iff ref := by
    rw [h'.finished_iff, h.finished_iff, List.mem_append, or_assoc]
  active := h'.active.trans h.active
  stays ref href hunfinished := by
    refine h'.stays ref (h.stays ref href fun hfinished ↦ hunfinished ?_) hunfinished
    exact (h'.finished_iff ref).mpr (.inl hfinished)
  metrics_eq := by rw [h'.metrics_eq, h.metrics_eq, List.append_assoc]
  attributed := by
    refine List.rel_append h.attributed (h'.attributed.imp fun ref metric hmetric ↦ ?_)
    rwa [h.id_eq, h.requests_eq] at hmetric

/-- Nobody leaves where only the queues change. -/
theorem of_queues (h : locals'.requestMetrics = locals.requestMetrics)
    (hstates : locals'.statesById = locals.statesById)
    (hrequests : locals'.requestsById = locals.requestsById)
    (hheap : ∀ ref, (locals.heap ref).Continues (locals'.heap ref))
    (hactive : locals'.active.Subperm locals.active)
    (hstays : ∀ ref ∈ locals.active, (locals'.heap ref).status ≠ .finished →
      ref ∈ locals'.active) : locals.Leaves locals' [] [] where
  states_eq := hstates
  requests_eq := hrequests
  tag_eq ref := (hheap ref).tag_eq
  finished_iff ref := by simp [(hheap ref).finished_iff]
  active := hactive
  stays := hstays
  metrics_eq := by rw [h, List.append_nil]
  attributed := .nil

end Locals.Leaves

theorem Locals.Clears.leaves {done dropped : List ℕ}
    (h : locals.Clears locals' done dropped metrics)
    (hperm : (done ++ dropped ++ locals'.active).Perm locals.active) :
    locals.Leaves locals' done metrics where
  states_eq := h.states_eq
  requests_eq := h.requests_eq
  tag_eq := h.tag_eq
  finished_iff := h.finished_iff
  active := (List.sublist_append_right _ _).subperm.trans hperm.subperm
  stays ref href hunfinished := by
    rw [ne_eq, h.finished_iff, not_or] at hunfinished
    rcases List.mem_append.mp (hperm.symm.subset href) with hgone | hkept
    · rcases List.mem_append.mp hgone with hdone | hdropped
      · exact absurd hdone hunfinished.2
      · exact absurd (h.dropped ref hdropped) hunfinished.1
    · exact hkept
  metrics_eq := h.metrics_eq
  attributed := h.emits.imp fun _ _ hemits ↦ hemits.registered

/-- Whoever is registered under a request's id. -/
def Locals.registrant (locals : Locals) (ref : ℕ) : ℕ :=
  (locals.statesById.lookup (locals.heap ref).requestId).getD ref

/-- The metrics of a replay: of each, who left with it and who was registered under his id.
Everybody who has finished left with a metric, and everybody else is in the queues. -/
structure Locals.Reports (locals : Locals) (count : ℕ) (reports : List (ℕ × ℕ)) : Prop
    extends locals.Numbered count where
  newest : ∀ id ref, locals.statesById.lookup id = some ref →
    ∀ other < count, (locals.heap other).requestId = id → other ≤ ref
  requests : ∀ id request, locals.requestsById.lookup id = some request →
    ∃ ref, locals.statesById.lookup id = some ref ∧ (locals.heap ref).tag = request.tag
  present : ∀ ref < count, (locals.heap ref).status ≠ .finished → ref ∈ locals.active
  reported : ∀ ref < count, (locals.heap ref).status = .finished → ref ∈ reports.map Prod.fst
  ordered : ∀ report ∈ reports, report.1 ≤ report.2 ∧ report.2 < count
  tags_eq : locals.requestMetrics.map BatchAwareRequestMetrics.tag =
    reports.map fun report ↦ (locals.heap report.2).tag

namespace Locals.Reports

variable {reports : List (ℕ × ℕ)}

theorem initial (queue : SharedLinkFIFOTransferQueue) :
    Locals.Reports { transferQueue := queue } 0 [] where
  toNumbered := Locals.numbered_initial queue
  newest := by simp
  requests := by simp
  present := by simp
  reported := by simp
  ordered := by simp
  tags_eq := rfl

/-- Somebody arrives. -/
theorem admits (h : locals.Reports count reports) {request : SimulationRequest}
    (hadmits : locals.Admits locals' request count) : locals'.Reports (count + 1) reports := by
  obtain ⟨state, htag, hstatus, -, hheap⟩ := hadmits.state
  have hself : locals'.heap count = state := by rw [hheap, Function.update_self]
  have hid : state.requestId = request.requestId := congrArg Tag.requestId htag
  have hlast {ref : ℕ} (href : ref < count + 1) : ref < count ∨ ref = count := by omega
  refine ⟨hadmits.numbered h.toNumbered, ?_, ?_, ?_, ?_, ?_, ?_⟩
  · intro id ref hlookup other hother hsame
    rw [hadmits.states_eq] at hlookup
    by_cases hnew : id = request.requestId
    · rw [hnew, Finmap.lookup_insert, Option.some.injEq] at hlookup
      omega
    · rw [Finmap.lookup_insert_of_ne _ hnew] at hlookup
      rcases hlast hother with hother | rfl
      · rw [hadmits.heap_eq hother] at hsame
        exact h.newest id ref hlookup other hother hsame
      · rw [hself, hid] at hsame
        exact absurd hsame.symm hnew
  · intro id found hfound
    rw [hadmits.requests_eq] at hfound
    rw [hadmits.states_eq]
    by_cases hnew : id = request.requestId
    · rw [hnew, Finmap.lookup_insert, Option.some.injEq] at hfound
      rw [hnew, Finmap.lookup_insert]
      exact ⟨count, rfl, by rw [hself, htag, hfound]⟩
    · rw [Finmap.lookup_insert_of_ne _ hnew] at hfound
      rw [Finmap.lookup_insert_of_ne _ hnew]
      obtain ⟨ref, href, hsame⟩ := h.requests id found hfound
      exact ⟨ref, href, by rw [hadmits.heap_eq (h.keys id ref href).1, hsame]⟩
  · intro ref href hunfinished
    rw [hadmits.active_eq]
    rcases hlast href with href | rfl
    · rw [hadmits.heap_eq href] at hunfinished
      exact List.mem_append_left _ (h.present ref href hunfinished)
    · exact List.mem_append_right _ (List.mem_singleton_self _)
  · intro ref href hfinished
    rcases hlast href with href | rfl
    · rw [hadmits.heap_eq href] at hfinished
      exact h.reported ref href hfinished
    · rw [hself, hstatus] at hfinished
      cases hfinished
  · exact fun report hreport ↦ ⟨(h.ordered report hreport).1,
      Nat.lt_succ_of_lt (h.ordered report hreport).2⟩
  · rw [hadmits.metrics_eq, h.tags_eq]
    refine List.map_congr_left fun report hreport ↦ ?_
    rw [hadmits.heap_eq (h.ordered report hreport).2]

/-- Those who leave are reported as whoever is registered under their ids. -/
theorem leaves (h : locals.Reports count reports) (hleaves : locals.Leaves locals' left metrics)
    (hleft : ∀ ref ∈ left, ref < count) :
    locals'.Reports count (reports ++ left.map fun ref ↦ (ref, locals.registrant ref)) := by
  have hregistrant : ∀ ref ∈ left,
      locals.statesById.lookup (locals.heap ref).requestId = some (locals.registrant ref) := by
    intro ref href
    obtain ⟨metric, -, request, hrequest, -⟩ := forall₂_mem_right hleaves.attributed.flip href
    obtain ⟨found, hfound, -⟩ := h.requests _ request hrequest
    rw [registrant, hfound, Option.getD_some]
  refine ⟨⟨?_, ?_, ?_⟩, ?_, ?_, ?_, ?_, ?_, ?_⟩
  · obtain ⟨kept, hperm, hsub⟩ := hleaves.active
    exact hperm.nodup_iff.mp (h.nodup.sublist hsub)
  · exact fun ref href ↦ h.active_lt ref (hleaves.active.subset href)
  · intro id ref hlookup
    rw [hleaves.states_eq] at hlookup
    rw [hleaves.id_eq]
    exact h.keys id ref hlookup
  · intro id ref hlookup other hother hsame
    rw [hleaves.states_eq] at hlookup
    rw [hleaves.id_eq] at hsame
    exact h.newest id ref hlookup other hother hsame
  · intro id request hrequest
    rw [hleaves.requests_eq] at hrequest
    obtain ⟨ref, href, htag⟩ := h.requests id request hrequest
    exact ⟨ref, by rw [hleaves.states_eq, href], by rw [hleaves.tag_eq, htag]⟩
  · intro ref href hunfinished
    refine hleaves.stays ref (h.present ref href fun hfinished ↦ hunfinished ?_) hunfinished
    exact (hleaves.finished_iff ref).mpr (.inl hfinished)
  · intro ref href hfinished
    rw [List.map_append, List.map_map, List.mem_append]
    rcases (hleaves.finished_iff ref).mp hfinished with hbefore | hnow
    · exact .inl (h.reported ref href hbefore)
    · exact .inr (List.mem_map.mpr ⟨ref, hnow, rfl⟩)
  · refine List.forall_mem_append.mpr ⟨h.ordered, List.forall_mem_map.mpr fun ref href ↦ ?_⟩
    have hlookup := hregistrant ref href
    exact ⟨h.newest _ _ hlookup ref (hleft ref href) rfl, (h.keys _ _ hlookup).1⟩
  · have hnew : metrics.map BatchAwareRequestMetrics.tag =
        left.map fun ref ↦ (locals.heap (locals.registrant ref)).tag := by
      refine forall₂_map_eq hleaves.attributed fun ref href metric ⟨request, hrequest, htag⟩ ↦ ?_
      obtain ⟨found, hfound, hsame⟩ := h.requests _ request hrequest
      rw [registrant, hfound, Option.getD_some, hsame, htag]
    rw [hleaves.metrics_eq, List.map_append, h.tags_eq, hnew, List.map_append, List.map_map]
    refine congrArg₂ (· ++ ·) ?_ ?_
    · exact List.map_congr_left fun report _ ↦ (hleaves.tag_eq report.2).symm
    · exact List.map_congr_left fun ref _ ↦ (hleaves.tag_eq _).symm

end Locals.Reports

end Leaving

section Phases

variable {count : ℕ} {locals locals' : Locals} {world world' : World C K}

theorem apply_slices_leaves {startTimeMs finishMs : ℚ}
    {contributions : Dict String IterationLatencyBreakdown} {slices : List ScheduledSlice}
    {totals totals' : IterationTotals} {records records' : List SliceRecord}
    (h : engine.applySlices startTimeMs finishMs contributions slices totals records locals world =
      .ok (totals', records', locals') world') :
    ∃ left metrics, locals.Leaves locals' left metrics ∧
      ∀ ref ∈ left, ∃ id, locals.statesById.lookup id = some ref := by
  induction slices generalizing totals records locals world with
  | nil =>
    cases h
    exact ⟨[], [], .of_queues rfl rfl rfl (fun _ ↦ .refl _) (List.Subperm.refl _)
      (fun _ href _ ↦ href), by simp⟩
  | cons slice slices ih =>
    unfold Engine.applySlices at h
    simp only [bind_ok, check_ok] at h
    obtain ⟨ref, _, ⟨href, rfl⟩, lookup, _, ⟨-, rfl⟩, contribution, _, ⟨-, rfl⟩,
      ⟨progress, metric⟩, world₁, hslice, h⟩ := h
    have hserves := apply_slice_serves hslice
    have hmoves := (apply_slice_moves hslice).2.1
    have hid : progress.state.requestId = (locals.heap ref).requestId :=
      congrArg Tag.requestId hserves.tag_eq
    have hother {other : ℕ} (hne : other ≠ ref) :
        Function.update locals.heap ref progress.state other = locals.heap other :=
      Function.update_of_ne hne _ _
    have hstep : locals.Leaves { locals with
        heap := Function.update locals.heap ref progress.state
        transferQueue := progress.queue
        requestMetrics := locals.requestMetrics ++ metric.toList }
        (metric.toList.map fun _ ↦ ref) metric.toList := by
      refine ⟨rfl, rfl, fun other ↦ ?_, fun other ↦ ?_, List.Subperm.refl _,
        fun _ hactive _ ↦ hactive, rfl, ?_⟩
      · exact Heap.same_update RequestState.tag hserves.tag_eq other
      · dsimp only
        by_cases hne : other = ref
        · rw [hne, Function.update_self, hserves.finished_iff]
          cases metric with
          | none =>
            have hbefore : (locals.heap ref).status ≠ .finished := fun hfinished ↦ by
              have hafter := hserves.finished_iff.mp (hmoves.finished hfinished)
              cases hafter
            simp [hbefore]
          | some metric => simp
        · rw [hother hne]
          cases metric <;> simp [hne]
      · cases metric with
        | none => exact .nil
        | some metric =>
          refine .cons ?_ .nil
          rw [← hid]
          exact (hserves.emits metric rfl).registered
    obtain ⟨left, metrics, hleaves, hknown⟩ := ih h
    refine ⟨_, _, hstep.trans hleaves, fun other hmem ↦ ?_⟩
    rcases List.mem_append.mp hmem with hmem | hmem
    · obtain ⟨_, -, rfl⟩ := List.mem_map.mp hmem
      exact ⟨slice.requestId, Dict.getItem_ok href⟩
    · exact hknown other hmem

/-- Who leaves in an iteration. -/
theorem run_iteration_leaves {instanceUuid : String} {nowMs finishMs : ℚ} {iterationId : ℕ}
    (hnumbered : locals.Numbered count)
    (h : engine.runIteration instanceUuid nowMs iterationId locals world =
      .ok (finishMs, locals') world') :
    ∃ left metrics, locals.Leaves locals' left metrics ∧ ∀ ref ∈ left, ref < count := by
  obtain ⟨started, served, scheduled, shape, metric, totals, hphases, _, _, _, _, _, hserve⟩ :=
    run_iteration_phases h
  have hstart : locals.Leaves started [] [] := by
    refine .of_queues hphases.metrics_eq hphases.states_eq hphases.requests_eq
      hphases.slices.continues ?_ fun ref href _ ↦ ?_
    · rw [hphases.active_eq]
    · rwa [hphases.active_eq]
  obtain ⟨left, metrics, hleaves, hknown⟩ := apply_slices_leaves hserve
  have hend : served.Leaves locals' [] [] := by
    have hsame : served.active = locals.active := by
      rw [Locals.active, hphases.applies.running_eq, hphases.applies.waiting_eq]
      exact hphases.active_eq
    refine .of_queues ?_ ?_ ?_ (fun ref ↦ ?_) ?_ fun ref href hunfinished ↦ ?_
    · rw [hphases.final_eq]
    · rw [hphases.final_eq]
    · rw [hphases.final_eq]
    · rw [hphases.heap_final]
      exact .refl _
    · rw [hsame]
      exact hphases.active_sublist.subperm
    · exact hphases.stays (hsame ▸ href) (hphases.heap_final ▸ hunfinished)
  refine ⟨_, _, (hstart.trans hleaves).trans hend, fun ref href ↦ ?_⟩
  rw [List.nil_append, List.append_nil] at href
  obtain ⟨id, hlookup⟩ := hknown ref href
  rw [hphases.states_eq] at hlookup
  exact (hnumbered.keys id ref hlookup).1

/-- Who leaves with the preparation of a batch; where the condition fails, somebody does as
another one. -/
theorem frontier_leaves_reports {nowMs : ℚ} {plan : FrontierPlan} {reports : List (ℕ × ℕ)}
    (hreports : locals.Reports count reports)
    (h : engine.prepareSchedulerFrontier nowMs locals world = .ok (plan, locals') world') :
    ∃ left metrics, locals.Leaves locals' left metrics ∧ (∀ ref ∈ left, ref < count) ∧
      (¬engine.frontierRegistered nowMs locals world →
        ∃ ref ∈ left, locals.registrant ref ≠ ref) := by
  obtain ⟨done, dropped, metrics, hclears, hperm⟩ := frontier_clears hreports.nodup h
  have hdone : ∀ ref ∈ done, ref ∈ locals.active := fun ref href ↦
    hperm.subset (List.mem_append_left _ (List.mem_append_left _ href))
  refine ⟨done, metrics, hclears.leaves hperm, fun ref href ↦
    hreports.active_lt ref (hdone ref href), fun hfails ↦ ?_⟩
  rw [frontier_registered hreports.nodup h] at hfails
  push Not at hfails
  obtain ⟨ref, -, hfinished, hbefore, hdisplaced⟩ := hfails
  have hmem := ((hclears.finished_iff ref).mp hfinished).resolve_left hbefore
  refine ⟨ref, hmem, fun hsame ↦ hdisplaced ?_⟩
  obtain ⟨metric, -, hemits⟩ := forall₂_mem_right hclears.emits.flip hmem
  obtain ⟨request, hrequest, -⟩ := hemits.registered
  obtain ⟨found, hfound, -⟩ := hreports.requests _ request hrequest
  rw [Locals.registrant, hfound, Option.getD_some] at hsame
  rw [Locals.RegisteredAs, hfound, hsame]

end Phases

section Loop

variable {count : ℕ} {locals locals' : Locals} {pending all : List SimulationRequest}
  {reports : List (ℕ × ℕ)}

/-- The reports of a replay, whose objects have the tags of its requests in the order of their
arrival. -/
structure Locals.Reported (locals : Locals) (count : ℕ) (pending all : List SimulationRequest)
    (reports : List (ℕ × ℕ)) : Prop extends locals.Reports count reports where
  arrived : ((List.range count).map fun ref ↦ (locals.heap ref).tag) ++
    pending.map SimulationRequest.tag = all.map SimulationRequest.tag

theorem Locals.Reported.leaves (h : locals.Reported count pending all reports) {left : List ℕ}
    {metrics : List BatchAwareRequestMetrics} (hleaves : locals.Leaves locals' left metrics)
    (hleft : ∀ ref ∈ left, ref < count) :
    locals'.Reported count pending all
      (reports ++ left.map fun ref ↦ (ref, locals.registrant ref)) where
  toReports := h.toReports.leaves hleaves hleft
  arrived := by
    rw [← h.arrived]
    refine congrArg (· ++ _) (List.map_congr_left fun ref _ ↦ hleaves.tag_eq ref)

theorem Locals.Reported.admits {request : SimulationRequest}
    (h : locals.Reported count (request :: pending) all reports)
    (hadmits : locals.Admits locals' request count) :
    locals'.Reported (count + 1) pending all reports where
  toReports := h.toReports.admits hadmits
  arrived := by
    obtain ⟨state, htag, -, -, hheap⟩ := hadmits.state
    have hsame : ((List.range count).map fun ref ↦ (locals'.heap ref).tag) =
        (List.range count).map fun ref ↦ (locals.heap ref).tag :=
      List.map_congr_left fun ref href ↦
        congrArg RequestState.tag (hadmits.heap_eq (List.mem_range.mp href))
    rw [← h.arrived, List.range_succ, List.map_append, hsame, List.map_singleton, hheap,
      Function.update_self, htag, List.map_cons, List.append_assoc, List.singleton_append]

theorem move_arrivals_reported {nowMs : ℚ} {pending' : List SimulationRequest} {count' : ℕ}
    (hreported : locals.Reported count pending all reports)
    (h : engine.moveArrivals nowMs pending count locals = .ok (pending', count', locals')) :
    locals'.Reported count' pending' all reports := by
  induction pending generalizing count locals with
  | nil =>
    cases h
    exact hreported
  | cons request pending ih =>
    unfold Engine.moveArrivals at h
    split_ifs at h
    · obtain ⟨locals₁, hadmit, h⟩ := except_bind_ok.mp h
      exact ih (hreported.admits (admit_arrival_admits hadmit)) h
    · cases h
      exact hreported

variable {instanceUuid : String} {fuel : ℕ} {state final : LoopState} {flow : Flow LoopState}
  {world world' : World C K}

/-- A pass of the list loop; where it breaks the condition, it reports somebody as another
one. -/
theorem BodyRuns.reported (hbody : BodyRuns engine instanceUuid state world flow world')
    (hstate : state.locals.Reported state.pendingIndex state.pending all reports) :
    ∃ more, (¬engine.passRegistered state world → ∃ report ∈ more, report.1 ≠ report.2) ∧
      ((∃ next, flow = .proceed next ∧
          next.locals.Reported next.pendingIndex next.pending all (reports ++ more)) ∨
        ∃ final, flow = .stop final ∧ final.locals.active = [] ∧ final.pending = [] ∧
          final.locals.Reported final.pendingIndex final.pending all (reports ++ more)) := by
  have hfrontier {pending pendingIndex locals plan locals'} {world₁ : World C K}
      (harrivals : engine.moveArrivals state.nowMs state.pending state.pendingIndex
        state.locals = .ok (pending, pendingIndex, locals))
      (hprepare : engine.prepareSchedulerFrontier state.nowMs locals world =
        .ok (plan, locals') world₁) :
      ∃ more, (¬engine.passRegistered state world → ∃ report ∈ more, report.1 ≠ report.2) ∧
        locals'.Reported pendingIndex pending all (reports ++ more) := by
    have hmoved := move_arrivals_reported hstate harrivals
    obtain ⟨left, metrics, hleaves, hleft, hfails⟩ :=
      frontier_leaves_reports hmoved.toReports hprepare
    refine ⟨_, fun hbroken ↦ ?_, hmoved.leaves hleaves hleft⟩
    unfold Engine.passRegistered at hbroken
    rw [harrivals] at hbroken
    obtain ⟨ref, href, hother⟩ := hfails hbroken
    exact ⟨_, List.mem_map_of_mem href, hother.symm⟩
  cases hbody with
  | jump harrivals hempty =>
    have hpass : engine.passRegistered state world := by
      unfold Engine.passRegistered
      rw [harrivals]
      exact frontier_registered_of_registered (by simp [hempty])
    refine ⟨[], fun hbroken ↦ absurd hpass hbroken, .inl ⟨_, rfl, ?_⟩⟩
    rw [List.append_nil]
    exact move_arrivals_reported hstate harrivals
  | skip harrivals hprepare =>
    obtain ⟨more, hbroken, hreported⟩ := hfrontier harrivals hprepare
    exact ⟨more, hbroken, .inl ⟨_, rfl, hreported⟩⟩
  | finish harrivals hprepare hempty =>
    obtain ⟨more, hbroken, hreported⟩ := hfrontier harrivals hprepare
    exact ⟨more, hbroken, .inr ⟨_, rfl, hempty, rfl, hreported⟩⟩
  | batch harrivals hprepare hiteration =>
    obtain ⟨more, hbroken, hreported⟩ := hfrontier harrivals hprepare
    obtain ⟨left, metrics, hleaves, hleft⟩ :=
      run_iteration_leaves hreported.toNumbered hiteration
    have hreported' := hreported.leaves hleaves hleft
    rw [List.append_assoc] at hreported'
    refine ⟨_, fun hpass ↦ ?_, .inl ⟨_, rfl, hreported'⟩⟩
    obtain ⟨report, hreport, hother⟩ := hbroken hpass
    exact ⟨report, List.mem_append_left _ hreport, hother⟩

/-- Nothing is left to break the condition. -/
theorem loop_registered_done (hpending : state.pending = []) (hwaiting : state.locals.waiting = [])
    (hrunning : state.locals.running = []) :
    engine.loopRegistered instanceUuid fuel state world := by
  cases fuel with
  | zero => rfl
  | succ fuel =>
    refine loop_registered_succ.mpr ⟨?_, fun next world' hbody ↦ ?_⟩
    · unfold Engine.passRegistered
      rw [hpending]
      exact frontier_registered_of_registered (by simp [Locals.active, hwaiting, hrunning])
    · simp [Engine.loopBody, Engine.moveArrivals, hpending, hwaiting, hrunning] at hbody

/-- A run of the list loop that returns; where a pass breaks the condition, somebody was
reported as another one. -/
theorem run_loop_reported
    (hstate : state.locals.Reported state.pendingIndex state.pending all reports)
    (h : engine.runLoop instanceUuid fuel state world = .ok final world') :
    ∃ more, (¬engine.loopRegistered instanceUuid fuel state world →
        ∃ report ∈ more, report.1 ≠ report.2) ∧
      final.locals.active = [] ∧ final.pending = [] ∧
      final.locals.Reported final.pendingIndex final.pending all (reports ++ more) := by
  induction fuel generalizing state world reports with
  | zero => cases h
  | succ fuel ih =>
    unfold Engine.runLoop at h
    split_ifs at h with hdone
    · cases h
      refine ⟨[], fun hbroken ↦ ?_, ?_, hdone.1, ?_⟩
      · exact absurd (loop_registered_done hdone.1 hdone.2.1 hdone.2.2) hbroken
      · rw [Locals.active, hdone.2.1, hdone.2.2, List.append_nil]
      · rwa [List.append_nil]
    obtain ⟨flow, world₁, hbody, h⟩ := bind_ok.mp h
    obtain ⟨more, hpass, ⟨next, rfl, hreported⟩ | ⟨last, rfl, hactive, hpending, hreported⟩⟩ :=
      (body_runs hbody).reported hstate
    · obtain ⟨more', hloop, hactive, hpending, hreported'⟩ := ih hreported h
      rw [List.append_assoc] at hreported'
      refine ⟨more ++ more', fun hbroken ↦ ?_, hactive, hpending, hreported'⟩
      rw [loop_registered_succ, not_and_or] at hbroken
      rcases hbroken with hbroken | hbroken
      · obtain ⟨report, hreport, hother⟩ := hpass hbroken
        exact ⟨report, List.mem_append_left _ hreport, hother⟩
      · obtain ⟨report, hreport, hother⟩ := hloop fun hregistered ↦ hbroken fun _ _ hsame ↦ by
          rw [hbody] at hsame
          cases hsame
          exact hregistered
        exact ⟨report, List.mem_append_right _ hreport, hother⟩
    · cases h
      refine ⟨more, fun hbroken ↦ hpass fun hregistered ↦ hbroken ?_, hactive, hpending, hreported⟩
      refine loop_registered_succ.mpr ⟨hregistered, fun _ _ hsame ↦ ?_⟩
      rw [hbody] at hsame
      cases hsame

end Loop

section Instance

variable {count : ℕ} {locals : Locals} {all : List SimulationRequest} {reports : List (ℕ × ℕ)}

theorem Locals.Reported.tags_subset (h : locals.Reported count [] all reports) :
    locals.requestMetrics.map BatchAwareRequestMetrics.tag ⊆ all.map SimulationRequest.tag := by
  have harrived := h.arrived
  rw [List.map_nil, List.append_nil] at harrived
  rw [← harrived, h.tags_eq]
  intro tag htag
  obtain ⟨report, hreport, rfl⟩ := List.mem_map.mp htag
  exact List.mem_map.mpr ⟨report.2, List.mem_range.mpr (h.ordered report hreport).2, rfl⟩

/-- When everybody has left and the tags of the metrics are those of the requests, all of them
distinct, nobody was reported as another one. -/
theorem Locals.Reported.faithful (h : locals.Reported count [] all reports)
    (hactive : locals.active = []) (hnodup : (all.map SimulationRequest.tag).Nodup)
    (hperm : (locals.requestMetrics.map BatchAwareRequestMetrics.tag).Perm
      (all.map SimulationRequest.tag)) : ∀ report ∈ reports, report.1 = report.2 := by
  have harrived := h.arrived
  rw [List.map_nil, List.append_nil] at harrived
  have htags : ((reports.map Prod.snd).map fun ref ↦ (locals.heap ref).tag).Perm
      ((List.range count).map fun ref ↦ (locals.heap ref).tag) := by
    rw [List.map_map, harrived]
    exact (List.Perm.of_eq h.tags_eq.symm).trans hperm
  rw [← harrived] at hnodup
  have hnamed : (reports.map Prod.snd).Perm (List.range count) := by
    refine (List.perm_ext_iff_of_nodup (htags.nodup_iff.mpr hnodup).of_map List.nodup_range).mpr
      fun ref ↦ ⟨fun hmem ↦ ?_, fun hmem ↦ ?_⟩
    · obtain ⟨report, hreport, rfl⟩ := List.mem_map.mp hmem
      exact List.mem_range.mpr (h.ordered report hreport).2
    · obtain ⟨other, hother, hsame⟩ :=
        List.mem_map.mp (htags.symm.subset (List.mem_map_of_mem hmem))
      obtain ⟨report, hreport, rfl⟩ := List.mem_map.mp hother
      have hlt := List.mem_range.mpr (h.ordered report hreport).2
      rwa [List.inj_on_of_nodup_map hnodup hlt hmem hsame] at hother
  -- everybody left, and there are no more metrics than requests
  have hgone : (List.range count).Perm (reports.map Prod.fst) := by
    refine (List.nodup_range.subperm fun ref href ↦ ?_).perm_of_length_le ?_
    · refine h.reported ref (List.mem_range.mp href) ?_
      by_contra hunfinished
      have hmem := h.present ref (List.mem_range.mp href) hunfinished
      rw [hactive] at hmem
      simp at hmem
    · rw [List.length_map, ← hnamed.length_eq, List.length_map]
  exact pairs_eq_of_sums (fun report hreport ↦ (h.ordered report hreport).1)
    (hgone.symm.sum_eq.trans hnamed.symm.sum_eq)

/-- An instance whose replay attributes all of its metrics meets the condition. -/
theorem run_instance_attributed {instanceUuid : String} {fuel : ℕ}
    {requests : List SimulationRequest} {result : InstanceResult} {world world' : World C K}
    (h : engine.runInstance instanceUuid fuel requests world = .ok result world') :
    result.requestMetrics.map BatchAwareRequestMetrics.tag ⊆ requests.map SimulationRequest.tag ∧
      ((requests.map SimulationRequest.tag).Nodup →
        (result.requestMetrics.map BatchAwareRequestMetrics.tag).Perm
          (requests.map SimulationRequest.tag) →
        engine.instanceRegistered instanceUuid fuel requests world) := by
  have hsort : (SimulationRequest.sorted requests).Perm requests :=
    List.perm_insertionSort _ requests
  unfold Engine.runInstance at h
  unfold Engine.instanceRegistered
  cases hsorted : SimulationRequest.sorted requests with
  | nil =>
    simp only [hsorted] at h
    cases h
    exact ⟨List.nil_subset _, fun _ _ ↦ rfl⟩
  | cons request pending =>
    simp only [hsorted, bind_ok, check_ok] at h
    obtain ⟨queue, _, ⟨hqueue, rfl⟩, final, world₁, hloop, _, world₂, -, h⟩ := h
    cases h
    rw [hqueue]
    rw [hsorted] at hsort
    have hinitial : (Engine.initialLoopState queue request pending).locals.Reported 0
        (request :: pending) (request :: pending) [] := ⟨.initial queue, rfl⟩
    obtain ⟨more, hbroken, hactive, hpending, hreported⟩ := run_loop_reported hinitial hloop
    rw [hpending, List.nil_append] at hreported
    have htags := hsort.map SimulationRequest.tag
    refine ⟨fun tag htag ↦ htags.subset (hreported.tags_subset htag), fun hnodup hperm ↦ ?_⟩
    by_contra hregistered
    obtain ⟨report, hreport, hother⟩ := hbroken hregistered
    exact hother (hreported.faithful hactive (htags.nodup_iff.mpr hnodup)
      (hperm.trans htags.symm) report hreport)

end Instance

namespace BatchAwareReplayEngine

variable {engine : BatchAwareReplayEngine C K} {fuel : ℕ} {shared shared' : Shared K}

theorem run_groups_attributed {groups : List (String × List SimulationRequest)}
    {result : InstanceResult} (h : engine.runGroups fuel groups shared = .ok result shared') :
    result.requestMetrics.map BatchAwareRequestMetrics.tag ⊆
        (groups.flatMap Prod.snd).map SimulationRequest.tag ∧
      (((groups.flatMap Prod.snd).map SimulationRequest.tag).Nodup →
        (result.requestMetrics.map BatchAwareRequestMetrics.tag).Perm
          ((groups.flatMap Prod.snd).map SimulationRequest.tag) →
        engine.groupsRegistered fuel groups shared) := by
  induction groups generalizing shared result with
  | nil =>
    cases h
    exact ⟨List.nil_subset _, fun _ _ ↦ rfl⟩
  | cons group groups ih =>
    obtain ⟨instanceUuid, requests⟩ := group
    unfold runGroups at h
    obtain ⟨first, shared₁, hfirst, h⟩ := bind_ok.mp h
    obtain ⟨rest, shared₂, hgroups, h⟩ := bind_ok.mp h
    cases h
    obtain ⟨world, hrun, -⟩ := zoom_ok.mp hfirst
    obtain ⟨hsub, hinstance⟩ := run_instance_attributed hrun
    obtain ⟨hsub', hrest⟩ := ih hgroups
    simp only [List.flatMap_cons, List.map_append]
    refine ⟨List.append_subset.mpr ⟨List.subset_append_of_subset_left _ hsub,
      List.subset_append_of_subset_right _ hsub'⟩, fun hnodup hperm ↦ ?_⟩
    -- the tags of the instances are apart, so each instance has those of its own requests
    have hpieces := perm_pieces hperm hsub hsub' hnodup.disjoint
    unfold groupsRegistered
    rw [Bool.and_eq_true, hfirst]
    exact ⟨hinstance hnodup.of_append_left hpieces.1, hrest hnodup.of_append_right hpieces.2⟩

theorem run_attributed {requests : List SimulationRequest} {result : BatchAwareReplayResult}
    (h : engine.run fuel requests shared = .ok result shared')
    (hnodup : (requests.map SimulationRequest.tag).Nodup)
    (hperm : (result.requestMetrics.map BatchAwareRequestMetrics.tag).Perm
      (requests.map SimulationRequest.tag)) : engine.runRegistered fuel requests shared := by
  unfold run at h
  obtain ⟨merged, shared₁, hgroups, h⟩ := bind_ok.mp h
  obtain ⟨_, _, hget, h⟩ := bind_ok.mp h
  cases hget
  cases h
  have htags := (group_by_instance_perm requests).map SimulationRequest.tag
  refine (run_groups_attributed hgroups).2 (htags.nodup_iff.mpr hnodup) ?_
  refine List.Perm.trans ?_ (hperm.trans htags.symm)
  exact ((List.perm_insertionSort _ merged.requestMetrics).map _).symm

end BatchAwareReplayEngine

end InferTwin
