import InferTwin.Tables.Books
import InferTwin.Tables.Run

namespace InferTwin

open Effect

variable {C K : Type}

section Loop

variable {engine : Engine C K} {instanceUuid : String} {nowMs : ℚ} {fuel count count' : ℕ}
  {locals locals' : Locals} {pending pending' : List SimulationRequest}
  {state final : LoopState} {flow : Flow LoopState} {world world' : World C K}

theorem Locals.queued_initial (queue : SharedLinkFIFOTransferQueue) :
    Locals.Queued { transferQueue := queue } 0 where
  sorted := .nil
  active_lt := by simp [Locals.active]
  newest := by simp
  present := by simp
  running := by simp
  unserved := by simp
  unlooked := by simp
  settled := by simp
  made := by simp

/-- Arrivals join the queues, and say nothing. -/
theorem move_arrivals_kept (hq : locals.Queued count)
    (hmade : ∀ request ∈ pending, MadeOf request.promptTokens request.promptBlocks)
    (h : engine.moveArrivals nowMs pending count locals = .ok (pending', count', locals')) :
    locals'.Queued count' ∧
      (∀ request ∈ pending', MadeOf request.promptTokens request.promptBlocks) ∧
      locals'.books count' = locals.books count := by
  induction pending generalizing count locals with
  | nil =>
    cases h
    exact ⟨hq, hmade, rfl⟩
  | cons request pending ih =>
    unfold Engine.moveArrivals at h
    split_ifs at h
    · obtain ⟨hfirst, hrest⟩ := List.forall_mem_cons.mp hmade
      obtain ⟨locals₁, hadmit, h⟩ := except_bind_ok.mp h
      have hadmits := admit_arrival_admits hadmit
      obtain ⟨hq', hmade', hbooks⟩ := ih (hq.admits hfirst hadmits) hrest h
      exact ⟨hq', hmade', hbooks.trans hadmits.books_eq⟩
    · cases h
      exact ⟨hq, hmade, rfl⟩

/-- The preparation of a batch keeps the queues in order, and whoever leaves says it all. -/
theorem frontier_kept (hsplits : engine.cache.Splits) {plan : FrontierPlan}
    (hq : locals.Queued count)
    (h : engine.prepareSchedulerFrontier nowMs locals world = .ok (plan, locals') world') :
    locals'.Queued count ∧ locals'.books count = locals.books count ∧
      locals'.iterationMetrics = locals.iterationMetrics := by
  obtain ⟨done, dropped, metrics, hclears, hperm⟩ := frontier_clears hq.nodup h
  have hnodup : (done ++ (dropped ++ locals'.active)).Nodup := by
    rw [← List.append_assoc]
    exact hperm.nodup_iff.mpr hq.nodup
  refine ⟨frontier_queued hsplits hq h, hclears.books_eq hnodup.of_append_left ?_,
    hclears.iterations_eq⟩
  intro ref href
  refine hq.active_lt ref (hperm.subset ?_)
  exact List.mem_append_left _ (List.mem_append_left _ href)

/-- The list loop between two passes: the queues are in order, and the books say what the
iterations have said. -/
structure LoopState.Kept (state : LoopState) : Prop where
  queued : state.locals.Queued state.pendingIndex
  made : ∀ request ∈ state.pending, MadeOf request.promptTokens request.promptBlocks
  books_eq : state.locals.books state.pendingIndex =
    (state.locals.iterationMetrics.map IterationMetrics.visible).sum

/-- A pass after which nobody is stuck. -/
theorem BodyRuns.kept (hsplits : engine.cache.Splits) (hkept : state.Kept)
    (hbody : BodyRuns engine instanceUuid state world flow world')
    (hfree : ∀ next, flow = .proceed next →
      ∀ ref, ¬next.locals.Stuck next.pendingIndex ref) :
    (∃ next, flow = .proceed next ∧ next.Kept) ∨
      ∃ final, flow = .stop final ∧ final.locals.active = [] ∧ final.Kept := by
  have hmoved {pending pendingIndex locals} (harrivals : engine.moveArrivals state.nowMs
      state.pending state.pendingIndex state.locals = .ok (pending, pendingIndex, locals)) :
      locals.Queued pendingIndex ∧
        (∀ request ∈ pending, MadeOf request.promptTokens request.promptBlocks) ∧
        locals.books pendingIndex =
          (locals.iterationMetrics.map IterationMetrics.visible).sum := by
    obtain ⟨hq, hmade, hbooks⟩ := move_arrivals_kept hkept.queued hkept.made harrivals
    rw [(move_arrivals_metrics harrivals).2]
    exact ⟨hq, hmade, hbooks.trans hkept.books_eq⟩
  have hfrontier {pending pendingIndex locals plan locals'} {world₁ : World C K}
      (harrivals : engine.moveArrivals state.nowMs state.pending state.pendingIndex
        state.locals = .ok (pending, pendingIndex, locals))
      (hprepare : engine.prepareSchedulerFrontier state.nowMs locals world =
        .ok (plan, locals') world₁) :
      locals'.Queued pendingIndex ∧ locals'.books pendingIndex =
        (locals'.iterationMetrics.map IterationMetrics.visible).sum := by
    obtain ⟨hq, -, hbooks⟩ := hmoved harrivals
    obtain ⟨hq', hbooks', hiterations⟩ := frontier_kept hsplits hq hprepare
    rw [hiterations]
    exact ⟨hq', hbooks'.trans hbooks⟩
  cases hbody with
  | jump harrivals =>
    obtain ⟨hq, hmade, hbooks⟩ := hmoved harrivals
    exact .inl ⟨_, rfl, hq, hmade, hbooks⟩
  | skip harrivals hprepare =>
    obtain ⟨hq, hbooks⟩ := hfrontier harrivals hprepare
    exact .inl ⟨_, rfl, hq, (hmoved harrivals).2.1, hbooks⟩
  | finish harrivals hprepare hempty =>
    obtain ⟨hq, hbooks⟩ := hfrontier harrivals hprepare
    exact .inr ⟨_, rfl, hempty, hq, by simp, hbooks⟩
  | batch harrivals hprepare hiteration =>
    obtain ⟨hq, hbooks⟩ := hfrontier harrivals hprepare
    obtain ⟨_, _, _, _, _, _, hphases, -⟩ := run_iteration_phases hiteration
    obtain ⟨hq', metric, hmetric, hbooks'⟩ := run_iteration_books hq
      (fun ref hstuck ↦ hfree _ rfl ref (hstuck.iterates hphases)) hiteration
    refine .inl ⟨_, rfl, hq', (hmoved harrivals).2.1, ?_⟩
    dsimp only
    rw [hbooks', hbooks, hmetric, List.map_append, List.sum_append, List.map_singleton,
      List.sum_singleton]

/-- A run of the list loop that returns leaves nobody active; nobody was stuck on the way. -/
theorem run_loop_kept (hsplits : engine.cache.Splits) (hkept : state.Kept)
    (h : engine.runLoop instanceUuid fuel state world = .ok final world') :
    final.locals.active = [] ∧ final.Kept := by
  induction fuel generalizing state world with
  | zero => cases h
  | succ fuel ih =>
    unfold Engine.runLoop at h
    split_ifs at h with hdone
    · cases h
      refine ⟨?_, hkept⟩
      rw [Locals.active, hdone.2.1, hdone.2.2, List.append_nil]
    obtain ⟨flow, world₁, hbody, h⟩ := bind_ok.mp h
    have hfree : ∀ next, flow = .proceed next →
        ∀ ref, ¬next.locals.Stuck next.pendingIndex ref := by
      rintro next rfl ref hstuck
      exact run_loop_stuck hstuck h
    rcases (body_runs hbody).kept hsplits hkept hfree with ⟨next, rfl, hkept'⟩ |
      ⟨last, rfl, hactive, hkept'⟩
    · exact ih hkept' h
    · cases h
      exact ⟨hactive, hkept'⟩

/-- With nobody active there is nothing left to say. -/
theorem LoopState.Kept.settled (h : state.Kept) (hactive : state.locals.active = []) :
    (state.locals.requestMetrics.map BatchAwareRequestMetrics.visible).sum =
      (state.locals.iterationMetrics.map IterationMetrics.visible).sum := by
  have hnothing : state.locals.heap.shares state.pendingIndex = 0 := by
    refine Finset.sum_eq_zero fun ref href ↦ if_pos ?_
    by_contra hunfinished
    have hpresent := h.queued.present ref (Finset.mem_range.mp href) hunfinished
    rw [hactive] at hpresent
    simp at hpresent
  rw [← h.books_eq, Locals.books, hnothing, add_zero]

theorem run_instance_books (hsplits : engine.cache.Splits)
    {requests : List SimulationRequest} {result : InstanceResult}
    (hmade : ∀ request ∈ requests, MadeOf request.promptTokens request.promptBlocks)
    (h : engine.runInstance instanceUuid fuel requests world = .ok result world') :
    (result.requestMetrics.map BatchAwareRequestMetrics.visible).sum =
      (result.iterationMetrics.map IterationMetrics.visible).sum := by
  have hperm : (SimulationRequest.sorted requests).Perm requests :=
    List.perm_insertionSort _ requests
  unfold Engine.runInstance at h
  cases hsorted : SimulationRequest.sorted requests with
  | nil =>
    simp only [hsorted] at h
    cases h
    rfl
  | cons request pending =>
    simp only [hsorted, bind_ok, check_ok] at h
    obtain ⟨queue, _, -, final, world₁, hloop, _, world₂, -, h⟩ := h
    cases h
    rw [hsorted] at hperm
    have hinitial : (Engine.initialLoopState queue request pending).Kept :=
      ⟨Locals.queued_initial queue, fun other hother ↦ hmade other (hperm.subset hother), rfl⟩
    obtain ⟨hactive, hkept⟩ := run_loop_kept hsplits hinitial hloop
    exact hkept.settled hactive

end Loop

namespace BatchAwareReplayEngine

variable {engine : BatchAwareReplayEngine C K} {fuel : ℕ} {shared shared' : Shared K}

theorem run_groups_books
    (hsplits : ∀ instanceUuid, (engine.forInstance instanceUuid).cache.Splits)
    {groups : List (String × List SimulationRequest)} {result : InstanceResult}
    (hmade : ∀ request ∈ groups.flatMap Prod.snd,
      MadeOf request.promptTokens request.promptBlocks)
    (h : engine.runGroups fuel groups shared = .ok result shared') :
    (result.requestMetrics.map BatchAwareRequestMetrics.visible).sum =
      (result.iterationMetrics.map IterationMetrics.visible).sum := by
  induction groups generalizing shared result with
  | nil =>
    cases h
    rfl
  | cons group groups ih =>
    obtain ⟨instanceUuid, requests⟩ := group
    rw [List.flatMap_cons] at hmade
    obtain ⟨hfirst, hrest⟩ := List.forall_mem_append.mp hmade
    unfold runGroups at h
    obtain ⟨first, shared₁, hinstance, h⟩ := bind_ok.mp h
    obtain ⟨rest, shared₂, hgroups, h⟩ := bind_ok.mp h
    cases h
    obtain ⟨world, hrun, -⟩ := zoom_ok.mp hinstance
    dsimp only
    rw [List.map_append, List.map_append, List.sum_append, List.sum_append,
      run_instance_books (hsplits instanceUuid) hfirst hrun, ih hrest hgroups]

/-- What the requests of a run say of what became visible adds up to what its iterations
say, also where ids come again. -/
theorem run_books (hsplits : ∀ instanceUuid, (engine.forInstance instanceUuid).cache.Splits)
    {requests : List SimulationRequest} {result : BatchAwareReplayResult}
    (hmade : ∀ request ∈ requests, MadeOf request.promptTokens request.promptBlocks)
    (h : engine.run fuel requests shared = .ok result shared') :
    (result.requestMetrics.map BatchAwareRequestMetrics.visible).sum =
      (result.iterationMetrics.map IterationMetrics.visible).sum := by
  unfold run at h
  obtain ⟨merged, shared₁, hgroups, h⟩ := bind_ok.mp h
  obtain ⟨_, _, hget, h⟩ := bind_ok.mp h
  cases hget
  cases h
  have hbooks := run_groups_books hsplits (fun request hrequest ↦ hmade request
    ((group_by_instance_perm requests).subset hrequest)) hgroups
  dsimp only
  rw [((List.perm_insertionSort _ merged.requestMetrics).map _).sum_eq,
    ((List.perm_insertionSort _ merged.iterationMetrics).map _).sum_eq, hbooks]

end BatchAwareReplayEngine

end InferTwin
