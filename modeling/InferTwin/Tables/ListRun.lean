import InferTwin.Tables.Displaced

namespace InferTwin

open Effect

variable {C K : Type} {engine : Engine C K}

/-- A request that comes under the id of an active one displaces it. -/
theorem Locals.Admits.displaces {locals locals' : Locals} {request : SimulationRequest}
    {count ref : ℕ} (h : locals.Admits locals' request count)
    (hnumbered : locals.Numbered count) (hactive : ref ∈ locals.active)
    (hunfinished : (locals.heap ref).status ≠ .finished)
    (hid : (locals.heap ref).requestId = request.requestId) :
    locals'.Displaced (count + 1) ref := by
  have hlt := hnumbered.active_lt ref hactive
  refine ⟨h.numbered hnumbered, ?_, ?_, ?_⟩
  · rw [h.active_eq]
    exact List.mem_append_left _ hactive
  · rw [h.heap_eq hlt]
    exact hunfinished
  · unfold Locals.RegisteredAs
    rw [h.heap_eq hlt, h.states_eq, hid, Finmap.lookup_insert]
    intro heq
    exact hlt.ne' (Option.some.inj heq)

section Arrivals

variable {nowMs : ℚ} {pending pending' : List SimulationRequest} {count count' : ℕ}
  {locals locals' : Locals}

theorem move_arrivals_displaced {ref : ℕ} (hdisplaced : locals.Displaced count ref)
    (h : engine.moveArrivals nowMs pending count locals = .ok (pending', count', locals')) :
    locals'.Displaced count' ref := by
  induction pending generalizing count locals with
  | nil =>
    cases h
    exact hdisplaced
  | cons request pending ih =>
    unfold Engine.moveArrivals at h
    split_ifs at h
    · obtain ⟨locals₁, hadmit, h⟩ := except_bind_ok.mp h
      exact ih (hdisplaced.admits (admit_arrival_admits hadmit)) h
    · cases h
      exact hdisplaced

theorem move_arrivals_metrics
    (h : engine.moveArrivals nowMs pending count locals = .ok (pending', count', locals')) :
    locals'.requestMetrics = locals.requestMetrics ∧
      locals'.iterationMetrics = locals.iterationMetrics := by
  induction pending generalizing count locals with
  | nil =>
    cases h
    exact ⟨rfl, rfl⟩
  | cons request pending ih =>
    unfold Engine.moveArrivals at h
    split_ifs at h
    · obtain ⟨locals₁, hadmit, h⟩ := except_bind_ok.mp h
      have hadmits := admit_arrival_admits hadmit
      exact ⟨(ih h).1.trans hadmits.metrics_eq, (ih h).2.trans hadmits.iterations_eq⟩
    · cases h
      exact ⟨rfl, rfl⟩

/-- Arrivals are registered beside the active requests, or one of them displaces one of
these. -/
theorem move_arrivals_balanced (hnumbered : locals.Numbered count)
    {requestMetrics : List BatchAwareRequestMetrics} {iterationMetrics : List IterationMetrics}
    {all : List SimulationRequest}
    (hbalanced : locals.Balanced requestMetrics iterationMetrics pending all)
    (h : engine.moveArrivals nowMs pending count locals = .ok (pending', count', locals')) :
    locals'.Numbered count' ∧ locals'.Balanced requestMetrics iterationMetrics pending' all ∨
      ∃ ref, locals'.Displaced count' ref := by
  induction pending generalizing count locals with
  | nil =>
    cases h
    exact .inl ⟨hnumbered, hbalanced⟩
  | cons request pending ih =>
    unfold Engine.moveArrivals at h
    split_ifs at h
    · obtain ⟨locals₁, hadmit, h⟩ := except_bind_ok.mp h
      have hadmits := admit_arrival_admits hadmit
      by_cases hnew : ∀ ref ∈ locals.active, (locals.heap ref).requestId ≠ request.requestId
      · exact ih (hadmits.numbered hnumbered) (hadmits.balanced hnumbered hbalanced hnew) h
      · push Not at hnew
        obtain ⟨ref, hactive, hid⟩ := hnew
        have hdisplaced := hadmits.displaces hnumbered hactive
          (hbalanced.registered.unfinished ref hactive) hid
        exact .inr ⟨ref, move_arrivals_displaced hdisplaced h⟩
    · cases h
      exact .inl ⟨hnumbered, hbalanced⟩

/-- Under distinct ids nobody comes under the id of an active request. -/
theorem Locals.Balanced.new_id {request : SimulationRequest}
    {requestMetrics : List BatchAwareRequestMetrics} {iterationMetrics : List IterationMetrics}
    {all : List SimulationRequest} (hd : (all.map SimulationRequest.requestId).Nodup)
    (hbalanced : locals.Balanced requestMetrics iterationMetrics (request :: pending) all) :
    ∀ ref ∈ locals.active, (locals.heap ref).requestId ≠ request.requestId := by
  intro ref href hid
  have hids : all.map SimulationRequest.requestId =
      (all.map SimulationRequest.tag).map Tag.requestId := by
    rw [List.map_map]
    rfl
  rw [hids] at hd
  have hnodup := (((hbalanced.tags.map Tag.requestId).nodup_iff).mpr hd)
  rw [List.map_append, List.map_append] at hnodup
  refine hnodup.of_append_right.disjoint (List.mem_map_of_mem (List.mem_map_of_mem href)) ?_
  rw [List.map_cons, List.map_cons]
  exact List.mem_cons.mpr (.inl hid)

theorem move_arrivals_distinct (hnumbered : locals.Numbered count)
    {requestMetrics : List BatchAwareRequestMetrics} {iterationMetrics : List IterationMetrics}
    {all : List SimulationRequest} (hd : (all.map SimulationRequest.requestId).Nodup)
    (hbalanced : locals.Balanced requestMetrics iterationMetrics pending all)
    (h : engine.moveArrivals nowMs pending count locals = .ok (pending', count', locals')) :
    locals'.Numbered count' ∧ locals'.Balanced requestMetrics iterationMetrics pending' all := by
  induction pending generalizing count locals with
  | nil =>
    cases h
    exact ⟨hnumbered, hbalanced⟩
  | cons request pending ih =>
    unfold Engine.moveArrivals at h
    split_ifs at h
    · obtain ⟨locals₁, hadmit, h⟩ := except_bind_ok.mp h
      have hadmits := admit_arrival_admits hadmit
      exact ih (hadmits.numbered hnumbered)
        (hadmits.balanced hnumbered hbalanced (hbalanced.new_id hd)) h
    · cases h
      exact ⟨hnumbered, hbalanced⟩

end Arrivals

section Phases

variable {count : ℕ} {locals locals' : Locals} {world world' : World C K}
  {pending all : List SimulationRequest}

/-- The books after the preparation of a batch. -/
theorem frontier_balanced {nowMs : ℚ} {plan : FrontierPlan}
    {requestMetrics : List BatchAwareRequestMetrics} {iterationMetrics : List IterationMetrics}
    (hnumbered : locals.Numbered count)
    (hbalanced : locals.Balanced requestMetrics iterationMetrics pending all)
    (h : engine.prepareSchedulerFrontier nowMs locals world = .ok (plan, locals') world') :
    ∃ metrics done, locals.Parts locals' done metrics ∧
      locals'.iterationMetrics = locals.iterationMetrics ∧ locals'.Numbered count ∧
      locals'.Balanced (requestMetrics ++ metrics) iterationMetrics pending all := by
  obtain ⟨done, metrics, hparts, hvisible, hiterations⟩ :=
    frontier_parts hbalanced.registered h
  refine ⟨metrics, done, hparts, hiterations, hparts.numbered hnumbered, ?_⟩
  have hsame : locals'.heap.visible locals.active = locals.heap.visible locals.active :=
    congrArg List.sum (List.map_congr_left fun ref _ ↦ hvisible ref)
  have hall := hparts.balanced [] hbalanced (by simp [hsame])
  rwa [List.append_nil] at hall

/-- The books after an iteration. -/
theorem run_iteration_balanced {instanceUuid : String} {nowMs finishMs : ℚ} {iterationId : ℕ}
    {requestMetrics : List BatchAwareRequestMetrics} {iterationMetrics : List IterationMetrics}
    (hnumbered : locals.Numbered count)
    (hbalanced : locals.Balanced requestMetrics iterationMetrics pending all)
    (h : engine.runIteration instanceUuid nowMs iterationId locals world =
      .ok (finishMs, locals') world') :
    ∃ metrics done metric, locals.Parts locals' done metrics ∧
      locals'.iterationMetrics = locals.iterationMetrics ++ [metric] ∧
      locals'.Numbered count ∧
      locals'.Balanced (requestMetrics ++ metrics) (iterationMetrics ++ [metric]) pending all := by
  obtain ⟨done, metrics, metric, hparts, hiterations, hvisible⟩ :=
    run_iteration_parts hbalanced.registered h
  refine ⟨metrics, done, metric, hparts, hiterations, hparts.numbered hnumbered, ?_⟩
  exact hparts.balanced [metric] hbalanced (by simpa using hvisible)

end Phases

namespace Engine

variable (engine : Engine C K)

/-- Whoever the coming pass finishes without an iteration is registered under its id, as far as
the state before the pass tells. -/
def passRegistered (state : LoopState) (world : World C K) : Bool :=
  match engine.moveArrivals state.nowMs state.pending state.pendingIndex state.locals with
  | .error _ => true
  | .ok (_, _, locals) => engine.frontierRegistered state.nowMs locals world

/-- The same of every pass of the list loop. -/
def loopRegistered (instanceUuid : String) : ℕ → LoopState → World C K → Bool
  | 0, _, _ => true
  | fuel + 1, state, world =>
    engine.passRegistered state world &&
      match engine.loopBody instanceUuid state world with
      | .ok (.proceed state) world => loopRegistered instanceUuid fuel state world
      | _ => true

end Engine

section Runs

variable {instanceUuid : String} {fuel : ℕ} {state final : LoopState} {flow : Flow LoopState}
  {world world' : World C K} {ref : ℕ}

theorem loop_registered_succ : engine.loopRegistered instanceUuid (fuel + 1) state world = true ↔
    engine.passRegistered state world = true ∧ ∀ next world',
      engine.loopBody instanceUuid state world = .ok (.proceed next) world' →
        engine.loopRegistered instanceUuid fuel next world' = true := by
  rw [Engine.loopRegistered, Bool.and_eq_true]
  refine and_congr_right fun _ ↦ ?_
  cases engine.loopBody instanceUuid state world with
  | error _ _ => simp
  | ok flow world' => cases flow <;> simp

/-- A request that is displaced once the arrivals have been moved stays so, and the loop goes
on. -/
theorem BodyRuns.displaced (hbody : BodyRuns engine instanceUuid state world flow world')
    (hpass : engine.passRegistered state world)
    (hmoved : ∀ pending pendingIndex locals,
      engine.moveArrivals state.nowMs state.pending state.pendingIndex state.locals =
        .ok (pending, pendingIndex, locals) → locals.Displaced pendingIndex ref) :
    ∃ next, flow = .proceed next ∧ next.locals.Displaced next.pendingIndex ref := by
  have hfrontier {pending pendingIndex locals plan locals'} {world₁ : World C K}
      (harrivals : engine.moveArrivals state.nowMs state.pending state.pendingIndex
        state.locals = .ok (pending, pendingIndex, locals))
      (hprepare : engine.prepareSchedulerFrontier state.nowMs locals world =
        .ok (plan, locals') world₁) : locals'.Displaced pendingIndex ref := by
    have hmoved := hmoved _ _ _ harrivals
    obtain ⟨done, dropped, metrics, hclears, hperm⟩ :=
      frontier_clears hmoved.numbered.nodup hprepare
    unfold Engine.passRegistered at hpass
    rw [harrivals] at hpass
    refine hmoved.clears hclears hperm fun hmem ↦ ?_
    have hfinished := (hclears.finished_iff ref).mpr (.inr hmem)
    exact ((frontier_registered hmoved.numbered.nodup hprepare).mp hpass ref hmoved.active
      hfinished).elim hmoved.unfinished hmoved.displaced
  cases hbody with
  | jump harrivals => exact ⟨_, rfl, hmoved _ _ _ harrivals⟩
  | skip harrivals hprepare => exact ⟨_, rfl, hfrontier harrivals hprepare⟩
  | finish harrivals hprepare hempty =>
    have hactive := (hfrontier harrivals hprepare).active
    rw [hempty] at hactive
    simp at hactive
  | batch harrivals hprepare hiteration =>
    obtain ⟨_, _, _, _, _, _, hphases, -⟩ := run_iteration_phases hiteration
    exact ⟨_, rfl, (hfrontier harrivals hprepare).iterates hphases⟩

/-- A displaced request is never got rid of. -/
theorem run_loop_displaced (hregistered : engine.loopRegistered instanceUuid fuel state world)
    (hdisplaced : state.locals.Displaced state.pendingIndex ref) :
    engine.runLoop instanceUuid fuel state world ≠ .ok final world' := by
  induction fuel generalizing state world with
  | zero =>
    intro h
    cases h
  | succ fuel ih =>
    intro h
    obtain ⟨hpass, hnext⟩ := loop_registered_succ.mp hregistered
    unfold Engine.runLoop at h
    split_ifs at h with hdone
    · have hactive := hdisplaced.active
      rw [Locals.active, hdone.2.1, hdone.2.2] at hactive
      simp at hactive
    obtain ⟨flow, world₁, hbody, h⟩ := bind_ok.mp h
    obtain ⟨next, rfl, hdisplaced'⟩ := (body_runs hbody).displaced hpass
      fun _ _ _ harrivals ↦ move_arrivals_displaced hdisplaced harrivals
    exact ih (hnext _ _ hbody) hdisplaced' h

/-- The numbering and the books of the list loop between two passes. -/
structure LoopState.Balanced (state : LoopState) (all : List SimulationRequest) : Prop where
  numbered : state.locals.Numbered state.pendingIndex
  balanced : state.locals.Balanced state.locals.requestMetrics state.locals.iterationMetrics
    state.pending all

/-- A pass in which nobody is displaced keeps the books in balance. -/
theorem BodyRuns.balanced (hbody : BodyRuns engine instanceUuid state world flow world')
    {all : List SimulationRequest}
    (hmoved : ∀ pending pendingIndex locals,
      engine.moveArrivals state.nowMs state.pending state.pendingIndex state.locals =
        .ok (pending, pendingIndex, locals) → locals.Numbered pendingIndex ∧
          locals.Balanced state.locals.requestMetrics state.locals.iterationMetrics pending all) :
    (∃ next, flow = .proceed next ∧ next.Balanced all) ∨
      ∃ final, flow = .stop final ∧ final.locals.active = [] ∧ final.pending = [] ∧
        final.Balanced all := by
  have hfrontier {pending pendingIndex locals plan locals'} {world₁ : World C K}
      (harrivals : engine.moveArrivals state.nowMs state.pending state.pendingIndex
        state.locals = .ok (pending, pendingIndex, locals))
      (hprepare : engine.prepareSchedulerFrontier state.nowMs locals world =
        .ok (plan, locals') world₁) : locals'.Numbered pendingIndex ∧
          locals'.Balanced locals'.requestMetrics locals'.iterationMetrics pending all := by
    obtain ⟨hnumbered, hbalanced⟩ := hmoved _ _ _ harrivals
    obtain ⟨hmetrics, hiterations⟩ := move_arrivals_metrics harrivals
    obtain ⟨metrics, done, hparts, hiterations', hnumbered', hbalanced'⟩ :=
      frontier_balanced hnumbered hbalanced hprepare
    refine ⟨hnumbered', ?_⟩
    rw [hparts.metrics_eq, hmetrics, hiterations', hiterations]
    exact hbalanced'
  cases hbody with
  | jump harrivals =>
    obtain ⟨hnumbered, hbalanced⟩ := hmoved _ _ _ harrivals
    obtain ⟨hmetrics, hiterations⟩ := move_arrivals_metrics harrivals
    refine .inl ⟨_, rfl, hnumbered, ?_⟩
    dsimp only
    rw [hmetrics, hiterations]
    exact hbalanced
  | skip harrivals hprepare =>
    obtain ⟨hnumbered, hbalanced⟩ := hfrontier harrivals hprepare
    exact .inl ⟨_, rfl, hnumbered, hbalanced⟩
  | finish harrivals hprepare hempty =>
    obtain ⟨hnumbered, hbalanced⟩ := hfrontier harrivals hprepare
    exact .inr ⟨_, rfl, hempty, rfl, hnumbered, hbalanced⟩
  | batch harrivals hprepare hiteration =>
    obtain ⟨hnumbered, hbalanced⟩ := hfrontier harrivals hprepare
    obtain ⟨metrics, done, metric, hparts, hiterations, hnumbered', hbalanced'⟩ :=
      run_iteration_balanced hnumbered hbalanced hiteration
    refine .inl ⟨_, rfl, hnumbered', ?_⟩
    dsimp only
    rw [hparts.metrics_eq, hiterations]
    exact hbalanced'

/-- A run of the list loop that returns leaves the books in balance, with nobody active. -/
theorem run_loop_balanced {all : List SimulationRequest}
    (hregistered : engine.loopRegistered instanceUuid fuel state world)
    (hbalanced : state.Balanced all)
    (h : engine.runLoop instanceUuid fuel state world = .ok final world') :
    final.locals.active = [] ∧ final.pending = [] ∧ final.Balanced all := by
  induction fuel generalizing state world with
  | zero => cases h
  | succ fuel ih =>
    obtain ⟨hpass, hnext⟩ := loop_registered_succ.mp hregistered
    unfold Engine.runLoop at h
    split_ifs at h with hdone
    · cases h
      refine ⟨?_, hdone.1, hbalanced⟩
      rw [Locals.active, hdone.2.1, hdone.2.2, List.append_nil]
    obtain ⟨flow, world₁, hbody, h⟩ := bind_ok.mp h
    have hmoved : ∀ pending pendingIndex locals,
        engine.moveArrivals state.nowMs state.pending state.pendingIndex state.locals =
          .ok (pending, pendingIndex, locals) → locals.Numbered pendingIndex ∧
            locals.Balanced state.locals.requestMetrics state.locals.iterationMetrics pending
              all := by
      intro pending pendingIndex locals harrivals
      rcases move_arrivals_balanced hbalanced.numbered hbalanced.balanced harrivals with
        hmoved | ⟨ref, hdisplaced⟩
      · exact hmoved
      · -- somebody is displaced, and the loop would go on for ever
        obtain ⟨next, rfl, hdisplaced'⟩ := (body_runs hbody).displaced hpass
          fun pending' pendingIndex' locals' harrivals' ↦ by
            rw [harrivals] at harrivals'
            cases harrivals'
            exact hdisplaced
        exact absurd h (run_loop_displaced (hnext _ _ hbody) hdisplaced')
    rcases (body_runs hbody).balanced hmoved with ⟨next, rfl, hbalanced'⟩ |
      ⟨last, rfl, hactive, hpending, hbalanced'⟩
    · exact ih (hnext _ _ hbody) hbalanced' h
    · cases h
      exact ⟨hactive, hpending, hbalanced'⟩

/-- Under distinct ids every request is the one registered under its id. -/
theorem loop_registered_of_nodup {all : List SimulationRequest}
    (hd : (all.map SimulationRequest.requestId).Nodup) (hbalanced : state.Balanced all) :
    engine.loopRegistered instanceUuid fuel state world := by
  induction fuel generalizing state world with
  | zero => rfl
  | succ fuel ih =>
    refine loop_registered_succ.mpr ⟨?_, ?_⟩
    · unfold Engine.passRegistered
      cases harrivals : engine.moveArrivals state.nowMs state.pending state.pendingIndex
        state.locals with
      | error _ => rfl
      | ok moved =>
        have hmoved := move_arrivals_distinct hbalanced.numbered hd hbalanced.balanced harrivals
        exact frontier_registered_of_registered hmoved.2.registered.states
    · intro next world' hbody
      rcases (body_runs hbody).balanced fun _ _ _ harrivals ↦
        move_arrivals_distinct hbalanced.numbered hd hbalanced.balanced harrivals with
        ⟨_, hflow, hbalanced'⟩ | ⟨_, hflow, -⟩
      · cases hflow
        exact ih hbalanced'
      · cases hflow

end Runs

end InferTwin
