import InferTwin.Tables.Balance
import InferTwin.Tables.Turns

namespace InferTwin

open Effect

variable {C K : Type} {engine : Engine C K}

/-- An active request under whose id a later arrival is registered. -/
structure Locals.Displaced (locals : Locals) (count ref : ℕ) : Prop where
  numbered : locals.Numbered count
  active : ref ∈ locals.active
  unfinished : (locals.heap ref).status ≠ .finished
  displaced : ¬locals.RegisteredAs ref

theorem Locals.Numbered.of_sublist {locals locals' : Locals} {count : ℕ}
    (h : locals.Numbered count) (hnodup : locals'.active.Nodup)
    (hactive : locals'.active ⊆ locals.active)
    (hstates : locals'.statesById = locals.statesById)
    (htag : ∀ ref, (locals'.heap ref).tag = (locals.heap ref).tag) : locals'.Numbered count where
  nodup := hnodup
  active_lt ref href := h.active_lt ref (hactive href)
  keys id ref hlookup := by
    rw [hstates] at hlookup
    rw [show (locals'.heap ref).requestId = (locals.heap ref).requestId from
      congrArg Tag.requestId (htag ref)]
    exact h.keys id ref hlookup

namespace Locals.Displaced

variable {locals locals' : Locals} {count ref : ℕ}

theorem admits (h : locals.Displaced count ref) {request : SimulationRequest}
    (hadmits : locals.Admits locals' request count) : locals'.Displaced (count + 1) ref := by
  have hlt := h.numbered.active_lt ref h.active
  refine ⟨hadmits.numbered h.numbered, ?_, ?_, ?_⟩
  · rw [hadmits.active_eq]
    exact List.mem_append_left _ h.active
  · rw [hadmits.heap_eq hlt]
    exact h.unfinished
  · have hdisplaced := h.displaced
    unfold Locals.RegisteredAs at hdisplaced ⊢
    rw [hadmits.heap_eq hlt, hadmits.states_eq]
    by_cases hid : (locals.heap ref).requestId = request.requestId
    · rw [hid, Finmap.lookup_insert]
      intro heq
      exact hlt.ne' (Option.some.inj heq)
    · rwa [Finmap.lookup_insert_of_ne _ hid]

/-- It does not leave with the preparation of a batch unless it finishes there. -/
theorem clears (h : locals.Displaced count ref) {done dropped : List ℕ}
    {metrics : List BatchAwareRequestMetrics}
    (hclears : locals.Clears locals' done dropped metrics)
    (hperm : (done ++ dropped ++ locals'.active).Perm locals.active) (hdone : ref ∉ done) :
    locals'.Displaced count ref := by
  have hactive : ref ∈ locals'.active := by
    rcases List.mem_append.mp (hperm.symm.subset h.active) with hleft | hkept
    · rcases List.mem_append.mp hleft with hmem | hmem
      · exact absurd hmem hdone
      · exact absurd (hclears.dropped ref hmem) h.unfinished
    · exact hkept
  refine ⟨h.numbered.of_sublist ?_ ?_ hclears.states_eq hclears.tag_eq, hactive, ?_, ?_⟩
  · exact (hperm.nodup_iff.mpr h.numbered.nodup).of_append_right
  · exact fun _ hmem ↦ hperm.subset (List.mem_append_right _ hmem)
  · rw [ne_eq, hclears.finished_iff]
    exact not_or.mpr ⟨h.unfinished, hdone⟩
  · rw [Locals.registered_as_congr hclears.states_eq (hclears.id_eq ref)]
    exact h.displaced

/-- No slice reaches it, so an iteration leaves it where it is. -/
theorem iterates (h : locals.Displaced count ref) {started served : Locals}
    {scheduled : List ℕ} {shape : BatchShape} {metric : IterationMetrics}
    {totals : IterationTotals}
    (hphases : Iteration locals started served locals' scheduled shape metric totals) :
    locals'.Displaced count ref := by
  have huntouched : served.heap ref = started.heap ref := by
    refine hphases.untouched fun other _ hlookup ↦ h.displaced ?_
    unfold Locals.RegisteredAs
    rwa [(h.numbered.keys _ ref hlookup).2]
  have hsub := hphases.active_sublist
  have hheap := hphases.heap_final
  have hstates := hphases.states_final
  have htag : ∀ other, (locals'.heap other).tag = (locals.heap other).tag := by
    intro other
    rw [hheap, hphases.applies.tag_eq]
    exact (hphases.slices.continues other).tag_eq
  have hunfinished : (served.heap ref).status ≠ .finished := by
    rw [huntouched, ne_eq, hphases.finished_iff]
    exact h.unfinished
  refine ⟨h.numbered.of_sublist (h.numbered.nodup.sublist hsub) hsub.subset hstates htag,
    hphases.stays h.active hunfinished, ?_, ?_⟩
  · rw [hheap]
    exact hunfinished
  · rw [Locals.registered_as_congr hstates (congrArg Tag.requestId (htag ref))]
    exact h.displaced

end Locals.Displaced

/-- What a pass of the list loop does, phase by phase. -/
inductive BodyRuns (engine : Engine C K) (instanceUuid : String) (state : LoopState)
    (world : World C K) : Flow LoopState → World C K → Prop
  | jump {pending pendingIndex locals startTimeMs}
      (harrivals : engine.moveArrivals state.nowMs state.pending state.pendingIndex state.locals =
        .ok (pending, pendingIndex, locals))
      (hempty : locals.active = []) :
      BodyRuns engine instanceUuid state world
        (.proceed { state with pending, pendingIndex, locals, nowMs := startTimeMs }) world
  | skip {pending pendingIndex locals nowMs plan locals' world' world''}
      (harrivals : engine.moveArrivals state.nowMs state.pending state.pendingIndex state.locals =
        .ok (pending, pendingIndex, locals))
      (hfrontier : engine.prepareSchedulerFrontier state.nowMs locals world =
        .ok (plan, locals') world') :
      BodyRuns engine instanceUuid state world
        (.proceed { state with pending, pendingIndex, locals := locals', nowMs }) world''
  | finish {pendingIndex locals plan locals' world' world''}
      (harrivals : engine.moveArrivals state.nowMs state.pending state.pendingIndex state.locals =
        .ok ([], pendingIndex, locals))
      (hfrontier : engine.prepareSchedulerFrontier state.nowMs locals world =
        .ok (plan, locals') world')
      (hempty : locals'.active = []) :
      BodyRuns engine instanceUuid state world
        (.stop { state with pending := [], pendingIndex, locals := locals' }) world''
  | batch {pending pendingIndex locals nowMs plan locals' world₁ world₂ locals'' world'}
      (harrivals : engine.moveArrivals state.nowMs state.pending state.pendingIndex state.locals =
        .ok (pending, pendingIndex, locals))
      (hfrontier : engine.prepareSchedulerFrontier state.nowMs locals world =
        .ok (plan, locals') world₁)
      (hiteration : engine.runIteration instanceUuid state.nowMs state.iterationId locals' world₂ =
        .ok (nowMs, locals'') world') :
      BodyRuns engine instanceUuid state world
        (.proceed {
          pending, pendingIndex, locals := locals'', nowMs
          iterationId := state.iterationId + 1 }) world'

theorem body_runs {instanceUuid : String} {state : LoopState} {flow : Flow LoopState}
    {world world' : World C K}
    (h : engine.loopBody instanceUuid state world = .ok flow world') :
    BodyRuns engine instanceUuid state world flow world' := by
  unfold Engine.loopBody at h
  simp only [bind_ok, check_ok] at h
  obtain ⟨⟨pending, pendingIndex, locals⟩, _, ⟨harrivals, rfl⟩, h⟩ := h
  dsimp only at h
  split_ifs at h with hidle
  · cases hp : pending with
    | nil =>
      simp only [hp] at h
      cases h
    | cons request rest =>
      simp only [hp] at h
      cases h
      refine .jump (hp ▸ harrivals) ?_
      rw [Locals.active, hidle.1, hidle.2, List.append_nil]
  · simp only [bind_ok] at h
    obtain ⟨⟨plan, locals'⟩, world₁, hfrontier, _, world₂, -, h⟩ := h
    dsimp only at h
    split_ifs at h with hempty
    · cases hp : pending with
      | nil =>
        simp only [hp] at h
        cases h
        refine .finish (hp ▸ harrivals) hfrontier ?_
        rw [Locals.active, hempty.1, hempty.2, List.append_nil]
      | cons request rest =>
        simp only [hp] at h
        cases h
        exact .skip (hp ▸ harrivals) hfrontier
    · simp only [bind_ok] at h
      obtain ⟨⟨finishMs, locals''⟩, world₃, hiteration, h⟩ := h
      cases h
      exact .batch harrivals hfrontier hiteration

end InferTwin
