import InferTwin.Server.Slice

namespace InferTwin

open Effect

variable {C K : Type}

/-- The job once its pending KV load has been handed to a slice. -/
def Job.handOver (job : Job) : Job := { job with state := job.state.consumed }

/-- A request and its tokens, against the request and the slice a batch is built from. -/
structure Sliced (planned : Job × ℕ) (built : Job × ScheduledSlice) : Prop where
  job_eq : built.1 = planned.1.handOver
  describes : built.2.Describes planned.1.state planned.2

theorem slice_all_ok {jobs : List (Job × ℕ)} {built : List (Job × ScheduledSlice)}
    (hl : ∀ planned ∈ jobs, planned.1.state.LookedUp) (h : sliceAll jobs = .ok built) :
    List.Forall₂ Sliced jobs built := by
  induction jobs generalizing built with
  | nil =>
    cases h
    exact .nil
  | cons planned jobs ih =>
    simp only [sliceAll, except_bind_ok] at h
    obtain ⟨⟨slice, state⟩, hs, rest, hrest, h⟩ := h
    cases h
    obtain ⟨hd, rfl⟩ := slice_for_ok (hl _ (List.mem_cons_self ..)) hs
    exact .cons ⟨rfl, hd⟩ (ih (fun p hp ↦ hl p (List.mem_cons_of_mem _ hp)) hrest)

/-- What makes the scheduler able to build the slice of a request. -/
structure Job.Sliceable (job : Job) (tokens : ℕ) : Prop where
  looked_up : job.state.LookedUp
  cached_le : job.state.cachedTokens ≤ job.state.numComputedTokens
  computed_le : job.state.numComputedTokens ≤ job.state.promptTokens
  tokens_le : tokens ≤ job.state.remaining
  has_work : tokens ≠ 0 ∨ job.state.pendingLoad ≠ (0, 0)

theorem slice_all_exists {jobs : List (Job × ℕ)}
    (h : ∀ planned ∈ jobs, planned.1.Sliceable planned.2) :
    ∃ built, sliceAll jobs = .ok built := by
  induction jobs with
  | nil => exact ⟨[], rfl⟩
  | cons planned jobs ih =>
    have hp := h _ (List.mem_cons_self ..)
    obtain ⟨slice, hs⟩ := slice_for_exists hp.looked_up hp.cached_le hp.computed_le hp.tokens_le
      hp.has_work
    obtain ⟨rest, hrest⟩ := ih fun p hp ↦ h p (List.mem_cons_of_mem _ hp)
    simp only [sliceAll, hs, hrest]
    exact ⟨_, rfl⟩

/-- The slices of a batch, in its order. -/
theorem batch_slices (granted admitted : List (Job × ScheduledSlice)) (idle : List Job) :
    (batchOf granted idle admitted).filterMap Prod.snd = (granted ++ admitted).map Prod.snd := by
  simp [batchOf, List.filterMap_append, List.filterMap_map]

/-- A job after it was served a slice. -/
def Job.served (job : Job) (slice : ScheduledSlice) (durationMs : ℚ) (progress : SliceProgress) :
    Job :=
  { job with
    state := progress.state
    services := job.services ++ [{ slice, durationMs, record := progress.record }] }

/-- What applying a batch can do, one request after the other. -/
inductive Applies (engine : Engine C K) (facts : IterationFacts) :
    List (Job × Option ScheduledSlice) → SharedLinkFIFOTransferQueue → IterationTotals →
      World C K → Applied → World C K → Prop
  | nil {queue totals world} :
      Applies engine facts [] queue totals world { transferQueue := queue, totals } world
  | idle {job batch queue totals world applied world'}
      (hrest : Applies engine facts batch queue totals world applied world') :
      Applies engine facts ((job, none) :: batch) queue totals world
        { applied with
          running := job.sitOut engine.timelineMode facts.durationMs :: applied.running } world'
  | advance {job slice batch queue totals world progress world' applied world''}
      (hslice : engine.applySlice facts.shape.startTimeMs facts.finishMs slice
        (sliceContribution facts.breakdown facts.shape slice) job.state job.lookup
        (.ok job.request) queue totals world = .ok (progress, none) world')
      (hrest : Applies engine facts batch progress.queue progress.totals world' applied world'') :
      Applies engine facts ((job, some slice) :: batch) queue totals world
        { applied with
          running := job.served slice facts.durationMs progress :: applied.running
          records := progress.record :: applied.records } world''
  | complete {job slice batch queue totals world progress metric world' applied world''}
      (hslice : engine.applySlice facts.shape.startTimeMs facts.finishMs slice
        (sliceContribution facts.breakdown facts.shape slice) job.state job.lookup
        (.ok job.request) queue totals world = .ok (progress, some metric) world')
      (hrest : Applies engine facts batch progress.queue progress.totals world' applied world'') :
      Applies engine facts ((job, some slice) :: batch) queue totals world
        { applied with
          completed := (job.served slice facts.durationMs progress, metric) :: applied.completed
          records := progress.record :: applied.records } world''

theorem applies_of_apply_batch {engine : Engine C K} {facts : IterationFacts}
    {batch : List (Job × Option ScheduledSlice)} {queue : SharedLinkFIFOTransferQueue}
    {totals : IterationTotals} {world world' : World C K} {applied : Applied}
    (h : engine.applyBatch facts batch queue totals world = .ok applied world') :
    Applies engine facts batch queue totals world applied world' := by
  induction batch generalizing queue totals world applied with
  | nil =>
    cases h
    exact .nil
  | cons item batch ih =>
    obtain ⟨job, slice⟩ := item
    cases slice with
    | none =>
      simp only [Engine.applyBatch, bind_ok] at h
      obtain ⟨rest, _, hrest, h⟩ := h
      cases h
      exact .idle (ih hrest)
    | some slice =>
      simp only [Engine.applyBatch, bind_ok] at h
      obtain ⟨⟨progress, metric⟩, _, hslice, rest, _, hrest, h⟩ := h
      cases metric with
      | none =>
        cases h
        exact .advance hslice (ih hrest)
      | some metric =>
        cases h
        exact .complete hslice (ih hrest)

end InferTwin
