import InferTwin.Latency.Transparency
import InferTwin.Replay.Unmemoized
import InferTwin.Sample

namespace InferTwin

open Effect

variable {C K : Type}

/-- Worlds that differ at most in what their memos remember of the backend, and in their event
sinks if nobody watches these. -/
structure SameButMemo (watched : Prop) (backend : BatchLatencyBackend) (world world' : World C K) :
    Prop where
  cache_eq : world.cache = world'.cache
  sink_eq : watched → world.sink = world'.sink
  trace_eq : world.trace = world'.trace
  filled : world.memo.FilledBy backend
  filled' : world'.memo.FilledBy backend

/-- The flag aside. -/
def IterationMetrics.forgetMemo (metric : IterationMetrics) : IterationMetrics :=
  { metric with memoized := false }

abbrev Locals.withIterations (locals : Locals) (iterationMetrics : List IterationMetrics) : Locals :=
  { locals with iterationMetrics }

/-- Local variables that differ at most in the flags of their iteration metrics. -/
def Locals.Same (locals locals' : Locals) : Prop :=
  ∃ metrics, locals' = locals.withIterations metrics ∧
    locals.iterationMetrics.map IterationMetrics.forgetMemo =
      metrics.map IterationMetrics.forgetMemo

/-- The same value beside local variables that differ at most in flags. -/
def SameLocals {α : Type} (a b : α × Locals) : Prop := a.1 = b.1 ∧ a.2.Same b.2

section Arrivals

variable (engine : Engine C K) (metrics : List IterationMetrics)

theorem admit_arrival_frame (nowMs : ℚ) (request : SimulationRequest) (seq : ℕ) (locals : Locals) :
    engine.admitArrival nowMs request seq (locals.withIterations metrics) =
      (engine.admitArrival nowMs request seq locals).map (Locals.withIterations · metrics) := by
  unfold Engine.admitArrival
  cases stateFromRequest request seq engine.timelineMode with
  | error e => rfl
  | ok state =>
    simp only [except_ok_bind]
    cases recordInitialComputeWait state nowMs <;> rfl

theorem move_arrivals_frame (nowMs : ℚ) (pending : List SimulationRequest) (seq : ℕ)
    (locals : Locals) :
    engine.moveArrivals nowMs pending seq (locals.withIterations metrics) =
      (engine.moveArrivals nowMs pending seq locals).map fun moved ↦
        (moved.1, moved.2.1, moved.2.2.withIterations metrics) := by
  induction pending generalizing seq locals with
  | nil => rfl
  | cons request pending ih =>
    unfold Engine.moveArrivals
    split_ifs
    · rw [admit_arrival_frame]
      cases engine.admitArrival nowMs request seq locals with
      | error e => rfl
      | ok admitted => exact ih (seq + 1) admitted
    · rfl

theorem finish_zero_miss_request_frame (nowMs : ℚ) (ref : ℕ) (request : SimulationRequest)
    (lookup : LookupMetrics) (locals : Locals) :
    Engine.finishZeroMissRequest nowMs ref request lookup (locals.withIterations metrics) =
      (Engine.finishZeroMissRequest nowMs ref request lookup locals).map
        (Locals.withIterations · metrics) := by
  unfold Engine.finishZeroMissRequest
  dsimp only [Locals.withIterations]
  split_ifs
  · rfl
  · cases buildRequestMetrics request (finishZeroMiss nowMs (locals.heap ref)) lookup <;> rfl

theorem finish_zero_miss_requests_frame (nowMs : ℚ) (refs : List ℕ) (locals : Locals) :
    Engine.finishZeroMissRequests nowMs refs (locals.withIterations metrics) =
      (Engine.finishZeroMissRequests nowMs refs locals).map (Locals.withIterations · metrics) := by
  induction refs generalizing locals with
  | nil => rfl
  | cons ref refs ih =>
    unfold Engine.finishZeroMissRequests
    simp only [Locals.withIterations] at ih ⊢
    cases (locals.heap ref).remainingPrefillTokens with
    | error e => rfl
    | ok remaining =>
      simp only [except_ok_bind]
      split_ifs
      · exact ih locals
      cases (locals.heap ref).hasPendingKvLoad with
      | error e => rfl
      | ok pending =>
        simp only [except_ok_bind]
        split_ifs
        · exact ih locals
        cases locals.requestsById.getItem (locals.heap ref).requestId with
        | error e => rfl
        | ok request =>
          cases locals.lookupById.getItem (locals.heap ref).requestId with
          | error e => rfl
          | ok lookup =>
            simp only [except_ok_bind]
            rw [finish_zero_miss_request_frame]
            cases Engine.finishZeroMissRequest nowMs ref request lookup locals with
            | error e => rfl
            | ok finished => exact ih finished

variable {engine metrics}

theorem move_arrivals_iterations {nowMs : ℚ} {pending : List SimulationRequest} {seq : ℕ}
    {locals : Locals} {moved : List SimulationRequest × ℕ × Locals}
    (h : engine.moveArrivals nowMs pending seq locals = .ok moved) :
    moved.2.2.iterationMetrics = locals.iterationMetrics := by
  have hframe := move_arrivals_frame engine locals.iterationMetrics nowMs pending seq locals
  rw [show locals.withIterations locals.iterationMetrics = locals from rfl, h] at hframe
  have hmoved : moved = (moved.1, moved.2.1, moved.2.2.withIterations locals.iterationMetrics) :=
    Except.ok.inj hframe
  have hmetrics := congrArg (fun moved ↦ moved.2.2.iterationMetrics) hmoved
  exact hmetrics

theorem finish_zero_miss_iterations {nowMs : ℚ} {ref : ℕ} {request : SimulationRequest}
    {lookup : LookupMetrics} {locals finished : Locals}
    (h : Engine.finishZeroMissRequest nowMs ref request lookup locals = .ok finished) :
    finished.iterationMetrics = locals.iterationMetrics := by
  -- a frame around the metrics that are there anyway
  have hframe := finish_zero_miss_request_frame locals.iterationMetrics nowMs ref request lookup
    locals
  rw [show locals.withIterations locals.iterationMetrics = locals from rfl, h] at hframe
  have hfinished : finished = finished.withIterations locals.iterationMetrics :=
    Except.ok.inj hframe
  have hmetrics := congrArg Locals.iterationMetrics hfinished
  exact hmetrics

theorem finish_zero_miss_requests_iterations {nowMs : ℚ} {refs : List ℕ}
    {locals finished : Locals}
    (h : Engine.finishZeroMissRequests nowMs refs locals = .ok finished) :
    finished.iterationMetrics = locals.iterationMetrics := by
  have hframe := finish_zero_miss_requests_frame locals.iterationMetrics nowMs refs locals
  rw [show locals.withIterations locals.iterationMetrics = locals from rfl, h] at hframe
  have hfinished : finished = finished.withIterations locals.iterationMetrics :=
    Except.ok.inj hframe
  have hmetrics := congrArg Locals.iterationMetrics hfinished
  exact hmetrics

end Arrivals

section Passes

variable {watched : Prop} {engine : Engine C K}

theorem same_on_cache {α : Type} (x : EStateM CacheError C α) :
    Simulates (SameButMemo watched engine.latencyBackend) Eq (onCache x : Replay C K α) (onCache x) :=
  .zoom_same (fun _ _ hw ↦ hw.cache_eq) (fun _ _ _ hw ↦ { hw with cache_eq := rfl }) x

theorem same_on_materialization {α : Type} (x : EStateM MaterializationError C α) :
    Simulates (SameButMemo watched engine.latencyBackend) Eq (onMaterialization x : Replay C K α)
      (onMaterialization x) :=
  .zoom_same (fun _ _ hw ↦ hw.cache_eq) (fun _ _ _ hw ↦ { hw with cache_eq := rfl }) x

theorem same_record (event : TraceEvent) :
    Simulates (SameButMemo watched engine.latencyBackend) Eq (record event : Replay C K Unit)
      (record event) :=
  .modify_both fun _ _ hw ↦ { hw with trace_eq := congrArg (· ++ [event]) hw.trace_eq }

theorem same_drain :
    Simulates (SameButMemo watched engine.latencyBackend) Eq engine.drainCacheEvents
      engine.drainCacheEvents := by
  refine .modify_both fun world world' hw ↦ ?_
  refine { hw with cache_eq := ?_, sink_eq := ?_ }
  · rw [hw.cache_eq]
  · intro h
    rw [hw.cache_eq, hw.sink_eq h]

theorem same_lookup_request (nowMs : ℚ) (state : RequestState) (request : SimulationRequest) :
    Simulates (SameButMemo watched engine.latencyBackend) Eq (engine.lookupRequest nowMs state request)
      (engine.lookupRequest nowMs state request) := by
  unfold Engine.lookupRequest
  refine .bind_same (same_on_cache _) fun raw ↦ .bind_same (same_record _) fun _ ↦ ?_
  exact .bind_same (.check_same _) fun metrics ↦ .bind_same (same_record _) fun _ ↦
    .bind_same (.check_same _) fun _ ↦ .pure rfl

theorem same_ensure_lookup (nowMs : ℚ) (ref : ℕ) (request : SimulationRequest)
    {locals locals' : Locals} (h : locals.Same locals') :
    Simulates (SameButMemo watched engine.latencyBackend) Locals.Same
      (engine.ensureLookup nowMs ref request locals)
      (engine.ensureLookup nowMs ref request locals') := by
  obtain ⟨metrics, rfl, hmetrics⟩ := h
  unfold Engine.ensureLookup
  dsimp only [Locals.withIterations]
  split_ifs
  · exact .pure ⟨metrics, rfl, hmetrics⟩
  · exact .bind_same (same_lookup_request _ _ _) fun _ ↦ .pure ⟨metrics, rfl, hmetrics⟩

theorem same_prepare_running (nowMs : ℚ) (refs : List ℕ) {locals locals' : Locals}
    (h : locals.Same locals') :
    Simulates (SameButMemo watched engine.latencyBackend) Locals.Same
      (engine.prepareRunning nowMs refs locals) (engine.prepareRunning nowMs refs locals') := by
  induction refs generalizing locals locals' with
  | nil => exact .pure h
  | cons ref refs ih =>
    unfold Engine.prepareRunning
    obtain ⟨metrics, rfl, hmetrics⟩ := h
    refine .bind_same (.check_same _) fun request ↦ ?_
    exact .bind (same_ensure_lookup _ _ _ ⟨metrics, rfl, hmetrics⟩) fun _ _ h ↦ ih h

theorem same_finish_zero_miss_request (nowMs : ℚ) (ref : ℕ) (request : SimulationRequest)
    (lookup : LookupMetrics) {locals locals' : Locals} (h : locals.Same locals') :
    Simulates (SameButMemo (K := K) (C := C) watched engine.latencyBackend) Locals.Same
      (check (Engine.finishZeroMissRequest nowMs ref request lookup locals))
      (check (Engine.finishZeroMissRequest nowMs ref request lookup locals')) := by
  obtain ⟨metrics, rfl, hmetrics⟩ := h
  rw [finish_zero_miss_request_frame metrics]
  refine .check_map fun finished hfinished ↦ ⟨metrics, rfl, ?_⟩
  rw [finish_zero_miss_iterations hfinished]
  exact hmetrics

theorem same_scan_waiting (nowMs : ℚ) (index : ℕ) (refs : List ℕ) (frontier : FrontierPlan)
    {locals locals' : Locals} (h : locals.Same locals') :
    Simulates (SameButMemo watched engine.latencyBackend) SameLocals
      (engine.scanWaiting nowMs index refs frontier locals)
      (engine.scanWaiting nowMs index refs frontier locals') := by
  induction refs generalizing index frontier locals locals' with
  | nil => exact .pure ⟨rfl, h⟩
  | cons ref refs ih =>
    obtain ⟨metrics, rfl, hmetrics⟩ := h
    unfold Engine.scanWaiting
    by_cases hseats : frontier.plannedSlices ≥ engine.config.maxNumSeqs
    · rw [if_pos hseats, if_pos hseats]
      exact .pure ⟨rfl, metrics, rfl, hmetrics⟩
    rw [if_neg hseats, if_neg hseats]
    refine .bind_same (.check_same _) fun request ↦ ?_
    refine .bind (same_ensure_lookup _ _ _ ⟨metrics, rfl, hmetrics⟩) fun looked _ h ↦ ?_
    obtain ⟨metrics, rfl, hmetrics⟩ := h
    refine .bind_same (.check_same _) fun remaining ↦ ?_
    split_ifs
    · refine .bind_same (.check_same _) fun pending ↦ ?_
      split_ifs
      · exact ih _ _ ⟨metrics, rfl, hmetrics⟩
      · refine .bind_same (.check_same _) fun request ↦ .bind_same (.check_same _) fun lookup ↦ ?_
        exact .bind (same_finish_zero_miss_request _ _ _ _ ⟨metrics, rfl, hmetrics⟩)
          fun _ _ h ↦ ih _ _ h
    · exact .pure ⟨rfl, metrics, rfl, hmetrics⟩
    · refine .bind_same (.check_same _) fun tokens ↦ ?_
      split_ifs
      · exact .pure ⟨rfl, metrics, rfl, hmetrics⟩
      · exact ih _ _ ⟨metrics, rfl, hmetrics⟩

theorem same_finish_zero_miss_requests (nowMs : ℚ) (refs : List ℕ) {locals locals' : Locals}
    (h : locals.Same locals') :
    Simulates (SameButMemo (K := K) (C := C) watched engine.latencyBackend) Locals.Same
      (check (Engine.finishZeroMissRequests nowMs refs locals))
      (check (Engine.finishZeroMissRequests nowMs refs locals')) := by
  obtain ⟨metrics, rfl, hmetrics⟩ := h
  rw [finish_zero_miss_requests_frame metrics]
  refine .check_map fun finished hfinished ↦ ⟨metrics, rfl, ?_⟩
  rw [finish_zero_miss_requests_iterations hfinished]
  exact hmetrics

theorem same_prepare_frontier (nowMs : ℚ) {locals locals' : Locals} (h : locals.Same locals') :
    Simulates (SameButMemo watched engine.latencyBackend) SameLocals
      (engine.prepareSchedulerFrontier nowMs locals)
      (engine.prepareSchedulerFrontier nowMs locals') := by
  obtain ⟨metrics, rfl, hmetrics⟩ := h
  unfold Engine.prepareSchedulerFrontier
  refine .bind (same_prepare_running _ _ ⟨metrics, rfl, hmetrics⟩) fun looked _ h ↦ ?_
  obtain ⟨metrics, rfl, hmetrics⟩ := h
  refine .bind (same_finish_zero_miss_requests _ _ ⟨metrics, rfl, hmetrics⟩) fun finished _ h ↦ ?_
  obtain ⟨metrics, rfl, hmetrics⟩ := h
  dsimp only
  refine .bind (Q := SameLocals) ?_ fun a b h ↦ ?_
  · unfold Engine.prepareWaitingFrontier
    refine .bind_same (.check_same _) fun planned ↦ ?_
    obtain ⟨done, frontier⟩ := planned
    dsimp only
    split_ifs
    · exact .pure ⟨rfl, metrics, rfl, hmetrics⟩
    · exact same_scan_waiting _ _ _ _ ⟨metrics, rfl, hmetrics⟩
  · obtain ⟨hfrontier, metrics, hlocals, hmetrics⟩ := h
    rw [hlocals]
    exact .pure ⟨hfrontier, metrics, rfl, hmetrics⟩

theorem same_apply_slice (startTimeMs finishMs : ℚ) (slice : ScheduledSlice)
    (contribution : IterationLatencyBreakdown) (state : RequestState) (lookup : LookupMetrics)
    (request : Except ReplayError SimulationRequest) (queue : SharedLinkFIFOTransferQueue)
    (totals : IterationTotals) :
    Simulates (SameButMemo watched engine.latencyBackend) Eq
      (engine.applySlice startTimeMs finishMs slice contribution state lookup request queue totals)
      (engine.applySlice startTimeMs finishMs slice contribution state lookup request queue
        totals) := by
  unfold Engine.applySlice
  refine .bind_same (.check_same _) fun charged ↦ .bind_same ?_ fun advanced ↦ ?_
  · unfold Engine.advanceSlice
    split_ifs
    · exact .bind_same (.check_same _) fun _ ↦ .pure rfl
    · refine .bind_same (.check_same _) fun _ ↦ ?_
      cases hmode : engine.timelineMode
      · simp only [Engine.materializeScheduledChunk, hmode]
        exact .pure rfl
      · simp only [Engine.materializeScheduledChunk, hmode]
        exact .bind_same (same_on_materialization _) fun _ ↦ .pure rfl
  · unfold Engine.completeSlice
    split_ifs
    · exact .bind_same (.pure rfl) fun _ ↦ .bind_same (.check_same _) fun _ ↦
        .bind_same (.check_same _) fun _ ↦ .pure rfl
    · refine .bind_same ?_ fun _ ↦ .bind_same (.check_same _) fun _ ↦
        .bind_same (.check_same _) fun _ ↦ .pure rfl
      cases hmode : engine.timelineMode
      all_goals
        simp only [Engine.materializeFinishedRequest, hmode]
        exact .bind_same (same_on_materialization _) fun _ ↦ .pure rfl
    · cases hmode : engine.timelineMode <;> exact .pure rfl

theorem same_apply_slices (startTimeMs finishMs : ℚ)
    (contributions : Dict String IterationLatencyBreakdown) (slices : List ScheduledSlice)
    (totals : IterationTotals) (records : List SliceRecord) {locals locals' : Locals}
    (h : locals.Same locals') :
    Simulates (SameButMemo watched engine.latencyBackend)
      (fun a b ↦ a.1 = b.1 ∧ SameLocals a.2 b.2)
      (engine.applySlices startTimeMs finishMs contributions slices totals records locals)
      (engine.applySlices startTimeMs finishMs contributions slices totals records locals') := by
  induction slices generalizing totals records locals locals' with
  | nil => exact .pure ⟨rfl, rfl, h⟩
  | cons slice slices ih =>
    obtain ⟨metrics, rfl, hmetrics⟩ := h
    unfold Engine.applySlices
    refine .bind_same (.check_same _) fun ref ↦ .bind_same (.check_same _) fun lookup ↦ ?_
    refine .bind_same (.check_same _) fun contribution ↦ ?_
    refine .bind_same (same_apply_slice _ _ _ _ _ _ _ _ _) fun applied ↦ ?_
    exact ih _ _ ⟨metrics, rfl, hmetrics⟩

/-- Latencies that differ at most in their flags. -/
def LatencyResult.Same (latency latency' : LatencyResult) : Prop :=
  ∃ memoized, latency' = { latency with memoized }

theorem LatencyResult.same_of_forget {latency latency' : LatencyResult}
    (h : latency.forgetMemo = latency'.forgetMemo) : latency.Same latency' := by
  refine ⟨latency'.memoized, ?_⟩
  have hflag := congrArg (fun result : LatencyResult ↦
    { result with memoized := latency'.memoized }) h
  exact hflag.symm

theorem same_estimate_latency (hbackend : engine.latencyBackend.Memoizable) (shape : BatchShape) :
    Simulates (SameButMemo watched engine.latencyBackend) LatencyResult.Same
      (engine.estimateLatency shape) (engine.estimateLatency shape) := by
  intro world world' hw
  have hleft := hw.filled.getOrCompute hbackend shape
  have hright := hw.filled'.getOrCompute hbackend shape
  unfold Engine.estimateLatency onMemo zoom
  cases hresult : engine.latencyBackend.estimateIteration shape with
  | ok result =>
    rw [hresult] at hleft hright
    obtain ⟨latency, memo, hget, hlatency, hfilled⟩ := hleft
    obtain ⟨latency', memo', hget', hlatency', hfilled'⟩ := hright
    simp only [hget, hget']
    exact .ok { hw with filled := hfilled, filled' := hfilled' }
      (LatencyResult.same_of_forget (hlatency.trans hlatency'.symm))
  | error e =>
    rw [hresult] at hleft hright
    simp only at hleft hright
    simp only [hleft, hright]
    exact .error hw

theorem build_iteration_metrics_frame (shape : BatchShape) (latency : LatencyResult)
    (memoized : Bool) (finishMs : ℚ) (timelineMode : TimelineMode)
    (computeWait : ComputeWaitAccounting) (totals : IterationTotals) :
    buildIterationMetrics shape { latency with memoized } finishMs timelineMode computeWait totals =
      (buildIterationMetrics shape latency finishMs timelineMode computeWait totals).map
        fun metric ↦ { metric with memoized } := by
  unfold buildIterationMetrics
  show (latencyBreakdownFromResult latency >>= _) = _
  cases latencyBreakdownFromResult latency <;> rfl

theorem same_apply_schedule_result (shape : BatchShape) {latency latency' : LatencyResult}
    (hlatency : latency.Same latency') (finishMs : ℚ) (computeWait : ComputeWaitAccounting)
    {locals locals' : Locals} (h : locals.Same locals') :
    Simulates (SameButMemo watched engine.latencyBackend) Locals.Same
      (engine.applyScheduleResult shape latency finishMs computeWait locals)
      (engine.applyScheduleResult shape latency' finishMs computeWait locals') := by
  obtain ⟨memoized, rfl⟩ := hlatency
  unfold Engine.applyScheduleResult
  refine .bind_same (.check_same (splitIterationLatencyContributions shape latency))
    fun contributions ↦ ?_
  refine .bind (same_apply_slices _ _ _ _ _ _ h) fun a b hab ↦ ?_
  obtain ⟨totals, records, applied⟩ := a
  obtain ⟨_, _, _⟩ := b
  obtain ⟨rfl, rfl, metrics, rfl, hmetrics⟩ := hab
  dsimp only
  rw [build_iteration_metrics_frame shape latency memoized]
  refine .bind (Q := fun metric metric' ↦ metric' = { metric with memoized })
    (.check_map fun _ _ ↦ rfl) fun metric metric' hmetric ↦ ?_
  subst hmetric
  refine .bind_same (same_record _) fun _ ↦ .pure ⟨metrics ++ [{ metric with memoized }], rfl, ?_⟩
  rw [List.map_append, List.map_append, hmetrics]
  rfl

theorem same_run_iteration (hbackend : engine.latencyBackend.Memoizable) (instanceUuid : String)
    (nowMs : ℚ) (iterationId : ℕ) {locals locals' : Locals} (h : locals.Same locals') :
    Simulates (SameButMemo watched engine.latencyBackend) SameLocals
      (engine.runIteration instanceUuid nowMs iterationId locals)
      (engine.runIteration instanceUuid nowMs iterationId locals') := by
  obtain ⟨metrics, rfl, hmetrics⟩ := h
  unfold Engine.runIteration
  refine .bind_same (.check_same _) fun scheduled ↦ ?_
  obtain ⟨shape, admission⟩ := scheduled
  dsimp only
  split_ifs
  · exact .bind (Q := fun _ _ ↦ False) (.throw _) fun _ _ h ↦ h.elim
  refine .bind (same_estimate_latency hbackend shape) fun latency latency' hlatency ↦ ?_
  obtain ⟨memoized, rfl⟩ := hlatency
  refine .bind_same (.check_same _) fun waited ↦ ?_
  obtain ⟨computeWait, heap⟩ := waited
  refine .bind (same_apply_schedule_result shape ⟨memoized, rfl⟩ _ _ ⟨metrics, rfl, hmetrics⟩)
    fun applied _ h ↦ ?_
  obtain ⟨metrics, rfl, hmetrics⟩ := h
  exact .bind_same same_drain fun _ ↦ .pure ⟨rfl, metrics, rfl, hmetrics⟩

/-- Loop states that differ at most in the flags of their iteration metrics. -/
def LoopState.Same (state state' : LoopState) : Prop :=
  ∃ locals, state' = { state with locals } ∧ state.locals.Same locals

theorem same_loop_body (hbackend : engine.latencyBackend.Memoizable) (instanceUuid : String)
    {state state' : LoopState} (h : state.Same state') :
    Simulates (SameButMemo watched engine.latencyBackend) (FlowAgrees LoopState.Same)
      (engine.loopBody instanceUuid state) (engine.loopBody instanceUuid state') := by
  obtain ⟨_, rfl, metrics, rfl, hmetrics⟩ := h
  unfold Engine.loopBody
  dsimp only
  rw [move_arrivals_frame engine metrics]
  refine .bind (Q := fun a b ↦ a.1 = b.1 ∧ SameLocals a.2 b.2) (.check_map fun moved hmoved ↦
    ⟨rfl, rfl, metrics, rfl, (move_arrivals_iterations hmoved).symm ▸ hmetrics⟩) fun a b hab ↦ ?_
  obtain ⟨pending, index, locals⟩ := a
  obtain ⟨_, _, _⟩ := b
  obtain ⟨rfl, rfl, metrics, rfl, hmetrics⟩ := hab
  dsimp only
  split_ifs
  · cases pending with
    | nil => exact .throw _
    | cons request pending => exact .pure (.proceed ⟨_, rfl, metrics, rfl, hmetrics⟩)
  refine .bind (same_prepare_frontier _ ⟨metrics, rfl, hmetrics⟩) fun a b hab ↦ ?_
  obtain ⟨frontier, prepared⟩ := a
  obtain ⟨_, _⟩ := b
  obtain ⟨rfl, kept, rfl, hkept⟩ := hab
  refine .bind_same same_drain fun _ ↦ ?_
  dsimp only
  split_ifs
  · cases pending with
    | nil => exact .pure (.stop ⟨_, rfl, kept, rfl, hkept⟩)
    | cons request pending => exact .pure (.proceed ⟨_, rfl, kept, rfl, hkept⟩)
  refine .bind (same_run_iteration hbackend _ _ _ ⟨kept, rfl, hkept⟩) fun a b hab ↦ ?_
  obtain ⟨finishMs, done⟩ := a
  obtain ⟨_, _⟩ := b
  obtain ⟨rfl, hlocals⟩ := hab
  exact .pure (.proceed ⟨_, rfl, hlocals⟩)

end Passes

section Runs

variable {watched : Prop} {engine : Engine C K}

theorem same_run_loop (hbackend : engine.latencyBackend.Memoizable) (instanceUuid : String)
    (fuel : ℕ) {state state' : LoopState} (h : state.Same state') :
    Simulates (SameButMemo watched engine.latencyBackend) LoopState.Same
      (engine.runLoop instanceUuid fuel state)
      (engine.runLoopUnmemoized instanceUuid fuel state') := by
  induction fuel generalizing state state' with
  | zero => exact .throw _
  | succ fuel ih =>
    have hsame := h
    obtain ⟨_, rfl, metrics, rfl, hmetrics⟩ := h
    unfold Engine.runLoop Engine.runLoopUnmemoized
    dsimp only
    split_ifs
    · exact .pure hsame
    intro world world' hw
    have hbody := same_loop_body hbackend instanceUuid hsame world { world' with memo := ∅ }
      { hw with filled' := ShapeMemo.filled_by_empty _ }
    show Agree _ _ _ ((engine.loopBody instanceUuid
      { state with locals := state.locals.withIterations metrics } >>= _) { world' with memo := ∅ })
    refine Agree.bind hbody ?_
    rintro _ _ s t - - hw' (⟨h'⟩ | ⟨h'⟩)
    · exact ih h' s t hw'
    · exact .ok hw' h'

/-- Results of an instance that differ at most in the flags of their iteration metrics. -/
def InstanceResult.Same (result result' : InstanceResult) : Prop :=
  result.requestMetrics = result'.requestMetrics ∧
    result.iterationMetrics.map IterationMetrics.forgetMemo =
      result'.iterationMetrics.map IterationMetrics.forgetMemo

theorem same_run_instance (hbackend : engine.latencyBackend.Memoizable) (instanceUuid : String)
    (fuel : ℕ) (requests : List SimulationRequest) :
    Simulates (SameButMemo watched engine.latencyBackend) InstanceResult.Same
      (engine.runInstance instanceUuid fuel requests)
      (engine.runInstanceUnmemoized instanceUuid fuel requests) := by
  unfold Engine.runInstance Engine.runInstanceUnmemoized
  cases SimulationRequest.sorted requests with
  | nil => exact .pure ⟨rfl, rfl⟩
  | cons request pending =>
    refine .bind_same (.check_same _) fun queue ↦ ?_
    refine .bind (same_run_loop hbackend _ _ ⟨_, rfl, [], rfl, rfl⟩) fun state _ h ↦ ?_
    obtain ⟨_, rfl, metrics, rfl, hmetrics⟩ := h
    exact .bind_same same_drain fun _ ↦ .pure ⟨rfl, hmetrics⟩

/-- What the instances of two runs share, the memos aside, and the sinks if nobody watches. -/
structure SharedButMemo (watched : Prop) (backend : BatchLatencyBackend)
    (shared shared' : Shared K) : Prop where
  sink_eq : watched → shared.sink = shared'.sink
  filled : shared.memo.FilledBy backend
  filled' : shared'.memo.FilledBy backend

theorem same_on_instance {α β : Type} {Q : α → β → Prop} {backend : BatchLatencyBackend} (cache : C)
    {x : Replay C K α} {y : Replay C K β} (h : Simulates (SameButMemo watched backend) Q x y) :
    Simulates (SharedButMemo watched backend) Q (onInstance cache x) (onInstance cache y) := by
  intro shared shared' hs
  have hxy := h { cache, sink := shared.sink, memo := shared.memo }
    { cache, sink := shared'.sink, memo := shared'.memo }
    ⟨rfl, hs.sink_eq, rfl, hs.filled, hs.filled'⟩
  unfold onInstance zoom
  generalize x _ = u at hxy ⊢
  generalize y _ = v at hxy ⊢
  cases hxy with
  | ok hw hab => exact .ok ⟨hw.sink_eq, hw.filled, hw.filled'⟩ hab
  | error hw => exact .error ⟨hw.sink_eq, hw.filled, hw.filled'⟩

/-- Results of a run that differ at most in the flags of their iteration metrics. -/
structure BatchAwareReplayResult.Same (result result' : BatchAwareReplayResult) : Prop where
  request_metrics : result.requestMetrics = result'.requestMetrics
  iteration_metrics : result.iterationMetrics.map IterationMetrics.forgetMemo =
    result'.iterationMetrics.map IterationMetrics.forgetMemo
  stats : result.cacheEventStats = result'.cacheEventStats
  events : result.cacheEvents = result'.cacheEvents

variable {replayEngine : BatchAwareReplayEngine C K}

theorem same_run_groups (hbackend : replayEngine.latencyBackend.Memoizable) (fuel : ℕ)
    (groups : List (String × List SimulationRequest)) :
    Simulates (SharedButMemo watched replayEngine.latencyBackend) InstanceResult.Same
      (replayEngine.runGroups fuel groups) (replayEngine.runGroupsUnmemoized fuel groups) := by
  induction groups with
  | nil => exact .pure ⟨rfl, rfl⟩
  | cons group groups ih =>
    obtain ⟨instanceUuid, requests⟩ := group
    unfold BatchAwareReplayEngine.runGroups BatchAwareReplayEngine.runGroupsUnmemoized
    have hinstance := @same_run_instance _ _ watched (replayEngine.forInstance instanceUuid) hbackend
      instanceUuid fuel requests
    refine .bind (same_on_instance _ hinstance) fun a b hab ↦ .bind ih fun a' b' hab' ↦ .pure ⟨?_, ?_⟩
    · exact congrArg₂ _ hab.1 hab'.1
    · rw [List.map_append, List.map_append, hab.2, hab'.2]

/-- The order of the iteration metrics does not look at their flags. -/
theorem sorted_forget_memo (metrics : List IterationMetrics) :
    (metrics.insertionSort fun a b ↦ a.sortKey ≤ b.sortKey).map IterationMetrics.forgetMemo =
      (metrics.map IterationMetrics.forgetMemo).insertionSort fun a b ↦ a.sortKey ≤ b.sortKey :=
  List.map_insertionSort _ _ _ _ fun _ _ _ _ ↦ Iff.rfl

theorem same_run (hbackend : replayEngine.latencyBackend.Memoizable) (fuel : ℕ)
    (requests : List SimulationRequest) :
    Simulates (SharedButMemo True replayEngine.latencyBackend) BatchAwareReplayResult.Same
      (replayEngine.run fuel requests) (replayEngine.runUnmemoized fuel requests) := by
  unfold BatchAwareReplayEngine.run BatchAwareReplayEngine.runUnmemoized
  refine .bind (same_run_groups hbackend fuel _) fun a b hab ↦ ?_
  intro shared shared' hs
  refine .ok hs ⟨?_, ?_, ?_, ?_⟩
  · rw [hab.1]
  · rw [sorted_forget_memo, sorted_forget_memo, hab.2]
  · rw [hs.sink_eq trivial]
  · rw [hs.sink_eq trivial]

end Runs

end InferTwin
