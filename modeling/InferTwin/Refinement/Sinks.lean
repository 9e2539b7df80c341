import InferTwin.Replay.EventLoop

namespace InferTwin

open Effect

variable {C K K' : Type}

/-- The engine with another consumer of its cache events. -/
def Engine.withSink (engine : Engine C K) (sink : CacheEventSink K') : Engine C K' :=
  { engine with sink }

@[simp] theorem Engine.withSink_config (engine : Engine C K) (sink : CacheEventSink K') :
    (engine.withSink sink).config = engine.config := rfl

@[simp] theorem Engine.withSink_timelineMode (engine : Engine C K) (sink : CacheEventSink K') :
    (engine.withSink sink).timelineMode = engine.timelineMode := rfl

@[simp] theorem Engine.withSink_clock (engine : Engine C K) (sink : CacheEventSink K') :
    (engine.withSink sink).clock = engine.clock := rfl

theorem Engine.plan_running_withSink (engine : Engine C K) (sink : CacheEventSink K') (heap : Heap)
    (refs : List ℕ) (frontier : FrontierPlan) :
    (engine.withSink sink).planRunning heap refs frontier =
      engine.planRunning heap refs frontier := by
  induction refs generalizing frontier with
  | nil => rfl
  | cons ref refs ih =>
    unfold planRunning
    simp only [ih, withSink_config]

theorem Engine.move_arrivals_withSink (engine : Engine C K) (sink : CacheEventSink K') (nowMs : ℚ)
    (pending : List SimulationRequest) (pendingIndex : ℕ) (locals : Locals) :
    (engine.withSink sink).moveArrivals nowMs pending pendingIndex locals =
      engine.moveArrivals nowMs pending pendingIndex locals := by
  induction pending generalizing pendingIndex locals with
  | nil => rfl
  | cons request pending ih =>
    unfold moveArrivals admitArrival
    simp only [ih, withSink_timelineMode]

/-- Worlds that differ in their event sinks only, in related ones. -/
structure AlikeButSink (R : K → K' → Prop) (world : World C K) (world' : World C K') : Prop where
  cache_eq : world.cache = world'.cache
  memo_eq : world.memo = world'.memo
  trace_eq : world.trace = world'.trace
  sinks : R world.sink world'.sink

section Passes

variable {R : K → K' → Prop} {engine : Engine C K} {sink' : CacheEventSink K'}

theorem sinks_on_cache {α : Type} (x : EStateM CacheError C α) :
    Simulates (AlikeButSink R) Eq (onCache x : Replay C K α) (onCache x : Replay C K' α) :=
  .zoom_same (fun _ _ hw ↦ hw.cache_eq) (fun _ _ _ hw ↦ { hw with cache_eq := rfl }) x

theorem sinks_on_materialization {α : Type} (x : EStateM MaterializationError C α) :
    Simulates (AlikeButSink R) Eq (onMaterialization x : Replay C K α)
      (onMaterialization x : Replay C K' α) :=
  .zoom_same (fun _ _ hw ↦ hw.cache_eq) (fun _ _ _ hw ↦ { hw with cache_eq := rfl }) x

theorem sinks_record (event : TraceEvent) :
    Simulates (AlikeButSink R) Eq (record event : Replay C K Unit)
      (record event : Replay C K' Unit) :=
  .modify_both fun _ _ hw ↦ { hw with trace_eq := congrArg (· ++ [event]) hw.trace_eq }

theorem sinks_estimate_latency (shape : BatchShape) :
    Simulates (AlikeButSink R) Eq (engine.estimateLatency shape)
      ((engine.withSink sink').estimateLatency shape) :=
  .zoom_same (fun _ _ hw ↦ hw.memo_eq) (fun _ _ _ hw ↦ { hw with memo_eq := rfl }) _

/-- The one step in which the sinks move. -/
theorem sinks_drain (hR : ∀ events k k', R k k' →
      R (engine.sink.emitMany events k) (sink'.emitMany events k')) :
    Simulates (AlikeButSink R) Eq engine.drainCacheEvents
      (engine.withSink sink').drainCacheEvents := by
  refine .modify_both fun world world' hw ↦ ?_
  refine ⟨?_, hw.memo_eq, hw.trace_eq, ?_⟩
  · rw [hw.cache_eq]
    rfl
  · rw [hw.cache_eq]
    exact hR _ _ _ hw.sinks

theorem sinks_lookup_request (nowMs : ℚ) (state : RequestState) (request : SimulationRequest) :
    Simulates (AlikeButSink R) Eq (engine.lookupRequest nowMs state request)
      ((engine.withSink sink').lookupRequest nowMs state request) := by
  unfold Engine.lookupRequest
  refine .bind_same (sinks_on_cache _) fun raw ↦ .bind_same (sinks_record _) fun _ ↦ ?_
  refine .bind_same (.check_same _) fun metrics ↦ .bind_same (sinks_record _) fun _ ↦ ?_
  exact .bind_same (.check_same _) fun _ ↦ .pure rfl

theorem sinks_ensure_lookup (nowMs : ℚ) (ref : ℕ) (request : SimulationRequest)
    (locals : Locals) :
    Simulates (AlikeButSink R) Eq (engine.ensureLookup nowMs ref request locals)
      ((engine.withSink sink').ensureLookup nowMs ref request locals) := by
  unfold Engine.ensureLookup
  split_ifs
  · exact .pure rfl
  · exact .bind_same (sinks_lookup_request _ _ _) fun _ ↦ .pure rfl

theorem sinks_prepare_running (nowMs : ℚ) (refs : List ℕ) (locals : Locals) :
    Simulates (AlikeButSink R) Eq (engine.prepareRunning nowMs refs locals)
      ((engine.withSink sink').prepareRunning nowMs refs locals) := by
  induction refs generalizing locals with
  | nil => exact .pure rfl
  | cons ref refs ih =>
    unfold Engine.prepareRunning
    refine .bind_same (.check_same _) fun request ↦ ?_
    exact .bind_same (sinks_ensure_lookup _ _ _ _) ih

theorem sinks_scan_waiting (nowMs : ℚ) (index : ℕ) (refs : List ℕ) (frontier : FrontierPlan)
    (locals : Locals) :
    Simulates (AlikeButSink R) Eq (engine.scanWaiting nowMs index refs frontier locals)
      ((engine.withSink sink').scanWaiting nowMs index refs frontier locals) := by
  induction refs generalizing index frontier locals with
  | nil => exact .pure rfl
  | cons ref refs ih =>
    unfold Engine.scanWaiting
    rw [Engine.withSink_config]
    by_cases hseats : frontier.plannedSlices ≥ engine.config.maxNumSeqs
    · rw [if_pos hseats, if_pos hseats]
      exact .pure rfl
    rw [if_neg hseats, if_neg hseats]
    refine .bind_same (.check_same _) fun request ↦ ?_
    refine .bind_same (sinks_ensure_lookup _ _ _ _) fun looked ↦ ?_
    refine .bind_same (.check_same _) fun remaining ↦ ?_
    split_ifs
    · refine .bind_same (.check_same _) fun pending ↦ ?_
      split_ifs
      · exact ih _ _ _
      · refine .bind_same (.check_same _) fun request ↦ .bind_same (.check_same _) fun lookup ↦ ?_
        exact .bind_same (.check_same _) fun finished ↦ ih _ _ _
    · exact .pure rfl
    · refine .bind_same (.check_same _) fun tokens ↦ ?_
      split_ifs
      · exact .pure rfl
      · exact ih _ _ _

theorem sinks_prepare_frontier (nowMs : ℚ) (locals : Locals) :
    Simulates (AlikeButSink R) Eq (engine.prepareSchedulerFrontier nowMs locals)
      ((engine.withSink sink').prepareSchedulerFrontier nowMs locals) := by
  unfold Engine.prepareSchedulerFrontier
  refine .bind_same (sinks_prepare_running _ _ _) fun looked ↦ ?_
  refine .bind_same (.check_same _) fun finished ↦ ?_
  refine .bind_same ?_ fun planned ↦ .pure rfl
  unfold Engine.prepareWaitingFrontier
  rw [Engine.plan_running_withSink, Engine.withSink_config]
  refine .bind_same (.check_same _) fun planned ↦ ?_
  obtain ⟨done, frontier⟩ := planned
  dsimp only
  split_ifs
  · exact .pure rfl
  · exact sinks_scan_waiting _ _ _ _ _

theorem sinks_materialize_scheduled_chunk (slice : ScheduledSlice) (lookup : LookupMetrics)
    (finishMs : ℚ) (progress : SliceProgress) :
    Simulates (AlikeButSink R) Eq
      (engine.materializeScheduledChunk slice lookup finishMs progress)
      ((engine.withSink sink').materializeScheduledChunk slice lookup finishMs progress) := by
  unfold Engine.materializeScheduledChunk
  rw [Engine.withSink_timelineMode]
  cases engine.timelineMode with
  | legacy => exact .pure rfl
  | progressive => exact .bind_same (sinks_on_materialization _) fun _ ↦ .pure rfl

theorem sinks_materialize_finished_request (lookup : LookupMetrics) (finishMs : ℚ)
    (progress : SliceProgress) :
    Simulates (AlikeButSink R) Eq (engine.materializeFinishedRequest lookup finishMs progress)
      ((engine.withSink sink').materializeFinishedRequest lookup finishMs progress) := by
  unfold Engine.materializeFinishedRequest
  rw [Engine.withSink_timelineMode]
  cases engine.timelineMode with
  | legacy => exact .bind_same (sinks_on_materialization _) fun _ ↦ .pure rfl
  | progressive => exact .bind_same (sinks_on_materialization _) fun _ ↦ .pure rfl

theorem sinks_apply_slice (startTimeMs finishMs : ℚ) (slice : ScheduledSlice)
    (contribution : IterationLatencyBreakdown) (state : RequestState) (lookup : LookupMetrics)
    (request : Except ReplayError SimulationRequest) (queue : SharedLinkFIFOTransferQueue)
    (totals : IterationTotals) :
    Simulates (AlikeButSink R) Eq
      (engine.applySlice startTimeMs finishMs slice contribution state lookup request queue totals)
      ((engine.withSink sink').applySlice startTimeMs finishMs slice contribution state lookup
        request queue totals) := by
  unfold Engine.applySlice
  rw [Engine.withSink_timelineMode]
  refine .bind_same (.check_same _) fun charged ↦ .bind_same ?_ fun advanced ↦ ?_
  · unfold Engine.advanceSlice
    rw [Engine.withSink_timelineMode]
    split_ifs
    · exact .bind_same (.check_same _) fun _ ↦ .pure rfl
    · refine .bind_same (.check_same _) fun _ ↦ ?_
      exact sinks_materialize_scheduled_chunk _ _ _ _
  · unfold Engine.completeSlice
    rw [Engine.withSink_timelineMode]
    split_ifs
    · exact .bind_same (.pure rfl) fun _ ↦ .bind_same (.check_same _) fun _ ↦
        .bind_same (.check_same _) fun _ ↦ .pure rfl
    · refine .bind_same (sinks_materialize_finished_request _ _ _) fun _ ↦ ?_
      exact .bind_same (.check_same _) fun _ ↦ .bind_same (.check_same _) fun _ ↦ .pure rfl
    · cases engine.timelineMode with
      | legacy => exact .pure rfl
      | progressive => exact .pure rfl

theorem sinks_apply_slices (startTimeMs finishMs : ℚ)
    (contributions : Dict String IterationLatencyBreakdown) (slices : List ScheduledSlice)
    (totals : IterationTotals) (records : List SliceRecord) (locals : Locals) :
    Simulates (AlikeButSink R) Eq
      (engine.applySlices startTimeMs finishMs contributions slices totals records locals)
      ((engine.withSink sink').applySlices startTimeMs finishMs contributions slices totals records
        locals) := by
  induction slices generalizing totals records locals with
  | nil => exact .pure rfl
  | cons slice slices ih =>
    unfold Engine.applySlices
    refine .bind_same (.check_same _) fun ref ↦ .bind_same (.check_same _) fun lookup ↦ ?_
    refine .bind_same (.check_same _) fun contribution ↦ ?_
    exact .bind_same (sinks_apply_slice _ _ _ _ _ _ _ _ _) fun applied ↦ ih _ _ _

variable (hR : ∀ events k k', R k k' →
  R (engine.sink.emitMany events k) (sink'.emitMany events k'))

include hR in
theorem sinks_run_iteration (instanceUuid : String) (nowMs : ℚ) (iterationId : ℕ)
    (locals : Locals) :
    Simulates (AlikeButSink R) Eq (engine.runIteration instanceUuid nowMs iterationId locals)
      ((engine.withSink sink').runIteration instanceUuid nowMs iterationId locals) := by
  unfold Engine.runIteration
  refine .bind_same (.check_same _) fun scheduled ↦ ?_
  obtain ⟨shape, admission⟩ := scheduled
  dsimp only
  split_ifs
  · exact .bind (Q := fun _ _ ↦ False) (.throw _) fun _ _ h ↦ h.elim
  refine .bind_same (sinks_estimate_latency shape) fun latency ↦ ?_
  refine .bind_same (.check_same _) fun waited ↦ ?_
  refine .bind_same ?_ fun applied ↦ .bind_same (sinks_drain hR) fun _ ↦ .pure rfl
  unfold Engine.applyScheduleResult
  refine .bind_same (.check_same _) fun contributions ↦ ?_
  refine .bind_same (sinks_apply_slices _ _ _ _ _ _ _) fun served ↦ ?_
  exact .bind_same (.check_same _) fun metric ↦ .bind_same (sinks_record _) fun _ ↦ .pure rfl

include hR in
theorem sinks_loop_body (instanceUuid : String) (state : LoopState) :
    Simulates (AlikeButSink R) Eq (engine.loopBody instanceUuid state)
      ((engine.withSink sink').loopBody instanceUuid state) := by
  unfold Engine.loopBody
  rw [Engine.move_arrivals_withSink]
  refine .bind_same (.check_same _) fun moved ↦ ?_
  obtain ⟨pending, index, locals⟩ := moved
  dsimp only
  split_ifs
  · cases pending with
    | nil => exact .throw _
    | cons request pending => exact .pure rfl
  refine .bind_same (sinks_prepare_frontier _ _) fun prepared ↦ ?_
  refine .bind_same (sinks_drain hR) fun _ ↦ ?_
  split_ifs
  · cases pending with
    | nil => exact .pure rfl
    | cons request pending => exact .pure rfl
  exact .bind_same (sinks_run_iteration hR _ _ _ _) fun _ ↦ .pure rfl

include hR in
theorem sinks_run_loop (instanceUuid : String) (fuel : ℕ) (state : LoopState) :
    Simulates (AlikeButSink R) Eq (engine.runLoop instanceUuid fuel state)
      ((engine.withSink sink').runLoop instanceUuid fuel state) := by
  induction fuel generalizing state with
  | zero => exact .throw _
  | succ fuel ih =>
    unfold Engine.runLoop
    split_ifs
    · exact .pure rfl
    refine .bind_same (sinks_loop_body hR _ _) fun flow ↦ ?_
    cases flow with
    | stop next => exact .pure rfl
    | proceed next => exact ih next

include hR in
/-- A replay does the same whatever sink its cache events go to. Sinks that move alike stay
related. -/
theorem sinks_run_instance (instanceUuid : String) (fuel : ℕ) (requests : List SimulationRequest) :
    Simulates (AlikeButSink R) Eq (engine.runInstance instanceUuid fuel requests)
      ((engine.withSink sink').runInstance instanceUuid fuel requests) := by
  unfold Engine.runInstance
  cases SimulationRequest.sorted requests with
  | nil => exact .pure rfl
  | cons request pending =>
    refine .bind_same (.check_same _) fun queue ↦ ?_
    refine .bind_same (sinks_run_loop hR _ _ _) fun state ↦ ?_
    exact .bind_same (sinks_drain hR) fun _ ↦ .pure rfl

end Passes

end InferTwin
