import InferTwin.Cache.EventSink
import InferTwin.Cache.Materialization
import InferTwin.Replay.KvTransfer
import InferTwin.Replay.Metrics
import InferTwin.Scheduler.VllmLike

namespace InferTwin

open Effect

/-- How the simulation clock adds a duration to its value: exactly, or rounded as on a
machine. Time never runs backwards. -/
structure Clock where
  add : ℚ → ℚ → ℚ
  le_add : ∀ nowMs durationMs, 0 ≤ durationMs → nowMs ≤ add nowMs durationMs

def Clock.exact : Clock where
  add nowMs durationMs := nowMs + durationMs
  le_add _ _ h := le_add_of_nonneg_right h

/-- What one slice of an iteration was charged and made visible. -/
structure SliceRecord where
  requestId : String
  prefillMs : ℚ
  kvElapsedMs : ℚ
  materialized : List PrefixBlock
  deriving DecidableEq, Repr

/-- One completed iteration. -/
structure IterationRecord where
  shape : BatchShape
  durationMs : ℚ
  finishTimeMs : ℚ
  linkFreeMs : ℚ
  slices : List SliceRecord
  deriving DecidableEq

/-- What a replay does to its cache and on its timeline, in order. The trace is a ghost:
no function of the source reads or keeps it. -/
inductive TraceEvent
  | lookup (requestId : String) (nowMs : ℚ) (result : PrefixLookupResult)
  | accounted (requestId : String) (lookup : LookupMetrics)
  | iteration (record : IterationRecord)
  deriving DecidableEq

/-- The objects a replay works on that outlive an exception. -/
structure World (C K : Type) where
  cache : C
  sink : K
  memo : ShapeMemo
  trace : List TraceEvent := []

abbrev Replay (C K : Type) := EStateM ReplayError (World C K)

variable {C K α : Type}

def record (event : TraceEvent) : Replay C K Unit :=
  modify fun world ↦ { world with trace := world.trace ++ [event] }

def onCache (x : EStateM CacheError C α) : Replay C K α :=
  zoom .cache World.cache (fun cache world ↦ { world with cache }) x

def onMaterialization (x : EStateM MaterializationError C α) : Replay C K α :=
  zoom .materialization World.cache (fun cache world ↦ { world with cache }) x

def onMemo (x : EStateM ReplayError ShapeMemo α) : Replay C K α :=
  zoom id World.memo (fun memo world ↦ { world with memo }) x

/-- A replay engine with the cache and the event sink of the instance it replays. -/
structure Engine (C K : Type) where
  config : SchedulerConfig
  latencyBackend : BatchLatencyBackend
  cache : PrefixCache C
  sink : CacheEventSink K
  materializationPolicy : MaterializationPolicy C
  timelineMode : TimelineMode
  clock : Clock := .exact
  supports_chunks : timelineMode = .progressive →
    materializationPolicy.supportsProgressiveChunks = true

namespace Engine

def drainCacheEvents (engine : Engine C K) : Replay C K Unit :=
  modify fun world ↦
    let drained := engine.cache.takeEvents world.cache
    { world with cache := drained.2, sink := engine.sink.emitMany drained.1 world.sink }

def estimateLatency (engine : Engine C K) (shape : BatchShape) : Replay C K LatencyResult :=
  onMemo (ShapeMemo.getOrCompute (engine.latencyBackend.shapeKey shape)
    (engine.latencyBackend.estimateIteration shape))

/-- The body of `_ensure_lookup`, for a request that was not looked up before. -/
def lookupRequest (engine : Engine C K) (nowMs : ℚ) (state : RequestState)
    (request : SimulationRequest) : Replay C K (RequestState × LookupMetrics) := do
  let lookup ← onCache
    (engine.cache.lookupPrefix state.promptBlocks nowMs state.requestId state.instanceUuid)
  record (.lookup state.requestId nowMs lookup)
  let metrics ← check (LookupMetrics.fromResult lookup request)
  record (.accounted state.requestId metrics)
  let state ← check (state.setCacheLookup metrics.effectiveHitTokens metrics.missTokens
    metrics.ddrHitTokens metrics.ddrHitBytes)
  return (state, metrics)

end Engine

def stateFromRequest (request : SimulationRequest) (arrivalSeq : ℕ) (timelineMode : TimelineMode) :
    Except ReplayError RequestState :=
  if request.startTimeMs < 0 then .error .negativeArrivalTime
  else .ok {
    requestId := request.requestId
    tenantId := request.tenantId
    instanceUuid := request.instanceUuid
    arrivalTimeMs := request.startTimeMs
    promptTokens := request.promptTokens
    promptBlocks := request.promptBlocks
    effectiveBlockSize := request.effectiveBlockSize.getD 0
    model := request.model
    tokenizerProfile := request.tokenizerProfile
    arrivalSeq
    timelineMode }

def recordInitialComputeWait (state : RequestState) (nowMs : ℚ) :
    Except ReplayError RequestState :=
  match state.timelineMode with
  | .legacy => .ok state
  | .progressive =>
    if nowMs < state.arrivalTimeMs then .error .clockBeforeArrival
    else state.recordComputeWait (nowMs - state.arrivalTimeMs)

/-- The request object of a zero-miss request that finishes without an iteration. -/
def finishZeroMiss (nowMs : ℚ) (state : RequestState) : RequestState :=
  { state with
    firstScheduledTimeMs := some (state.firstScheduledTimeMs.getD nowMs)
    finishTimeMs := some nowMs
    status := .finished
    timelineState := .finished }

structure KVLoadTimingAccounting where
  waitingForKvLoadCount : ℕ := 0
  kvLoadWaitMs : ℚ := 0
  kvTransferQueueDepthMax : ℕ := 0

def recordScheduledKvLoadTiming (timelineMode : TimelineMode) (state : RequestState)
    (slice : ScheduledSlice) (contribution : IterationLatencyBreakdown)
    (queue : SharedLinkFIFOTransferQueue) (readyTimeMs : ℚ) :
    Except ReplayError (KVLoadTimingAccounting × RequestState × SharedLinkFIFOTransferQueue) :=
  if timelineMode = .legacy ∨ slice.kvLoadTokens = 0 ∧ slice.kvLoadBytes = 0 then
    .ok ({}, state, queue)
  else do
    let request ← KVTransferRequest.build state.requestId state.instanceUuid readyTimeMs
      contribution.kvLoadMs slice.kvLoadTokens slice.kvLoadBytes contribution.kv_load_nonneg
    let (transfer, queue) ← queue.submit request
    let state ← { state with timelineState := .waitingForKvLoad }.recordKvLoadEvent
      transfer.elapsedMs
    return ({
      waitingForKvLoadCount := 1
      kvLoadWaitMs := transfer.elapsedMs
      kvTransferQueueDepthMax := transfer.queueDepthAfter }, state, queue)

/-- The loop of `_record_iteration_compute_wait` over the active requests. -/
def computeWaitLoop (scheduledRequestIds : List String) (durationMs : ℚ) :
    List ℕ → List String → ComputeWaitAccounting → Heap →
      Except ReplayError (ComputeWaitAccounting × Heap)
  | [], _, wait, heap => .ok (wait, heap)
  | ref :: refs, seen, wait, heap =>
    if (heap ref).requestId ∈ seen then
      computeWaitLoop scheduledRequestIds durationMs refs seen wait heap
    else
      let seen := (heap ref).requestId :: seen
      if (heap ref).status = .finished ∨ (heap ref).requestId ∈ scheduledRequestIds then
        computeWaitLoop scheduledRequestIds durationMs refs seen wait heap
      else do
        let state ← (heap ref).recordComputeWait durationMs
        computeWaitLoop scheduledRequestIds durationMs refs seen
          { waitingForComputeCount := wait.waitingForComputeCount + 1
            computeWaitMs := wait.computeWaitMs + durationMs }
          (Function.update heap ref state)

def recordIterationComputeWait (waiting running : List ℕ) (scheduledRequestIds : List String)
    (durationMs : ℚ) (timelineMode : TimelineMode) (heap : Heap) :
    Except ReplayError (ComputeWaitAccounting × Heap) :=
  match timelineMode with
  | .legacy => .ok ({}, heap)
  | .progressive =>
    computeWaitLoop scheduledRequestIds durationMs (waiting ++ running) [] {} heap

/-- What has become of one slice and its request while the iteration is applied. -/
structure SliceProgress where
  state : RequestState
  queue : SharedLinkFIFOTransferQueue
  totals : IterationTotals
  record : SliceRecord

/-- Charge a slice with its share of the iteration. -/
def chargeSlice (timelineMode : TimelineMode) (startTimeMs : ℚ) (slice : ScheduledSlice)
    (contribution : IterationLatencyBreakdown) (state : RequestState)
    (queue : SharedLinkFIFOTransferQueue) (totals : IterationTotals) :
    Except ReplayError SliceProgress := do
  let (timing, state, queue) ← recordScheduledKvLoadTiming timelineMode state slice contribution
    queue startTimeMs
  let state ← state.recordLatencyContribution contribution.prefillComputeMs
    contribution.kvLoadMs contribution.queueMs
  return {
    state, queue
    totals := { totals with
      waitingForKvLoadCount := totals.waitingForKvLoadCount + timing.waitingForKvLoadCount
      kvLoadWaitMs := totals.kvLoadWaitMs + timing.kvLoadWaitMs
      kvTransferQueueDepthMax :=
        max totals.kvTransferQueueDepthMax timing.kvTransferQueueDepthMax }
    record := {
      requestId := slice.requestId
      prefillMs := contribution.prefillComputeMs
      kvElapsedMs := timing.kvLoadWaitMs
      materialized := [] } }

/-- Count what a materialization call made visible. The engine counts only blocks that
were not counted for the request before. -/
def SliceProgress.materialized (progress : SliceProgress) (blocks : List PrefixBlock) :
    SliceProgress :=
  let recorded := progress.state.recordProgressiveMaterialization blocks
  { progress with
    state := recorded.1
    totals := { progress.totals with
      progressiveMaterializedBlocks :=
        progress.totals.progressiveMaterializedBlocks + recorded.2.length
      progressiveMaterializedTokens :=
        progress.totals.progressiveMaterializedTokens + blockTokens recorded.2 }
    record := { progress.record with
      materialized := progress.record.materialized ++ blocks } }

namespace Engine

variable (engine : Engine C K)

def materializeScheduledChunk (slice : ScheduledSlice) (lookup : LookupMetrics) (finishMs : ℚ)
    (progress : SliceProgress) : Replay C K SliceProgress :=
  match engine.timelineMode with
  | .legacy => pure progress
  | .progressive => do
    let blocks ← onMaterialization
      (engine.materializationPolicy.materializeScheduledChunk engine.cache {
        blocks := lookup.materializationBlocks
        finishTimeMs := finishMs
        requestId := progress.state.requestId
        instanceUuid := progress.state.instanceUuid
        promptBlocks := progress.state.promptBlocks
        effectiveBlockSize := progress.state.effectiveBlockSize
        alreadyMaterializedBlockKeys := progress.state.progressiveMaterializedBlockKeys }
        slice.computedTokensBefore slice.computedTokensAfter)
    return progress.materialized blocks

/-- In legacy mode the policy's answer is dropped by the source; only the trace keeps it. -/
def materializeFinishedRequest (lookup : LookupMetrics) (finishMs : ℚ)
    (progress : SliceProgress) : Replay C K SliceProgress :=
  match engine.timelineMode with
  | .legacy => do
    let blocks ← onMaterialization
      (engine.materializationPolicy.materializeFinishedRequest engine.cache {
        blocks := lookup.materializationBlocks
        finishTimeMs := finishMs
        requestId := progress.state.requestId
        instanceUuid := progress.state.instanceUuid })
    return { progress with record := { progress.record with
      materialized := progress.record.materialized ++ blocks } }
  | .progressive => do
    let blocks ← onMaterialization
      (engine.materializationPolicy.materializeFinishedRequest engine.cache {
        blocks := lookup.materializationBlocks
        finishTimeMs := finishMs
        requestId := progress.state.requestId
        instanceUuid := progress.state.instanceUuid
        promptBlocks := progress.state.promptBlocks
        effectiveBlockSize := progress.state.effectiveBlockSize
        alreadyMaterializedBlockKeys := progress.state.progressiveMaterializedBlockKeys })
    return progress.materialized blocks

/-- Apply the scheduled tokens, and make the blocks they complete visible. -/
def advanceSlice (slice : ScheduledSlice) (lookup : LookupMetrics) (finishMs : ℚ)
    (progress : SliceProgress) : Replay C K SliceProgress := do
  if slice.scheduledPrefillTokens = 0 then
    let state ← check (progress.state.applyLoadOnlyIteration finishMs)
    return { progress with state }
  else
    let started := match engine.timelineMode with
      | .legacy => progress.state
      | .progressive => { progress.state with timelineState := .runningChunk }
    let state ← check (started.applyScheduledTokens slice.scheduledPrefillTokens finishMs)
    engine.materializeScheduledChunk slice lookup finishMs { progress with state }

/-- Emit the metric of a request that has finished, after its blocks are stored. The
request is fetched only then. -/
def completeSlice (lookup : LookupMetrics) (request : Except ReplayError SimulationRequest)
    (finishMs : ℚ) (progress : SliceProgress) :
    Replay C K (SliceProgress × Option BatchAwareRequestMetrics) := do
  if progress.state.status = .finished then
    let progress ← if lookup.materializationBlocks = [] then pure progress
      else engine.materializeFinishedRequest lookup finishMs progress
    let request ← check request
    let metric ← check (buildRequestMetrics request progress.state lookup)
    return (progress, some metric)
  else
    match engine.timelineMode with
    | .legacy => return (progress, none)
    | .progressive =>
      return ({ progress with
        state := { progress.state with timelineState := .waitingForCompute } }, none)

/-- One turn of the slice loop of `_apply_schedule_result`. -/
def applySlice (startTimeMs finishMs : ℚ) (slice : ScheduledSlice)
    (contribution : IterationLatencyBreakdown) (state : RequestState) (lookup : LookupMetrics)
    (request : Except ReplayError SimulationRequest) (queue : SharedLinkFIFOTransferQueue)
    (totals : IterationTotals) :
    Replay C K (SliceProgress × Option BatchAwareRequestMetrics) := do
  let progress ← check
    (chargeSlice engine.timelineMode startTimeMs slice contribution state queue totals)
  let progress ← engine.advanceSlice slice lookup finishMs progress
  engine.completeSlice lookup request finishMs progress

end Engine

end InferTwin
