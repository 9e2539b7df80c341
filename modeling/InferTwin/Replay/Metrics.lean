import InferTwin.Cache.CachedTokenAccounting
import InferTwin.Foundation.Effect
import InferTwin.Latency.Schema
import InferTwin.Replay.Ttft
import Mathlib.Tactic.Positivity

namespace InferTwin

structure LookupMetrics where
  hbmHitTokens : ℕ
  ddrHitTokens : ℕ
  ddrHitBytes : ℕ
  missTokens : ℕ
  missBlocks : List PrefixBlock
  materializationBlocks : List PrefixBlock
  rawHbmHitTokens : ℕ
  rawDdrHitTokens : ℕ
  rawMissTokens : ℕ
  cachedTokenCap : ℕ
  deriving DecidableEq, Repr

namespace LookupMetrics

def fromResult (lookup : PrefixLookupResult) (request : SimulationRequest) :
    Except ReplayError LookupMetrics := do
  let accounted ← accountPrefixLookup lookup request.promptTokens request.blockConversionResult
  return {
    hbmHitTokens := accounted.hbmHitTokens
    ddrHitTokens := accounted.ddrHitTokens
    ddrHitBytes := (accounted.ddrHitBlocks.map PrefixBlock.sizeBytes).sum
    missTokens := accounted.missTokens
    missBlocks := accounted.materializationBlocks
    materializationBlocks := accounted.materializationBlocks
    rawHbmHitTokens := accounted.rawHbmHitTokens
    rawDdrHitTokens := accounted.rawDdrHitTokens
    rawMissTokens := accounted.rawMissTokens
    cachedTokenCap := accounted.cachedTokenCap }

def effectiveHitTokens (lookup : LookupMetrics) : ℕ := lookup.hbmHitTokens + lookup.ddrHitTokens

end LookupMetrics

structure BatchAwareRequestMetrics where
  requestId : String
  tenantId : String
  instanceUuid : String
  model : String
  tokenizerProfile : String
  arrivalTimeMs : ℚ
  firstScheduledTimeMs : ℚ
  finishTimeMs : ℚ
  schedulerWaitMs : ℚ
  ttftMs : ℚ
  promptTokens : ℕ
  promptBlocks : ℕ
  hbmHitTokens : ℕ
  ddrHitTokens : ℕ
  missTokens : ℕ
  effectiveHitRate : ℚ
  scheduledIterationCount : ℕ
  kvLoadTokens : ℕ
  kvLoadBytes : ℕ
  kvLoadMs : ℚ
  prefillComputeMs : ℚ
  queueMs : ℚ
  timelineMode : TimelineMode
  ttftGranularity : TtftGranularity
  computeWaitMs : ℚ
  kvLoadWaitMs : ℚ
  uncachedPrefillComputeMs : ℚ
  unattributedTtftMs : ℚ
  chunkCount : ℕ
  loadEventCount : ℕ
  progressiveMaterializedBlocks : ℕ
  progressiveMaterializedTokens : ℕ
  deriving DecidableEq, Repr

structure IterationMetrics where
  instanceUuid : String
  iterationId : ℕ
  startTimeMs : ℚ
  finishTimeMs : ℚ
  durationMs : ℚ
  batchSize : ℕ
  scheduledPrefillTokens : ℕ
  scheduledDecodeTokens : ℕ
  maxQueryLen : ℕ
  totalContextTokens : ℕ
  backend : String
  shapeKey : String
  memoized : Bool
  requestIds : List String
  kvLoadTokens : ℕ
  kvLoadBytes : ℕ
  kvLoadRequestCount : ℕ
  kvLoadMs : ℚ
  prefillComputeMs : ℚ
  queueMs : ℚ
  timelineMode : TimelineMode
  ttftGranularity : TtftGranularity
  waitingForComputeCount : ℕ
  waitingForKvLoadCount : ℕ
  scheduledChunkCount : ℕ
  kvTransferQueueDepthMax : ℕ
  computeWaitMs : ℚ
  kvLoadWaitMs : ℚ
  progressiveMaterializedBlocks : ℕ
  progressiveMaterializedTokens : ℕ
  deriving DecidableEq, Repr

/-- Latency components attached to one iteration or to one slice of it. -/
structure IterationLatencyBreakdown where
  prefillComputeMs : ℚ
  kvLoadMs : ℚ
  queueMs : ℚ
  prefill_nonneg : 0 ≤ prefillComputeMs
  kv_load_nonneg : 0 ≤ kvLoadMs
  queue_nonneg : 0 ≤ queueMs

/-- A numeric detail of a latency result, which must not be negative. -/
def detailFloat (latency : LatencyResult) (key : String) (fallback : ℚ) :
    Except ReplayError {value : ℚ // 0 ≤ value} :=
  match (latency.details.get? key).getD (.num fallback) with
  | .num value => if h : value < 0 then .error (.detailNegative key) else .ok ⟨value, nonneg_of_not_neg h⟩
  | .str _ | .bool _ => .error (.detailNotNumeric key)

def latencyBreakdownFromResult (latency : LatencyResult) :
    Except ReplayError IterationLatencyBreakdown := do
  let prefillComputeMs ← detailFloat latency "ttft_ms" latency.durationMs
  let kvLoadMs ← detailFloat latency "kv_load_ms" 0
  let queueMs ← detailFloat latency "queue_ms" 0
  return {
    prefillComputeMs, kvLoadMs, queueMs
    prefill_nonneg := prefillComputeMs.2
    kv_load_nonneg := kvLoadMs.2
    queue_nonneg := queueMs.2 }

/-- The share of `total` milliseconds that `part` of `whole` units carries. -/
def proportionalShare (total : ℚ) (part whole : ℕ) : ℚ :=
  if whole > 0 ∧ part > 0 then total * part / whole else 0

theorem proportional_share_nonneg {total : ℚ} (h : 0 ≤ total) (part whole : ℕ) :
    0 ≤ proportionalShare total part whole := by
  unfold proportionalShare
  split_ifs <;> positivity

/-- The part of an iteration's latency attributed to one of its slices. -/
def sliceContribution (breakdown : IterationLatencyBreakdown) (shape : BatchShape)
    (slice : ScheduledSlice) : IterationLatencyBreakdown where
  prefillComputeMs := proportionalShare breakdown.prefillComputeMs slice.scheduledPrefillTokens
    shape.scheduledPrefillTokens
  kvLoadMs := if shape.kvLoadBytes > 0 ∧ slice.kvLoadBytes > 0 then
      breakdown.kvLoadMs * slice.kvLoadBytes / shape.kvLoadBytes
    else proportionalShare breakdown.kvLoadMs slice.kvLoadTokens shape.kvLoadTokens
  queueMs := if shape.batchSize > 0 then breakdown.queueMs / shape.batchSize else 0
  prefill_nonneg := proportional_share_nonneg breakdown.prefill_nonneg _ _
  kv_load_nonneg := by
    have h := breakdown.kv_load_nonneg
    split_ifs
    · positivity
    · exact proportional_share_nonneg h _ _
  queue_nonneg := by
    have h := breakdown.queue_nonneg
    split_ifs <;> positivity

/-- Request-level attributions of one iteration, by request id. -/
def splitIterationLatencyContributions (shape : BatchShape) (latency : LatencyResult) :
    Except ReplayError (Dict String IterationLatencyBreakdown) := do
  let breakdown ← latencyBreakdownFromResult latency
  return shape.requestSlices.foldl
    (fun contributions slice ↦
      contributions.insert slice.requestId (sliceContribution breakdown shape slice)) ∅

def requiredTime (value : Option ℚ) (fieldName requestId : String) : Except ReplayError ℚ :=
  match value with
  | some time => .ok time
  | none => .error (.missingTime fieldName requestId)

def safeRate (numerator denominator : ℕ) : ℚ :=
  if denominator = 0 then 0 else numerator / denominator

def buildRequestMetrics (request : SimulationRequest) (state : RequestState)
    (lookup : LookupMetrics) : Except ReplayError BatchAwareRequestMetrics := do
  let firstScheduledTimeMs ←
    requiredTime state.firstScheduledTimeMs "first_scheduled_time_ms" state.requestId
  let finishTimeMs ← requiredTime state.finishTimeMs "finish_time_ms" state.requestId
  let composition ←
    RequestTTFTComposer.compose request state finishTimeMs firstScheduledTimeMs
  return {
    requestId := request.requestId
    tenantId := request.tenantId
    instanceUuid := request.instanceUuid
    model := request.model
    tokenizerProfile := request.tokenizerProfile
    arrivalTimeMs := request.startTimeMs
    firstScheduledTimeMs
    finishTimeMs
    schedulerWaitMs := composition.schedulerWaitMs
    ttftMs := composition.ttftMs
    promptTokens := request.promptTokens
    promptBlocks := request.promptBlocks.length
    hbmHitTokens := lookup.hbmHitTokens
    ddrHitTokens := lookup.ddrHitTokens
    missTokens := lookup.missTokens
    effectiveHitRate := safeRate (lookup.hbmHitTokens + lookup.ddrHitTokens) request.promptTokens
    scheduledIterationCount := state.scheduledIterationCount
    kvLoadTokens := lookup.ddrHitTokens
    kvLoadBytes := lookup.ddrHitBytes
    kvLoadMs := state.kvLoadMs
    prefillComputeMs := state.prefillComputeMs
    queueMs := state.queueMs
    timelineMode := composition.timelineMode
    ttftGranularity := composition.ttftGranularity
    computeWaitMs := composition.computeWaitMs
    kvLoadWaitMs := composition.kvLoadWaitMs
    uncachedPrefillComputeMs := composition.uncachedPrefillComputeMs
    unattributedTtftMs := composition.unattributedTtftMs
    chunkCount := composition.chunkCount
    loadEventCount := composition.loadEventCount
    progressiveMaterializedBlocks := state.progressiveMaterializedBlocks
    progressiveMaterializedTokens := state.progressiveMaterializedTokens }

/-- What a request metric says of the request, its state and its lookup. -/
structure BatchAwareRequestMetrics.Describes (metric : BatchAwareRequestMetrics)
    (request : SimulationRequest) (state : RequestState) (lookup : LookupMetrics) : Prop where
  id_eq : metric.requestId = request.requestId
  instance_eq : metric.instanceUuid = request.instanceUuid
  arrival_eq : metric.arrivalTimeMs = request.startTimeMs
  first_eq : state.firstScheduledTimeMs = some metric.firstScheduledTimeMs
  finish_eq : state.finishTimeMs = some metric.finishTimeMs
  prompt_eq : metric.promptTokens = request.promptTokens
  hits_eq : (metric.hbmHitTokens, metric.ddrHitTokens) = (lookup.hbmHitTokens, lookup.ddrHitTokens)
  misses_eq : metric.missTokens = lookup.missTokens
  load_eq : (metric.kvLoadTokens, metric.kvLoadBytes) = (lookup.ddrHitTokens, lookup.ddrHitBytes)
  iterations_eq : metric.scheduledIterationCount = state.scheduledIterationCount

theorem required_time_ok {value : Option ℚ} {fieldName requestId : String} {time : ℚ}
    (h : requiredTime value fieldName requestId = .ok time) : value = some time := by
  unfold requiredTime at h
  split at h
  · cases h
    rfl
  · cases h

theorem build_request_metrics_describes {request : SimulationRequest} {state : RequestState}
    {lookup : LookupMetrics} {metric : BatchAwareRequestMetrics}
    (h : buildRequestMetrics request state lookup = .ok metric) :
    metric.Describes request state lookup := by
  unfold buildRequestMetrics at h
  obtain ⟨firstMs, hfirst, h⟩ := Effect.except_bind_ok.mp h
  obtain ⟨finishMs, hfinish, h⟩ := Effect.except_bind_ok.mp h
  obtain ⟨composition, -, h⟩ := Effect.except_bind_ok.mp h
  cases h
  exact ⟨rfl, rfl, rfl, required_time_ok hfirst, required_time_ok hfinish, rfl, rfl, rfl, rfl, rfl⟩

/-- Waits and counters collected while an iteration is applied. -/
structure IterationTotals where
  waitingForKvLoadCount : ℕ := 0
  kvLoadWaitMs : ℚ := 0
  kvTransferQueueDepthMax : ℕ := 0
  progressiveMaterializedBlocks : ℕ := 0
  progressiveMaterializedTokens : ℕ := 0
  deriving DecidableEq, Repr

/-- Requests that sat an iteration out, and the time they waited together. -/
structure ComputeWaitAccounting where
  waitingForComputeCount : ℕ := 0
  computeWaitMs : ℚ := 0
  deriving DecidableEq, Repr

def buildIterationMetrics (shape : BatchShape) (latency : LatencyResult) (finishTimeMs : ℚ)
    (timelineMode : TimelineMode) (computeWait : ComputeWaitAccounting)
    (totals : IterationTotals) : Except ReplayError IterationMetrics := do
  let breakdown ← latencyBreakdownFromResult latency
  return {
    instanceUuid := shape.instanceUuid
    iterationId := shape.iterationId
    startTimeMs := shape.startTimeMs
    finishTimeMs
    durationMs := latency.durationMs
    batchSize := shape.batchSize
    scheduledPrefillTokens := shape.scheduledPrefillTokens
    scheduledDecodeTokens := shape.scheduledDecodeTokens
    maxQueryLen := shape.maxQueryLen
    totalContextTokens := shape.totalContextTokens
    backend := latency.backend
    shapeKey := latency.shapeKey.str
    memoized := latency.memoized
    requestIds := shape.requestSlices.map ScheduledSlice.requestId
    kvLoadTokens := shape.kvLoadTokens
    kvLoadBytes := shape.kvLoadBytes
    kvLoadRequestCount := shape.kvLoadRequestCount
    kvLoadMs := breakdown.kvLoadMs
    prefillComputeMs := breakdown.prefillComputeMs
    queueMs := breakdown.queueMs
    timelineMode
    ttftGranularity := match timelineMode with
      | .legacy => .iteration
      | .progressive => .chunk
    waitingForComputeCount := computeWait.waitingForComputeCount
    waitingForKvLoadCount := totals.waitingForKvLoadCount
    scheduledChunkCount := match timelineMode with
      | .legacy => 0
      | .progressive => shape.requestSlices.countP fun slice ↦ slice.scheduledPrefillTokens > 0
    kvTransferQueueDepthMax := totals.kvTransferQueueDepthMax
    computeWaitMs := computeWait.computeWaitMs
    kvLoadWaitMs := totals.kvLoadWaitMs
    progressiveMaterializedBlocks := totals.progressiveMaterializedBlocks
    progressiveMaterializedTokens := totals.progressiveMaterializedTokens }

end InferTwin
