import InferTwin.Cache.EventSink
import InferTwin.Foundation.Group
import InferTwin.Replay.Metrics
import Mathlib.Data.Prod.Lex
import Mathlib.Data.Rat.Floor

namespace InferTwin

/-- The exceptions of the capacity sweep and of its streaming aggregator. -/
inductive SweepError
  | tokenInvariant
  | requestTokenInvariant (requestId : String)
  | mixedValues (fieldName : String)
  | percentileRange
  | emptyInstanceUuid
  deriving DecidableEq, Repr

def SweepError.message : SweepError → String
  | tokenInvariant => "capacity sweep token invariant failed"
  | requestTokenInvariant requestId =>
    "request metric token invariant failed for " ++ requestId ++
      ": hbm_hit_tokens + ddr_hit_tokens + miss_tokens must equal prompt_tokens"
  | mixedValues fieldName => "capacity sweep " ++ fieldName ++ " invariant failed: mixed values"
  | percentileRange => "percentile must be between 0 and 100"
  | emptyInstanceUuid => "instance_uuid must be a non-empty string"

def TtftGranularity.value : TtftGranularity → String
  | iteration => "iteration"
  | chunk => "chunk"

inductive RowScope
  | trace | oneInstance
  deriving DecidableEq, Repr

structure CapacitySweepRow where
  hbmCapacityBlocks : ℤ
  scope : RowScope
  instanceUuid : String
  requestCount : ℕ
  iterationCount : ℕ
  totalPromptTokens : ℕ
  hbmHitTokens : ℕ
  ddrHitTokens : ℕ
  missTokens : ℕ
  totalHitTokens : ℕ
  kvHitRate : ℚ
  hbmHitRate : ℚ
  ddrHitRate : ℚ
  p50TtftMs : ℚ
  p90TtftMs : ℚ
  p99TtftMs : ℚ
  cacheEventCount : ℕ
  totalKvLoadMs : ℚ
  avgKvLoadMs : ℚ
  p50KvLoadMs : ℚ
  p90KvLoadMs : ℚ
  p99KvLoadMs : ℚ
  timelineMode : String
  ttftGranularity : String
  totalComputeWaitMs : ℚ
  avgComputeWaitMs : ℚ
  p50ComputeWaitMs : ℚ
  p90ComputeWaitMs : ℚ
  p99ComputeWaitMs : ℚ
  totalKvLoadWaitMs : ℚ
  avgKvLoadWaitMs : ℚ
  p50KvLoadWaitMs : ℚ
  p90KvLoadWaitMs : ℚ
  p99KvLoadWaitMs : ℚ
  totalUncachedPrefillComputeMs : ℚ
  avgUncachedPrefillComputeMs : ℚ
  p90UncachedPrefillComputeMs : ℚ
  totalUnattributedTtftMs : ℚ
  avgUnattributedTtftMs : ℚ
  totalChunkCount : ℕ
  totalLoadEventCount : ℕ
  totalProgressiveMaterializedBlocks : ℕ
  totalProgressiveMaterializedTokens : ℕ
  totalWaitingForComputeCount : ℕ
  totalWaitingForKvLoadCount : ℕ
  totalScheduledChunkCount : ℕ
  maxKvTransferQueueDepth : ℕ
  deriving DecidableEq, Repr

/-- The nearest-rank percentile. -/
def percentile (values : List ℚ) (percentileValue : ℚ) : Except SweepError ℚ :=
  if values = [] then .ok 0
  else if percentileValue < 0 ∨ percentileValue > 100 then .error .percentileRange
  else
    let sortedValues := values.insertionSort (· ≤ ·)
    let rank := ⌈percentileValue / 100 * sortedValues.length⌉
    let index := min (max (rank - 1) 0) (sortedValues.length - 1)
    .ok (sortedValues.getD index.toNat 0)

def sweepRate (numerator : ℚ) (denominator : ℕ) : ℚ :=
  if denominator = 0 then 0 else numerator / denominator

/-- `_resolve_metric_string`: the one value that the metrics carry, or the configured one. -/
def resolveMetricString (configured : String) (values : List String) (fieldName : String) :
    Except SweepError String :=
  match (values.filter (· ≠ "")).dedup with
  | [] => .ok configured
  | [value] => .ok value
  | _ :: _ :: _ => .error (.mixedValues fieldName)

/-- `max(..., default=0)`. -/
def maxOrZero (values : List ℕ) : ℕ := values.max?.getD 0

def aggregateRow (capacity : ℤ) (scope : RowScope) (instanceUuid : String)
    (requestMetrics : List BatchAwareRequestMetrics) (iterationMetrics : List IterationMetrics)
    (cacheEventCount : ℕ) (timelineMode ttftGranularity : String) :
    Except SweepError CapacitySweepRow := do
  let totalPromptTokens := (requestMetrics.map BatchAwareRequestMetrics.promptTokens).sum
  let hbmHitTokens := (requestMetrics.map BatchAwareRequestMetrics.hbmHitTokens).sum
  let ddrHitTokens := (requestMetrics.map BatchAwareRequestMetrics.ddrHitTokens).sum
  let missTokens := (requestMetrics.map BatchAwareRequestMetrics.missTokens).sum
  let totalHitTokens := hbmHitTokens + ddrHitTokens
  if hbmHitTokens + ddrHitTokens + missTokens ≠ totalPromptTokens then
    throw .tokenInvariant
  let ttftValues := requestMetrics.map BatchAwareRequestMetrics.ttftMs
  let kvLoadValues := requestMetrics.map BatchAwareRequestMetrics.kvLoadMs
  let totalKvLoadMs := kvLoadValues.sum
  let computeWaitValues := requestMetrics.map BatchAwareRequestMetrics.computeWaitMs
  let kvLoadWaitValues := requestMetrics.map BatchAwareRequestMetrics.kvLoadWaitMs
  let uncachedPrefillComputeValues :=
    requestMetrics.map BatchAwareRequestMetrics.uncachedPrefillComputeMs
  let totalComputeWaitMs := computeWaitValues.sum
  let totalKvLoadWaitMs := kvLoadWaitValues.sum
  let totalUncachedPrefillComputeMs := uncachedPrefillComputeValues.sum
  let totalUnattributedTtftMs :=
    (requestMetrics.map BatchAwareRequestMetrics.unattributedTtftMs).sum
  let resolvedTimelineMode ← resolveMetricString timelineMode
    (requestMetrics.map (fun item ↦ item.timelineMode.value) ++
      iterationMetrics.map fun item ↦ item.timelineMode.value) "timeline_mode"
  let resolvedTtftGranularity ← resolveMetricString ttftGranularity
    (requestMetrics.map (fun item ↦ item.ttftGranularity.value) ++
      iterationMetrics.map fun item ↦ item.ttftGranularity.value) "ttft_granularity"
  return {
    hbmCapacityBlocks := capacity
    scope
    instanceUuid
    requestCount := requestMetrics.length
    iterationCount := iterationMetrics.length
    totalPromptTokens
    hbmHitTokens
    ddrHitTokens
    missTokens
    totalHitTokens
    kvHitRate := sweepRate totalHitTokens totalPromptTokens
    hbmHitRate := sweepRate hbmHitTokens totalPromptTokens
    ddrHitRate := sweepRate ddrHitTokens totalPromptTokens
    p50TtftMs := ← percentile ttftValues 50
    p90TtftMs := ← percentile ttftValues 90
    p99TtftMs := ← percentile ttftValues 99
    cacheEventCount
    totalKvLoadMs
    avgKvLoadMs := sweepRate totalKvLoadMs requestMetrics.length
    p50KvLoadMs := ← percentile kvLoadValues 50
    p90KvLoadMs := ← percentile kvLoadValues 90
    p99KvLoadMs := ← percentile kvLoadValues 99
    timelineMode := resolvedTimelineMode
    ttftGranularity := resolvedTtftGranularity
    totalComputeWaitMs
    avgComputeWaitMs := sweepRate totalComputeWaitMs requestMetrics.length
    p50ComputeWaitMs := ← percentile computeWaitValues 50
    p90ComputeWaitMs := ← percentile computeWaitValues 90
    p99ComputeWaitMs := ← percentile computeWaitValues 99
    totalKvLoadWaitMs
    avgKvLoadWaitMs := sweepRate totalKvLoadWaitMs requestMetrics.length
    p50KvLoadWaitMs := ← percentile kvLoadWaitValues 50
    p90KvLoadWaitMs := ← percentile kvLoadWaitValues 90
    p99KvLoadWaitMs := ← percentile kvLoadWaitValues 99
    totalUncachedPrefillComputeMs
    avgUncachedPrefillComputeMs := sweepRate totalUncachedPrefillComputeMs requestMetrics.length
    p90UncachedPrefillComputeMs := ← percentile uncachedPrefillComputeValues 90
    totalUnattributedTtftMs
    avgUnattributedTtftMs := sweepRate totalUnattributedTtftMs requestMetrics.length
    totalChunkCount := (requestMetrics.map BatchAwareRequestMetrics.chunkCount).sum
    totalLoadEventCount := (requestMetrics.map BatchAwareRequestMetrics.loadEventCount).sum
    totalProgressiveMaterializedBlocks :=
      (requestMetrics.map BatchAwareRequestMetrics.progressiveMaterializedBlocks).sum
    totalProgressiveMaterializedTokens :=
      (requestMetrics.map BatchAwareRequestMetrics.progressiveMaterializedTokens).sum
    totalWaitingForComputeCount :=
      (iterationMetrics.map IterationMetrics.waitingForComputeCount).sum
    totalWaitingForKvLoadCount :=
      (iterationMetrics.map IterationMetrics.waitingForKvLoadCount).sum
    totalScheduledChunkCount := (iterationMetrics.map IterationMetrics.scheduledChunkCount).sum
    maxKvTransferQueueDepth :=
      maxOrZero (iterationMetrics.map IterationMetrics.kvTransferQueueDepthMax) }

def buildCapacityRows (capacity : ℤ) (requestMetrics : List BatchAwareRequestMetrics)
    (iterationMetrics : List IterationMetrics) (cacheEventStats : CacheEventStats)
    (timelineMode ttftGranularity : String) : Except SweepError (List CapacitySweepRow) := do
  let row ← aggregateRow capacity .trace "" requestMetrics iterationMetrics
    cacheEventStats.totalEvents timelineMode ttftGranularity
  let requestsByInstance := groupItems BatchAwareRequestMetrics.instanceUuid requestMetrics
  let iterationsByInstance := groupItems IterationMetrics.instanceUuid iterationMetrics
  let rows ← requestsByInstance.sortedKeys.mapM fun instanceUuid ↦
    aggregateRow capacity .oneInstance instanceUuid
      ((Finmap.lookup instanceUuid requestsByInstance).getD [])
      ((Finmap.lookup instanceUuid iterationsByInstance).getD []) 0 timelineMode ttftGranularity
  return row :: rows

def CapacitySweepRow.sortKey (row : CapacitySweepRow) : ℤ ×ₗ ℕ ×ₗ String :=
  toLex (row.hbmCapacityBlocks,
    toLex (match row.scope with | .trace => 0 | .oneInstance => 1, row.instanceUuid))

def sortCapacityRows (rows : List CapacitySweepRow) : List CapacitySweepRow :=
  rows.insertionSort fun a b ↦ a.sortKey ≤ b.sortKey

end InferTwin
