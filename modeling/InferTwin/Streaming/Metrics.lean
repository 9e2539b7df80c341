import InferTwin.Experiment.Sweep

namespace InferTwin

/-- The running totals of one scope. The source creates a list of values when it first asks
for it; a list that is still absent is the empty one. -/
structure ScopeAccumulator where
  timelineMode : String
  ttftGranularity : String
  requestCount : ℕ := 0
  iterationCount : ℕ := 0
  totalPromptTokens : ℕ := 0
  hbmHitTokens : ℕ := 0
  ddrHitTokens : ℕ := 0
  missTokens : ℕ := 0
  totalKvLoadMs : ℚ := 0
  totalComputeWaitMs : ℚ := 0
  totalKvLoadWaitMs : ℚ := 0
  totalUncachedPrefillComputeMs : ℚ := 0
  totalUnattributedTtftMs : ℚ := 0
  totalChunkCount : ℕ := 0
  totalLoadEventCount : ℕ := 0
  totalProgressiveMaterializedBlocks : ℕ := 0
  totalProgressiveMaterializedTokens : ℕ := 0
  totalWaitingForComputeCount : ℕ := 0
  totalWaitingForKvLoadCount : ℕ := 0
  totalScheduledChunkCount : ℕ := 0
  maxKvTransferQueueDepth : ℕ := 0
  ttftValues : List ℚ := []
  kvLoadValues : List ℚ := []
  computeWaitValues : List ℚ := []
  kvLoadWaitValues : List ℚ := []
  uncachedPrefillComputeValues : List ℚ := []
  deriving DecidableEq, Repr

namespace ScopeAccumulator

/-- `_record_timeline_values`: the values of a metric have to be the configured ones. -/
def checkTimelineValues (accumulator : ScopeAccumulator) (timelineMode : TimelineMode)
    (ttftGranularity : TtftGranularity) : Except SweepError Unit :=
  if timelineMode.value ≠ accumulator.timelineMode then .error (.mixedValues "timeline_mode")
  else if ttftGranularity.value ≠ accumulator.ttftGranularity then
    .error (.mixedValues "ttft_granularity")
  else .ok ()

def onRequest (accumulator : ScopeAccumulator) (metric : BatchAwareRequestMetrics) :
    Except SweepError ScopeAccumulator := do
  accumulator.checkTimelineValues metric.timelineMode metric.ttftGranularity
  return { accumulator with
    requestCount := accumulator.requestCount + 1
    totalPromptTokens := accumulator.totalPromptTokens + metric.promptTokens
    hbmHitTokens := accumulator.hbmHitTokens + metric.hbmHitTokens
    ddrHitTokens := accumulator.ddrHitTokens + metric.ddrHitTokens
    missTokens := accumulator.missTokens + metric.missTokens
    totalKvLoadMs := accumulator.totalKvLoadMs + metric.kvLoadMs
    totalComputeWaitMs := accumulator.totalComputeWaitMs + metric.computeWaitMs
    totalKvLoadWaitMs := accumulator.totalKvLoadWaitMs + metric.kvLoadWaitMs
    totalUncachedPrefillComputeMs :=
      accumulator.totalUncachedPrefillComputeMs + metric.uncachedPrefillComputeMs
    totalUnattributedTtftMs := accumulator.totalUnattributedTtftMs + metric.unattributedTtftMs
    totalChunkCount := accumulator.totalChunkCount + metric.chunkCount
    totalLoadEventCount := accumulator.totalLoadEventCount + metric.loadEventCount
    totalProgressiveMaterializedBlocks :=
      accumulator.totalProgressiveMaterializedBlocks + metric.progressiveMaterializedBlocks
    totalProgressiveMaterializedTokens :=
      accumulator.totalProgressiveMaterializedTokens + metric.progressiveMaterializedTokens
    ttftValues := accumulator.ttftValues ++ [metric.ttftMs]
    kvLoadValues := accumulator.kvLoadValues ++ [metric.kvLoadMs]
    computeWaitValues := accumulator.computeWaitValues ++ [metric.computeWaitMs]
    kvLoadWaitValues := accumulator.kvLoadWaitValues ++ [metric.kvLoadWaitMs]
    uncachedPrefillComputeValues :=
      accumulator.uncachedPrefillComputeValues ++ [metric.uncachedPrefillComputeMs] }

def onIteration (accumulator : ScopeAccumulator) (metric : IterationMetrics) :
    Except SweepError ScopeAccumulator := do
  accumulator.checkTimelineValues metric.timelineMode metric.ttftGranularity
  return { accumulator with
    iterationCount := accumulator.iterationCount + 1
    totalWaitingForComputeCount :=
      accumulator.totalWaitingForComputeCount + metric.waitingForComputeCount
    totalWaitingForKvLoadCount :=
      accumulator.totalWaitingForKvLoadCount + metric.waitingForKvLoadCount
    totalScheduledChunkCount := accumulator.totalScheduledChunkCount + metric.scheduledChunkCount
    maxKvTransferQueueDepth :=
      max accumulator.maxKvTransferQueueDepth metric.kvTransferQueueDepthMax }

def toRow (accumulator : ScopeAccumulator) (capacity : ℤ) (scope : RowScope)
    (instanceUuid : String) (cacheEventCount : ℕ) : Except SweepError CapacitySweepRow := do
  let totalHitTokens := accumulator.hbmHitTokens + accumulator.ddrHitTokens
  if totalHitTokens + accumulator.missTokens ≠ accumulator.totalPromptTokens then
    throw .tokenInvariant
  return {
    hbmCapacityBlocks := capacity
    scope
    instanceUuid
    requestCount := accumulator.requestCount
    iterationCount := accumulator.iterationCount
    totalPromptTokens := accumulator.totalPromptTokens
    hbmHitTokens := accumulator.hbmHitTokens
    ddrHitTokens := accumulator.ddrHitTokens
    missTokens := accumulator.missTokens
    totalHitTokens
    kvHitRate := sweepRate totalHitTokens accumulator.totalPromptTokens
    hbmHitRate := sweepRate accumulator.hbmHitTokens accumulator.totalPromptTokens
    ddrHitRate := sweepRate accumulator.ddrHitTokens accumulator.totalPromptTokens
    p50TtftMs := ← percentile accumulator.ttftValues 50
    p90TtftMs := ← percentile accumulator.ttftValues 90
    p99TtftMs := ← percentile accumulator.ttftValues 99
    cacheEventCount
    totalKvLoadMs := accumulator.totalKvLoadMs
    avgKvLoadMs := sweepRate accumulator.totalKvLoadMs accumulator.requestCount
    p50KvLoadMs := ← percentile accumulator.kvLoadValues 50
    p90KvLoadMs := ← percentile accumulator.kvLoadValues 90
    p99KvLoadMs := ← percentile accumulator.kvLoadValues 99
    timelineMode := accumulator.timelineMode
    ttftGranularity := accumulator.ttftGranularity
    totalComputeWaitMs := accumulator.totalComputeWaitMs
    avgComputeWaitMs := sweepRate accumulator.totalComputeWaitMs accumulator.requestCount
    p50ComputeWaitMs := ← percentile accumulator.computeWaitValues 50
    p90ComputeWaitMs := ← percentile accumulator.computeWaitValues 90
    p99ComputeWaitMs := ← percentile accumulator.computeWaitValues 99
    totalKvLoadWaitMs := accumulator.totalKvLoadWaitMs
    avgKvLoadWaitMs := sweepRate accumulator.totalKvLoadWaitMs accumulator.requestCount
    p50KvLoadWaitMs := ← percentile accumulator.kvLoadWaitValues 50
    p90KvLoadWaitMs := ← percentile accumulator.kvLoadWaitValues 90
    p99KvLoadWaitMs := ← percentile accumulator.kvLoadWaitValues 99
    totalUncachedPrefillComputeMs := accumulator.totalUncachedPrefillComputeMs
    avgUncachedPrefillComputeMs :=
      sweepRate accumulator.totalUncachedPrefillComputeMs accumulator.requestCount
    p90UncachedPrefillComputeMs := ← percentile accumulator.uncachedPrefillComputeValues 90
    totalUnattributedTtftMs := accumulator.totalUnattributedTtftMs
    avgUnattributedTtftMs := sweepRate accumulator.totalUnattributedTtftMs accumulator.requestCount
    totalChunkCount := accumulator.totalChunkCount
    totalLoadEventCount := accumulator.totalLoadEventCount
    totalProgressiveMaterializedBlocks := accumulator.totalProgressiveMaterializedBlocks
    totalProgressiveMaterializedTokens := accumulator.totalProgressiveMaterializedTokens
    totalWaitingForComputeCount := accumulator.totalWaitingForComputeCount
    totalWaitingForKvLoadCount := accumulator.totalWaitingForKvLoadCount
    totalScheduledChunkCount := accumulator.totalScheduledChunkCount
    maxKvTransferQueueDepth := accumulator.maxKvTransferQueueDepth }

end ScopeAccumulator

/-- Aggregates the metrics of a streaming replay into capacity sweep rows. -/
structure CapacitySweepStreamingMetricAggregator where
  trace : ScopeAccumulator
  instances : Dict String ScopeAccumulator
  timelineMode : String
  ttftGranularity : String

/-- A metric as the streaming replay hands it to its sink. -/
inductive MetricCall
  | onRequest (metric : BatchAwareRequestMetrics)
  | onIteration (metric : IterationMetrics)

def BatchAwareRequestMetrics.validate (metric : BatchAwareRequestMetrics) :
    Except SweepError Unit :=
  if metric.hbmHitTokens + metric.ddrHitTokens + metric.missTokens ≠ metric.promptTokens then
    .error (.requestTokenInvariant metric.requestId)
  else .ok ()

namespace CapacitySweepStreamingMetricAggregator

def create (timelineMode ttftGranularity : String) : CapacitySweepStreamingMetricAggregator where
  trace := { timelineMode, ttftGranularity }
  instances := ∅
  timelineMode
  ttftGranularity

/-- `_instance`: the accumulator of an instance, a fresh one at its first metric. -/
def instanceAccumulator (aggregator : CapacitySweepStreamingMetricAggregator)
    (instanceUuid : String) : Except SweepError ScopeAccumulator :=
  if instanceUuid = "" then .error .emptyInstanceUuid
  else .ok ((aggregator.instances.lookup instanceUuid).getD
    { timelineMode := aggregator.timelineMode, ttftGranularity := aggregator.ttftGranularity })

def onRequest (aggregator : CapacitySweepStreamingMetricAggregator)
    (metric : BatchAwareRequestMetrics) :
    Except SweepError CapacitySweepStreamingMetricAggregator := do
  metric.validate
  let trace ← aggregator.trace.onRequest metric
  let accumulator ← aggregator.instanceAccumulator metric.instanceUuid
  let accumulator ← accumulator.onRequest metric
  return { aggregator with
    trace, instances := aggregator.instances.insert metric.instanceUuid accumulator }

def onIteration (aggregator : CapacitySweepStreamingMetricAggregator)
    (metric : IterationMetrics) : Except SweepError CapacitySweepStreamingMetricAggregator := do
  let trace ← aggregator.trace.onIteration metric
  let accumulator ← aggregator.instanceAccumulator metric.instanceUuid
  let accumulator ← accumulator.onIteration metric
  return { aggregator with
    trace, instances := aggregator.instances.insert metric.instanceUuid accumulator }

/-- Hand over one metric after the other. -/
def record (aggregator : CapacitySweepStreamingMetricAggregator) :
    List MetricCall → Except SweepError CapacitySweepStreamingMetricAggregator
  | [] => .ok aggregator
  | .onRequest metric :: calls => do
    let aggregator ← aggregator.onRequest metric
    record aggregator calls
  | .onIteration metric :: calls => do
    let aggregator ← aggregator.onIteration metric
    record aggregator calls

/-- `sorted(self._instances.items())`, those without a finished request left out. -/
def reportedInstances (aggregator : CapacitySweepStreamingMetricAggregator) :
    List (String × ScopeAccumulator) :=
  (aggregator.instances.sortedKeys.filterMap fun instanceUuid ↦
    (aggregator.instances.lookup instanceUuid).map fun accumulator ↦ (instanceUuid, accumulator))
    |>.filter fun item ↦ item.2.requestCount > 0

def buildRows (aggregator : CapacitySweepStreamingMetricAggregator) (capacity : ℤ)
    (cacheEventStats : CacheEventStats) : Except SweepError (List CapacitySweepRow) := do
  let row ← aggregator.trace.toRow capacity .trace "" cacheEventStats.totalEvents
  let rows ← aggregator.reportedInstances.mapM fun item ↦
    item.2.toRow capacity .oneInstance item.1 0
  return sortCapacityRows (row :: rows)

end CapacitySweepStreamingMetricAggregator

end InferTwin
