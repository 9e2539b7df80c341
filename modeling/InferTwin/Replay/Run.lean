import InferTwin.Replay.EventLoop

namespace InferTwin

open Effect

variable {C K : Type}

/-- The engine as it is constructed: it builds a cache for each instance it replays. -/
structure BatchAwareReplayEngine (C K : Type) where
  config : SchedulerConfig
  latencyBackend : BatchLatencyBackend
  cacheFactory : String → PrefixCache C × C
  sink : CacheEventSink K
  materializationPolicy : MaterializationPolicy C
  timelineMode : TimelineMode
  clock : Clock := .exact
  supports_chunks : timelineMode = .progressive →
    materializationPolicy.supportsProgressiveChunks = true

/-- What the instances of one run share: the event sink and the shape memo. -/
structure Shared (K : Type) where
  sink : K
  memo : ShapeMemo

structure BatchAwareReplayResult where
  requestMetrics : List BatchAwareRequestMetrics
  iterationMetrics : List IterationMetrics
  cacheEventStats : CacheEventStats
  cacheEvents : List CacheEvent
  deriving DecidableEq

/-- `grouped.setdefault(instance_uuid, []).append(request)`, on a dictionary that keeps
the order of insertion. -/
def appendToGroup (request : SimulationRequest) :
    List (String × List SimulationRequest) → List (String × List SimulationRequest)
  | [] => [(request.instanceUuid, [request])]
  | (instanceUuid, requests) :: groups =>
    if instanceUuid = request.instanceUuid then (instanceUuid, requests ++ [request]) :: groups
    else (instanceUuid, requests) :: appendToGroup request groups

def groupByInstance (requests : List SimulationRequest) :
    List (String × List SimulationRequest) :=
  (SimulationRequest.sorted requests).foldl (fun groups request ↦ appendToGroup request groups) []

def BatchAwareRequestMetrics.sortKey (metric : BatchAwareRequestMetrics) : ℚ ×ₗ String :=
  toLex (metric.arrivalTimeMs, metric.requestId)

def IterationMetrics.sortKey (metric : IterationMetrics) : ℚ ×ₗ String ×ₗ ℕ :=
  toLex (metric.startTimeMs, toLex (metric.instanceUuid, metric.iterationId))

/-- Run on a fresh cache, with the sink and the memo of the whole run. -/
def onInstance {α : Type} (cache : C) (x : Replay C K α) : EStateM ReplayError (Shared K) α :=
  zoom id (fun shared ↦ { cache, sink := shared.sink, memo := shared.memo })
    (fun world _ ↦ { sink := world.sink, memo := world.memo }) x

namespace BatchAwareReplayEngine

variable (engine : BatchAwareReplayEngine C K)

/-- The engine with the cache of one instance. -/
def forInstance (instanceUuid : String) : Engine C K where
  config := engine.config
  latencyBackend := engine.latencyBackend
  cache := (engine.cacheFactory instanceUuid).1
  sink := engine.sink
  materializationPolicy := engine.materializationPolicy
  timelineMode := engine.timelineMode
  clock := engine.clock
  supports_chunks := engine.supports_chunks

/-- The loop of `run` over the groups. -/
def runGroups (fuel : ℕ) : List (String × List SimulationRequest) →
    EStateM ReplayError (Shared K) InstanceResult
  | [] => pure {}
  | (instanceUuid, requests) :: groups => do
    let result ← onInstance (engine.cacheFactory instanceUuid).2
      ((engine.forInstance instanceUuid).runInstance instanceUuid fuel requests)
    let rest ← runGroups fuel groups
    return {
      requestMetrics := result.requestMetrics ++ rest.requestMetrics
      iterationMetrics := result.iterationMetrics ++ rest.iterationMetrics }

def run (fuel : ℕ) (requests : List SimulationRequest) :
    EStateM ReplayError (Shared K) BatchAwareReplayResult := do
  let result ← engine.runGroups fuel (groupByInstance requests)
  let shared ← get
  return {
    requestMetrics := result.requestMetrics.insertionSort fun a b ↦ a.sortKey ≤ b.sortKey
    iterationMetrics := result.iterationMetrics.insertionSort fun a b ↦ a.sortKey ≤ b.sortKey
    cacheEventStats := engine.sink.snapshotStats shared.sink
    cacheEvents := engine.sink.snapshotEvents shared.sink }

end BatchAwareReplayEngine

end InferTwin
