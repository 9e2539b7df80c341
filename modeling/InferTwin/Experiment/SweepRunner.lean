import InferTwin.Experiment.Sweep
import InferTwin.Experiment.SweepConfig
import InferTwin.Latency.Factory
import InferTwin.Replay.Run
import InferTwin.Report.CacheEvents
import InferTwin.Streaming.Build
import InferTwin.Streaming.CacheFactory

namespace InferTwin

/-- The exceptions of a capacity sweep. -/
inductive SweepFailure
  | config (error : ConfigError)
  | build (error : BuildError)
  | replay (error : ReplayError)
  | rows (error : SweepError)
  | incomparableTimes
  | missingShard (path : String)
  | emittedMismatch (instanceUuid : String) (emitted requestCount : ℕ)
  | activeLeft (instanceUuid : String) (active : ℕ)

def SweepFailure.message : SweepFailure → String
  | config error => error.message
  | build error => error.message
  | replay error => error.message
  | rows error => error.message
  | incomparableTimes => "can't compare offset-naive and offset-aware datetimes"
  | missingShard path => "[Errno 2] No such file or directory: " ++ reprText path
  | emittedMismatch instanceUuid emitted requestCount =>
    "streaming replay emitted request count mismatch for " ++ reprText instanceUuid ++
      ": emitted=" ++ toString emitted ++ ", shard=" ++ toString requestCount
  | activeLeft instanceUuid active =>
    "streaming replay finished with active requests for " ++ reprText instanceUuid ++ ": " ++
      toString active

/-- The requests of a trace in the order of the experiment, and the rows it rejects. -/
structure RequestBuildResult where
  requests : List SimulationRequest
  rejectedRecords : List RejectedTraceRecord

namespace RequestBuildResult

def acceptedCount (result : RequestBuildResult) : ℕ := result.requests.length

def rejectedCount (result : RequestBuildResult) : ℕ := result.rejectedRecords.length

end RequestBuildResult

/-- Start times that `sorted` can compare: all naive or all aware. -/
def TimesComparable (requests : List SimulationRequest) : Prop :=
  ∀ a ∈ requests, ∀ b ∈ requests, a.serviceStartTime.aware = b.serviceStartTime.aware

instance (requests : List SimulationRequest) : Decidable (TimesComparable requests) :=
  inferInstanceAs (Decidable (∀ a ∈ requests, ∀ b ∈ requests, _ = _))

/-- `(service_start_time, instance_uuid, request_id)`, for times of one kind. -/
def SimulationRequest.buildKey (request : SimulationRequest) : ℤ ×ₗ String ×ₗ String :=
  toLex (request.serviceStartTime.microseconds, toLex (request.instanceUuid, request.requestId))

section Building

variable (buildRequest : TraceRecord → Except PromptTooLongError SimulationRequest)

/-- The loop of `_build_requests_from_records`. -/
def buildRequestLoop : List TraceRecord → RequestBuildResult
  | [] => { requests := [], rejectedRecords := [] }
  | record :: records =>
    let rest := buildRequestLoop records
    match buildRequest record with
    | .ok request => { rest with requests := request :: rest.requests }
    | .error error => { rest with
        rejectedRecords := buildPromptTooLongRejection record error :: rest.rejectedRecords }

/-- The result with its requests sorted. -/
def RequestBuildResult.inOrder (built : RequestBuildResult) : RequestBuildResult :=
  { built with requests := built.requests.insertionSort fun a b ↦ a.buildKey ≤ b.buildKey }

/-- A comparison sort of naive and aware times compares one of each, and raises. -/
def buildRequestsFromRecords (records : List TraceRecord) :
    Except SweepFailure RequestBuildResult :=
  let built := buildRequestLoop buildRequest records
  if TimesComparable built.requests then .ok built.inOrder else .error .incomparableTimes

end Building

/-- The rows of a sweep, and the files of cache events it leaves. -/
structure CapacitySweepResult where
  rows : List CapacitySweepRow
  acceptedCount : ℕ
  rejectedCount : ℕ
  cacheEventFiles : List (ℕ+ × List CacheEvent)

/-- The engine for one instance of a sweep. -/
def sweepEngine {C K : Type} (config : SchedulerConfig) (latencyBackend : BatchLatencyBackend)
    (cache : PrefixCache C) (sink : CacheEventSink K) (timelineMode : TimelineMode)
    (clock : Clock) : Engine C K where
  config
  latencyBackend
  cache
  sink
  materializationPolicy := defaultMaterializationPolicy timelineMode
  timelineMode
  clock
  supports_chunks := by
    rintro rfl
    rfl

/-- Run finite HBM LRU replay for each configured capacity. -/
structure CapacitySweepRunner where
  config : List (String × Json)
  sweepConfig : CapacitySweepConfig

namespace CapacitySweepRunner

def create (config : List (String × Json)) : Except ConfigError CapacitySweepRunner := do
  let sweepConfig ← buildCapacitySweepConfig config ["capacity_sweep"]
  return { config, sweepConfig }

variable (runner : CapacitySweepRunner) (clock : Clock) (fuel : ℕ) {K : Type}

/-- The engine of `_run_capacity`. -/
def engineFor (sink : CacheEventSink K) (capacity : ℕ+) :
    Except ConfigError (BatchAwareReplayEngine TierState K) := do
  let latencyBackend ← buildBatchLatencyBackend runner.config
  let config ← buildSchedulerConfigFromConfig runner.config
  return {
    config
    latencyBackend
    cacheFactory := fun _ ↦ (HBMCache capacity capacity.pos, {})
    sink
    materializationPolicy := defaultMaterializationPolicy .legacy
    timelineMode := .legacy
    clock
    supports_chunks := nofun }

/-- `_run_capacity` and the rows of its result, with what the consumer of its events is left
with. -/
def runCapacity (sink : CacheEventSink K) (start : K) (capacity : ℕ+)
    (requests : List SimulationRequest) : Except SweepFailure (List CapacitySweepRow × K) := do
  let engine ← (runner.engineFor clock sink capacity).mapError .config
  match engine.run fuel requests { sink := start, memo := ∅ } with
  | .error error _ => throw (.replay error)
  | .ok result shared =>
    let rows ← (buildCapacityRows (capacity : ℕ) result.requestMetrics result.iterationMetrics
      result.cacheEventStats TimelineMode.legacy.value TtftGranularity.iteration.value).mapError
        .rows
    return (rows, shared.sink)

/-- The loop of `run` over the capacities: their rows, and the files of cache events. -/
def runCapacities (requests : List SimulationRequest) : List ℕ+ →
    Except SweepFailure (List CapacitySweepRow × List (ℕ+ × List CacheEvent))
  | [] => .ok ([], [])
  | capacity :: capacities =>
    if capacity ∈ runner.sweepConfig.cacheEventCapacities then do
      let (rows, written) ←
        runner.runCapacity clock fuel CsvCacheEventWriter ([], {}) capacity requests
      let (rest, files) ← runCapacities requests capacities
      return (rows ++ rest, (capacity, written.1) :: files)
    else do
      let (rows, _) ←
        runner.runCapacity clock fuel StatsOnlyCacheEventSink {} capacity requests
      let (rest, files) ← runCapacities requests capacities
      return (rows ++ rest, files)

def run (buildRequest : TraceRecord → Except PromptTooLongError SimulationRequest)
    (records : List TraceRecord) : Except SweepFailure CapacitySweepResult := do
  let buildResult ← buildRequestsFromRecords buildRequest records
  let (rows, cacheEventFiles) ←
    runner.runCapacities clock fuel buildResult.requests runner.sweepConfig.capacities
  return {
    rows := sortCapacityRows rows
    acceptedCount := buildResult.acceptedCount
    rejectedCount := buildResult.rejectedCount
    cacheEventFiles }

end CapacitySweepRunner

end InferTwin
