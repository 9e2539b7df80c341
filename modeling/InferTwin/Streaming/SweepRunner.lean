import InferTwin.Experiment.SweepRunner
import InferTwin.Latency.InstanceResolver
import InferTwin.Streaming.JsonlSource
import InferTwin.Streaming.Metrics
import InferTwin.Streaming.Replay

namespace InferTwin

open Effect

/-- What a streaming sweep is constructed with, once its config is read. -/
structure StreamingCapacitySweepRunner where
  sweepConfig : CapacitySweepConfig
  builder : StreamingRequestShardBuilder
  cacheMode : CacheMode
  schedulerConfig : SchedulerConfig
  latencyResolver : InstanceLatencyBackendResolver
  runtimeResolver : Option InstanceRuntimeResolver

/-- The objects of a streaming sweep that its shards share. -/
structure SweepState (K : Type) where
  resolved : ResolvedBackends
  sink : K
  aggregator : CapacitySweepStreamingMetricAggregator

/-- The metrics of a shard as its replay hands them over. -/
def StreamResult.calls (result : StreamResult) : List MetricCall :=
  result.requestMetrics.map .onRequest ++ result.iterationMetrics.map .onIteration

namespace StreamingCapacitySweepRunner

section Creating

variable (loadYaml : String → Except ConfigError Json) (config : List (String × Json))

/-- `capacity_sweep_output_dir`. -/
def outputDir : Except ConfigError String := do
  let outputConfig ← Sweep.optionalMapping config "output"
  match Config.getOr outputConfig "directory" (.str "reports") with
  | .str directory =>
    if directory = "" then throw (.profile (.nonEmptyString "output.directory"))
    else return directory
  | _ => throw (.profile (.nonEmptyString "output.directory"))

/-- `_path_option`. -/
def pathOption (streamingConfig : List (String × Json)) (key default : String) :
    Except ConfigError String :=
  match Config.getOr streamingConfig key (.str default) with
  | .str path => if path = "" then .error (.pathRequired ("streaming." ++ key)) else .ok path
  | _ => .error (.pathRequired ("streaming." ++ key))

/-- Validate streaming capacity sweep options. -/
def buildStreamingConfig (tracePath : String) : Except ConfigError StreamingRequestShardBuilder := do
  let outputDir ← outputDir config
  let streamingConfig ← Sweep.optionalMapping config "streaming"
  let requireSortedTrace ← Config.booleanOf
    (Config.getOr streamingConfig "require_sorted_trace" (.bool true))
    "streaming.require_sorted_trace"
  Config.refuseIf (¬requireSortedTrace) .unsortedTraceUnsupported
  let shardRoot ← pathOption streamingConfig "shard_root" (outputDir ++ "/streaming_shards")
  let rejectedPath ←
    pathOption streamingConfig "rejected_path" (outputDir ++ "/rejected_requests.csv")
  return { tracePath, shardRoot, rejectedPath := some rejectedPath, requireSortedTrace }

/-- `_build_optional_instance_runtime_resolver`. -/
def buildOptionalInstanceRuntimeResolver : Except ConfigError (Option InstanceRuntimeResolver) :=
  if (Json.get config "model_registry").isNone then .ok none
  else if (Json.get config "instance_runtime").isNone ∧
      (Json.get config "instance_latency").isNone then .ok none
  else do
    let resolver ← buildInstanceRuntimeResolver loadYaml config
    return some resolver

def create (tracePath : String) : Except ConfigError StreamingCapacitySweepRunner := do
  let sweepConfig ← buildCapacitySweepConfig config ["capacity_sweep_streaming"]
  let builder ← buildStreamingConfig config tracePath
  let cacheMode ← buildStreamingCacheFactoryConfig config
  let latencyResolver ← buildInstanceLatencyBackendResolver loadYaml config
  let runtimeResolver ← buildOptionalInstanceRuntimeResolver loadYaml config
  let schedulerConfig ← buildSchedulerConfigFromConfig config
  return { sweepConfig, builder, cacheMode, schedulerConfig, latencyResolver, runtimeResolver }

end Creating

variable (runner : StreamingCapacitySweepRunner) (text : JsonText) (clock : Clock)
  (turns fuel : ℕ) {K : Type}

/-- The scheduler of an instance: that of its runtime profile, where there are such. -/
def schedulerFor (instanceUuid : String) : Except ConfigError SchedulerConfig :=
  match runner.runtimeResolver with
  | none => .ok runner.schedulerConfig
  | some resolver => do
    let profile ← resolver.runtimeProfileFor instanceUuid
    return profile.deploymentProfile.scheduler.toConfig

/-- `_default_cache_for_instance`. -/
def defaultCacheFor (instanceUuid : String) : Except ConfigError (Option ModelCacheDefaults) :=
  match runner.runtimeResolver with
  | none => .ok none
  | some resolver => do
    let cache ← resolver.defaultCacheFor instanceUuid
    return some cache

/-- Ask the latency resolver, which remembers its answers. -/
def latencyBackendFor (instanceUuid : String) :
    EStateM SweepFailure (SweepState K) BatchLatencyBackend :=
  zoom .config SweepState.resolved (fun resolved state ↦ { state with resolved })
    (runner.latencyResolver.backendFor instanceUuid)

/-- Replay a shard on a fresh cache and a fresh memo, with the event sink of the capacity. -/
def replayShard {C : Type} (engine : Engine C K) (start : C) (shard : RequestShard)
    (content : List Char) : EStateM SweepFailure (SweepState K) StreamResult :=
  zoom .replay (fun state ↦ { cache := start, sink := state.sink, memo := ∅ })
    (fun world state ↦ { state with sink := world.sink })
    (engine.runInstanceStream (JsonlRequestSource text shard.path true) shard.instanceUuid turns
      fuel { rest := content })

/-- Hand the metrics of a shard to the aggregator of the capacity. -/
def aggregate (result : StreamResult) : EStateM SweepFailure (SweepState K) Unit := do
  let state ← get
  let aggregator ← check ((state.aggregator.record result.calls).mapError .rows)
  set { state with aggregator }

/-- The checks after the replay of a shard. -/
def checkStats (shard : RequestShard) (stats : StreamingReplayStats) :
    Except SweepFailure Unit :=
  if stats.emittedRequestCount ≠ shard.requestCount then
    .error (.emittedMismatch shard.instanceUuid stats.emittedRequestCount shard.requestCount)
  else if stats.finalActiveRequests ≠ 0 then
    .error (.activeLeft shard.instanceUuid stats.finalActiveRequests)
  else .ok ()

/-- The body of the loop of `_run_capacity` over the shards. -/
def runShard (disk : Disk) (sink : CacheEventSink K) (capacity : ℕ+) (shard : RequestShard) :
    EStateM SweepFailure (SweepState K) Unit := do
  let config ← check ((runner.schedulerFor shard.instanceUuid).mapError .config)
  let backend ← runner.latencyBackendFor shard.instanceUuid
  let cacheDefaults ← check ((runner.defaultCacheFor shard.instanceUuid).mapError .config)
  match disk.lookup shard.path with
  | none => throw (.missingShard shard.path)
  | some content =>
    match buildStreamingPrefixCache capacity shard.instanceUuid cacheDefaults
      runner.cacheMode with
    | .error error => throw (.config error)
    | .ok built =>
      let result ← replayShard text turns fuel (sweepEngine config backend built.cache sink
        runner.cacheMode.timelineMode clock) built.start shard content
      aggregate result
      check (checkStats shard result.stats)

/-- The loop of `_run_capacity`. -/
def runShards (disk : Disk) (sink : CacheEventSink K) (capacity : ℕ+) :
    List RequestShard → EStateM SweepFailure (SweepState K) Unit
  | [] => pure ()
  | shard :: shards => do
    runner.runShard text clock turns fuel disk sink capacity shard
    runShards disk sink capacity shards

/-- `_run_capacity`: the rows of a capacity, with what the consumer of its events is left
with. The resolver is that of the whole sweep. -/
def runCapacity (disk : Disk) (sink : CacheEventSink K) (start : K) (capacity : ℕ+)
    (shards : List RequestShard) :
    EStateM SweepFailure ResolvedBackends (List CapacitySweepRow × K) := fun resolved ↦
  let timelineMode := runner.cacheMode.timelineMode
  let aggregator := CapacitySweepStreamingMetricAggregator.create timelineMode.value
    timelineMode.ttftGranularity.value
  match runner.runShards text clock turns fuel disk sink capacity shards
    { resolved, sink := start, aggregator } with
  | .error error state => .error error state.resolved
  | .ok () state =>
    match state.aggregator.buildRows (capacity : ℕ) (sink.snapshotStats state.sink) with
    | .error error => .error (.rows error) state.resolved
    | .ok rows => .ok (rows, state.sink) state.resolved

/-- The loop of `run` over the capacities. -/
def runCapacities (disk : Disk) (shards : List RequestShard) : List ℕ+ →
    EStateM SweepFailure ResolvedBackends
      (List CapacitySweepRow × List (ℕ+ × List CacheEvent))
  | [] => pure ([], [])
  | capacity :: capacities =>
    if capacity ∈ runner.sweepConfig.cacheEventCapacities then do
      let (rows, written) ← runner.runCapacity text clock turns fuel disk CsvCacheEventWriter
        ([], {}) capacity shards
      let (rest, files) ← runCapacities disk shards capacities
      return (rows ++ rest, (capacity, written.1) :: files)
    else do
      let (rows, _) ← runner.runCapacity text clock turns fuel disk StatsOnlyCacheEventSink {}
        capacity shards
      let (rest, files) ← runCapacities disk shards capacities
      return (rows ++ rest, files)

/-- `run`, on a disk that may hold files already. -/
def run (sha256 : List UInt8 → List UInt8)
    (buildRequest : TraceRecord → Except PromptTooLongError SimulationRequest)
    (records : List TraceRecord) (disk : Disk) :
    EStateM SweepFailure ResolvedBackends CapacitySweepResult := do
  let (buildResult, disk) ←
    check ((runner.builder.build sha256 text buildRequest records disk).mapError .build)
  let (rows, cacheEventFiles) ← runner.runCapacities text clock turns fuel disk
    buildResult.manifest.shards runner.sweepConfig.capacities
  return {
    rows := sortCapacityRows rows
    acceptedCount := buildResult.manifest.acceptedCount
    rejectedCount := buildResult.manifest.rejectedCount
    cacheEventFiles }

end StreamingCapacitySweepRunner

end InferTwin
