import InferTwin.Config.ModelRuntime
import InferTwin.Foundation.Recall
import InferTwin.Request.BuildContext

namespace InferTwin

open Effect

/-- Resolved request-build inputs for one trace record. -/
structure StreamingRequestBuildInputs where
  blockSizeTokens : ℕ
  buildContext : RequestBuildContext
  tokenizerProfile : Option String

/-- The contexts that a resolver has made, by the name of their model. -/
abbrev ContextByModel := Dict String RequestBuildContext

/-- Resolve request-build context from optional instance runtime profiles. -/
structure StreamingRequestBuildResolver where
  settings : RequestBuildSettings
  runtimeResolver : Option InstanceRuntimeResolver
  outputDir : String

/-- The exceptions of a streaming build: those of its rows, and those of its shards. -/
inductive StreamingBuildError
  | request (error : RequestBuildError)
  | build (error : BuildError)

namespace StreamingRequestBuildResolver

variable (resolver : StreamingRequestBuildResolver)

/-- The context of a model that is met for the first time. -/
def makeContext (runtimeProfile : ResolvedModelRuntimeProfile) :
    Except RequestBuildError RequestBuildContext := do
  let runSpec : RunSpec := {
    tracePath := resolver.settings.tracePath
    outputDir := resolver.outputDir
    mode := "capacity_sweep_streaming"
    modelName := runtimeProfile.modelName
    requestedBlockSize := runtimeProfile.defaultCache.blockSizeTokens
    modelProfile := some runtimeProfile.modelProfilePath
    deploymentProfile := some runtimeProfile.deploymentProfilePath }
  (raiseIfBlocked (guardCoreProfiles runSpec runtimeProfile.modelProfile
    runtimeProfile.deploymentProfile true)).mapError .config
  RequestBuildContext.fromProfiles runSpec runtimeProfile.modelProfile
    runtimeProfile.deploymentProfile resolver.settings.buildContext.maxPromptTokens

/-- `_context_for`. -/
def contextFor (runtimeProfile : ResolvedModelRuntimeProfile) :
    EStateM RequestBuildError ContextByModel RequestBuildContext :=
  remember runtimeProfile.modelName (resolver.makeContext runtimeProfile)

def inputsFor (record : TraceRecord) :
    EStateM RequestBuildError ContextByModel StreamingRequestBuildInputs :=
  match resolver.runtimeResolver with
  | none => return {
      blockSizeTokens := resolver.settings.blockSizeTokens
      buildContext := resolver.settings.buildContext
      tokenizerProfile := none }
  | some runtimeResolver => do
    let runtimeProfile ← check
      ((runtimeResolver.runtimeProfileFor record.instanceUuid).mapError .config)
    let buildContext ← resolver.contextFor runtimeProfile
    return {
      blockSizeTokens := runtimeProfile.defaultCache.blockSizeTokens
      buildContext
      tokenizerProfile := some runtimeProfile.tokenizerProfile }

variable (sha256 : List UInt8 → List UInt8) (services : TokenizerServices) (text : JsonText)
  (builder : StreamingRequestShardBuilder)

/-- The request of a row, as the loop of `build` asks for it. -/
def requestFor (record : TraceRecord) :
    EStateM RequestBuildError ContextByModel SimulationRequest := do
  let inputs ← resolver.inputsFor record
  check (buildSimulationRequest sha256 services record resolver.settings.tokenizerRegistry
    inputs.blockSizeTokens resolver.settings.cacheScope (some inputs.buildContext)
    inputs.tokenizerProfile)

/-- `except PromptTooLongError`: the only exception that does not end the loop. -/
def rejectTooLong : Except RequestBuildError SimulationRequest →
    Except StreamingBuildError (Except PromptTooLongError SimulationRequest)
  | .ok request => .ok (.ok request)
  | .error (.promptTooLong error) => .ok (.error error)
  | .error error => .error (.request error)

/-- The exceptions of a row, caught or not. -/
def attemptRow (request : EStateM RequestBuildError ContextByModel SimulationRequest) :
    EStateM StreamingBuildError ContextByModel (Except PromptTooLongError SimulationRequest) :=
  fun table ↦
    match rejectTooLong (outcome (request table)) with
    | .ok result => .ok result (after (request table))
    | .error error => .error error (after (request table))

/-- The body of the loop of `build`. -/
def buildRow (record : TraceRecord) (lineNumber : ℕ) (state : BuildState) :
    EStateM StreamingBuildError ContextByModel BuildState := do
  -- a row that is out of order is reported before its request is built
  if builder.requireSortedTrace then
    check ((guardSortedTrace state.previousKey record.sortKey lineNumber).mapError .build)
  let result ← attemptRow (resolver.requestFor sha256 services record)
  check ((builder.buildRecord sha256 text (fun _ ↦ result) record lineNumber state).mapError .build)

/-- The loop of `build`. -/
def buildRows : List TraceRecord → ℕ → BuildState →
    EStateM StreamingBuildError ContextByModel BuildState
  | [], _, state => return state
  | record :: records, lineNumber, state => do
    let state ← resolver.buildRow sha256 services text builder record lineNumber state
    buildRows records (lineNumber + 1) state

/-- What comes after the loop. -/
def finishBuild (state : BuildState) : Except BuildError (StreamingBuildResult × Disk) := do
  let manifest ← StreamingBuildManifest.validate {
    tracePath := builder.tracePath
    shardRoot := builder.shardRoot
    shards := ← state.shardStore.buildShards
    acceptedCount := state.acceptedCount
    rejectedCount := state.rejectedCount
    requireSortedTrace := builder.requireSortedTrace }
  return ({
    manifest
    rejectedPath := if state.rejectedCount > 0 then builder.rejectedPath else none },
    state.shardStore.disk)

/-- `StreamingRequestShardBuilder.build`, with the requests that the resolver makes. -/
def build (records : List TraceRecord) (disk : Disk) :
    EStateM StreamingBuildError ContextByModel (StreamingBuildResult × Disk) := do
  let state ← resolver.buildRows sha256 services text builder records 2
    { shardStore := { shardRoot := builder.shardRoot, disk } }
  check ((finishBuild builder state).mapError .build)

end StreamingRequestBuildResolver

end InferTwin
