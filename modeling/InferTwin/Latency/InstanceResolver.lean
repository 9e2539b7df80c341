import InferTwin.Config.ModelRuntime
import InferTwin.Latency.Factory

namespace InferTwin

open Config Effect

inductive LatencySource
  | global | instanceProfile | modelDefault
  deriving DecidableEq, Repr

def LatencySource.value : LatencySource → String
  | global => "global"
  | instanceProfile => "instance_profile"
  | modelDefault => "model_default"

/-- Explain where an instance latency backend came from. -/
structure LatencyResolutionMetadata where
  source : LatencySource
  calibrationStatus : String
  modelName : String
  deriving DecidableEq

/-- What a resolver is constructed with. -/
structure InstanceLatencyBackendResolver where
  globalBackend : BatchLatencyBackend
  instanceProfile : Option InstanceProfile := none
  modelRegistry : Option ModelRegistry := none
  requireAllTraceInstances : Bool := true
  profilePath : Option String := none
  modelRegistryPath : Option String := none

/-- The two dictionaries that a resolver fills. -/
structure ResolvedBackends where
  backendByInstance : Dict String BatchLatencyBackend := ∅
  metadataByInstance : Dict String LatencyResolutionMetadata := ∅

/-- `_build_instance_latency_backend`. -/
def buildInstanceLatencyBackend (profile : InstanceLatencyProfile) :
    Except ConfigError BatchLatencyBackend :=
  if profile.backend ≠ "fitted_ttft" then
    .error (.unsupported "instance latency backend" profile.backend)
  else do
    let fitted := profile.fittedTtft
    let ttftBackend ← FittedTTFTLatencyBackend.build fitted.profile fitted.function
      fitted.interceptMs fitted.msPerUncachedToken fitted.calibratedFrom profile.modelName
      profile.hardwareName
    let kvLoadComponent ← (buildKvLoadComponent profile.kvLoad).mapError .kvLoad
    let backend ← ServingLatencyProfile.build profile.name ttftBackend.toBackend kvLoadComponent
      fitted.calibratedFrom fitted.calibrationWindowRequests
    return backend.toBackend

namespace InstanceLatencyBackendResolver

variable (resolver : InstanceLatencyBackendResolver)

/-- `_latency_profile_for_instance`: the instance's own profile, or its model's default. -/
def latencyProfileForInstance (instanceProfile : InstanceProfile) (instanceUuid : String) :
    Except ConfigError (InstanceLatencyProfile × LatencySource) :=
  match instanceProfile.latencyProfileByInstance.lookup instanceUuid with
  | some profile => .ok (profile, .instanceProfile)
  | none =>
    match instanceProfile.instanceByUuid.lookup instanceUuid with
    | none => .error (.instanceMissing "latency" instanceUuid)
    | some item =>
      match resolver.modelRegistry, item.modelName with
      | some modelRegistry, some modelName => do
        let entry ← modelRegistry.entryFor modelName
        return (entry.defaultLatency, .modelDefault)
      | _, _ =>
        if resolver.requireAllTraceInstances then
          .error (.instanceMissing "latency" instanceUuid)
        else .error (.fallbackReserved instanceUuid)

/-- Resolve an instance that is asked for the first time. -/
def resolveInstance (instanceProfile : InstanceProfile) (instanceUuid : String) :
    Except ConfigError (BatchLatencyBackend × LatencyResolutionMetadata) := do
  let (profile, source) ← resolver.latencyProfileForInstance instanceProfile instanceUuid
  let backend ← buildInstanceLatencyBackend profile
  return (backend, {
    source
    calibrationStatus := if source = .instanceProfile then "configured" else "model_default"
    modelName := profile.modelName })

/-- The backend configured for one instance. -/
def backendFor (instanceUuid : String) :
    EStateM ConfigError ResolvedBackends BatchLatencyBackend := do
  if instanceUuid = "" then throw .emptyInstanceUuid
  else
    match resolver.instanceProfile with
    | none => return resolver.globalBackend
    | some instanceProfile =>
      let resolved ← get
      match resolved.backendByInstance.lookup instanceUuid with
      | some backend => return backend
      | none =>
        let (backend, metadata) ← check (resolver.resolveInstance instanceProfile instanceUuid)
        set {
          backendByInstance := Finmap.insert instanceUuid backend resolved.backendByInstance
          metadataByInstance :=
            Finmap.insert instanceUuid metadata resolved.metadataByInstance : ResolvedBackends }
        return backend

end InstanceLatencyBackendResolver

section Building

variable (loadYaml : String → Except ConfigError Json) (config : List (String × Json))

/-- The path that an optional section must have once it is there. -/
def sectionProfilePath (sectionName : String) : Except ConfigError (Option String) :=
  match getOrNull config sectionName with
  | .null => .ok none
  | .object fields => do
    match ← optionalStr (getOrNull fields "profile_path") (sectionName ++ ".profile_path") with
    | some path => return some (pathText path)
    | none => throw (.requiredFor (sectionName ++ ".profile_path") "")
  | _ => .error (.mappingRequired (sectionName ++ " config"))

/-- Configuration for optional per-instance latency backend resolution. -/
structure InstanceLatencyConfig where
  profilePath : Option String
  requireAllTraceInstances : Bool := true

def buildInstanceLatencyConfig : Except ConfigError InstanceLatencyConfig := do
  match ← sectionProfilePath config "instance_latency" with
  | none => return { profilePath := none }
  | some profilePath =>
    let fields ← mappingOf (getOrNull config "instance_latency") "instance_latency config"
    let requireAllTraceInstances ← booleanOf
      (getOr fields "require_all_trace_instances" (.bool true))
      "instance_latency.require_all_trace_instances"
    if ¬requireAllTraceInstances then
      throw (.reserved "instance_latency.require_all_trace_instances=false")
    else return { profilePath, requireAllTraceInstances }

/-- `_validate_instance_bindings`, where there is a registry. -/
def validateInstanceBindings (registry : Option (ModelRegistry × ModelRegistryValidationResult))
    (instanceProfile : InstanceProfile) : Except ConfigError Unit :=
  match registry with
  | none => .ok ()
  | some (modelRegistry, registryValidation) => do
    let _ ← validateInstanceModelBindings instanceProfile modelRegistry (some registryValidation)
    return ()

/-- `_load_model_registry`. -/
def loadModelRegistry (profilePath : Option String) :
    Except ConfigError (Option (ModelRegistry × ModelRegistryValidationResult)) :=
  match profilePath with
  | none => .ok none
  | some path => do
    let registry ← loadValidatedModelRegistry loadYaml path
    return some registry

/-- Build a resolver that falls back to the global backend when unconfigured. -/
def buildInstanceLatencyBackendResolver : Except ConfigError InstanceLatencyBackendResolver := do
  let globalBackend ← buildBatchLatencyBackend config
  let instanceLatencyConfig ← buildInstanceLatencyConfig config
  let registryPath ← sectionProfilePath config "model_registry"
  let registry ← loadModelRegistry loadYaml registryPath
  match instanceLatencyConfig.profilePath with
  | none => return {
      globalBackend
      modelRegistry := registry.map Prod.fst
      modelRegistryPath := registryPath }
  | some profilePath =>
    let instanceProfile ← InstanceProfile.fromMapping (← loadYaml profilePath)
    validateInstanceBindings registry instanceProfile
    return {
      globalBackend
      instanceProfile
      modelRegistry := registry.map Prod.fst
      requireAllTraceInstances := instanceLatencyConfig.requireAllTraceInstances
      profilePath := some profilePath
      modelRegistryPath := registryPath }

end Building

end InferTwin
