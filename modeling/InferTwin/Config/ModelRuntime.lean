import InferTwin.Config.ModelBinding

namespace InferTwin

open Config Effect

/-- Resolved runtime profile assembled from model, deployment, cache, and latency data. -/
structure ResolvedModelRuntimeProfile where
  modelName : String
  tokenizerProfile : NonBlank
  chatTemplateProfile : Option NonBlank
  modelProfilePath : String
  deploymentProfilePath : String
  modelProfile : ModelProfile
  deploymentProfile : DeploymentProfile
  defaultCache : ModelCacheDefaults
  defaultLatency : InstanceLatencyProfile

namespace ResolvedModelRuntimeProfile

variable (profile : ResolvedModelRuntimeProfile)

def speculativeDropBlocks : ℕ := profile.deploymentProfile.speculative.speculativeDropBlocks

end ResolvedModelRuntimeProfile

/-- Lookup table for resolved model runtime profiles. -/
structure ModelRuntimeTable where
  profiles : List ResolvedModelRuntimeProfile

def ModelRuntimeTable.profileFor (table : ModelRuntimeTable) (modelName : String) :
    Except ConfigError ResolvedModelRuntimeProfile :=
  match (Dict.byKey ResolvedModelRuntimeProfile.modelName table.profiles).lookup modelName with
  | some profile => .ok profile
  | none => .error (.tableMissingModel modelName)

/-- The profile of one registry entry. -/
def resolveEntry (validation : ModelRegistryValidationResult) (entry : ModelRegistryEntry) :
    Except ConfigError ResolvedModelRuntimeProfile :=
  match validation.modelProfileByName.lookup entry.name,
    validation.deploymentProfileByName.lookup entry.name with
  | some modelProfile, some deploymentProfile => .ok {
      modelName := entry.name
      tokenizerProfile := entry.tokenizerProfile
      chatTemplateProfile := entry.chatTemplateProfile
      modelProfilePath := entry.modelProfilePath
      deploymentProfilePath := entry.runtimeDefaults.deploymentProfilePath
      modelProfile
      deploymentProfile
      defaultCache := entry.runtimeDefaults.cache
      defaultLatency := entry.defaultLatency }
  | _, _ => .error (.keyError entry.name)

/-- Build a runtime profile table from a validated model registry. -/
def resolveModelRuntimeTable (registry : ModelRegistry)
    (registryValidation : ModelRegistryValidationResult) : Except ConfigError ModelRuntimeTable := do
  return { profiles := ← registry.entries.mapM (resolveEntry registryValidation) }

/-- Config paths required to resolve instance runtime defaults. -/
structure InstanceRuntimeConfig where
  instanceProfilePath : String
  modelRegistryPath : String
  deriving DecidableEq

/-- Resolve scheduler, cache and deployment defaults for one fixed-routed instance. -/
structure InstanceRuntimeResolver where
  instanceProfile : InstanceProfile
  modelRuntimeTable : ModelRuntimeTable
  modelBindingValidation : ModelBindingValidationResult
  instanceProfilePath : String
  modelRegistryPath : String

namespace InstanceRuntimeResolver

variable (resolver : InstanceRuntimeResolver)

/-- The model-owned runtime profile bound to an instance. -/
def runtimeProfileFor (instanceUuid : String) :
    Except ConfigError ResolvedModelRuntimeProfile :=
  if instanceUuid = "" then .error .emptyInstanceUuid
  else
    match resolver.instanceProfile.instanceByUuid.lookup instanceUuid with
    | none => .error (.instanceMissing "runtime" instanceUuid)
    | some item =>
      match item.modelName with
      | none => .error (.modelNameRequired instanceUuid "for instance runtime resolution")
      | some modelName => resolver.modelRuntimeTable.profileFor modelName

def defaultCacheFor (instanceUuid : String) : Except ConfigError ModelCacheDefaults := do
  return (← resolver.runtimeProfileFor instanceUuid).defaultCache

end InstanceRuntimeResolver

section Building

/-- `_optional_profile_path`: the path that a section of the config names. -/
def optionalProfilePath (config : List (String × Json)) (sectionName : String) :
    Except ConfigError (Option String) :=
  match getOrNull config sectionName with
  | .null => .ok none
  | .object fields => do
    let path ← optionalStr (getOrNull fields "profile_path") (sectionName ++ ".profile_path")
    return path.map fun path ↦ pathText path.val
  | _ => .error (.mappingRequired (sectionName ++ " config"))

/-- Validate and normalize instance runtime resolver config paths. -/
def buildInstanceRuntimeConfig (config : List (String × Json)) :
    Except ConfigError InstanceRuntimeConfig := do
  match ← optionalProfilePath config "model_registry" with
  | none => throw (.requiredFor "model_registry.profile_path" "")
  | some modelRegistryPath =>
    let explicitRuntimePath ← optionalProfilePath config "instance_runtime"
    let latencyInstancePath ← optionalProfilePath config "instance_latency"
    match explicitRuntimePath, latencyInstancePath with
    | none, none =>
      throw (.requiredFor "instance_runtime.profile_path" " for instance runtime resolution")
    | some runtimePath, none => return { instanceProfilePath := runtimePath, modelRegistryPath }
    | none, some latencyPath => return { instanceProfilePath := latencyPath, modelRegistryPath }
    | some runtimePath, some latencyPath =>
      if runtimePath ≠ latencyPath then throw .pathsDiffer
      return { instanceProfilePath := runtimePath, modelRegistryPath }

-- the YAML files, by path
variable (loadYaml : String → Except ConfigError Json)

/-- `_load_validated_model_registry`. -/
def loadValidatedModelRegistry (registryPath : String) :
    Except ConfigError (ModelRegistry × ModelRegistryValidationResult) := do
  let modelRegistry ← ModelRegistry.fromMapping (← loadYaml registryPath)
  return (modelRegistry,
    ← validateModelRegistry loadYaml modelRegistry (some (parentDirectory registryPath)))

/-- Build an instance runtime resolver from documented config sections. -/
def buildInstanceRuntimeResolver (config : List (String × Json)) :
    Except ConfigError InstanceRuntimeResolver := do
  let runtimeConfig ← buildInstanceRuntimeConfig config
  let (modelRegistry, registryValidation) ←
    loadValidatedModelRegistry loadYaml runtimeConfig.modelRegistryPath
  let instanceProfile ← InstanceProfile.fromMapping (← loadYaml runtimeConfig.instanceProfilePath)
  let modelBindingValidation ←
    validateInstanceModelBindings instanceProfile modelRegistry (some registryValidation)
  return {
    instanceProfile
    modelRuntimeTable := ← resolveModelRuntimeTable modelRegistry registryValidation
    modelBindingValidation
    instanceProfilePath := runtimeConfig.instanceProfilePath
    modelRegistryPath := runtimeConfig.modelRegistryPath }

end Building

end InferTwin
