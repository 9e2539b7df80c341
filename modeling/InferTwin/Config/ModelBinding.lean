import InferTwin.Config.ModelRegistry

namespace InferTwin

open Config Effect

/-- Validated model registry metadata. -/
structure ModelRegistryValidationResult where
  modelProfiles : List ModelProfile
  deploymentProfiles : List DeploymentProfile

namespace ModelRegistryValidationResult

variable (validation : ModelRegistryValidationResult)

def modelProfileByName : Dict String ModelProfile :=
  Dict.byKey (fun profile ↦ profile.name.val) validation.modelProfiles

/-- `zip` of the two lists, which have the same length. -/
def deploymentProfileByName : Dict String DeploymentProfile :=
  Dict.ofPairs ((validation.modelProfiles.map fun profile ↦ profile.name.val).zip
    validation.deploymentProfiles)

end ModelRegistryValidationResult

/-- Validated instance-to-model binding metadata. -/
structure ModelBindingValidationResult where
  instanceCount : ℕ
  modelNameByInstance : Dict String String

/-- `directory / path`. -/
def joinPath (directory path : String) : String :=
  if directory = "." then path
  else if directory.endsWith "/" then directory ++ path
  else directory ++ "/" ++ path

/-- `path.parent`. -/
def parentDirectory (path : String) : String :=
  match (path.splitOn "/").dropLast with
  | [] => "."
  | [""] => "/"
  | parts => "/".intercalate parts

/-- A relative path is taken from the directory of the registry. -/
def resolveProfilePath (path : String) (baseDir : Option String) : String :=
  match baseDir with
  | some directory => if path.startsWith "/" then path else joinPath directory path
  | none => path

/-- `_validate_step7_cache_features`. -/
def validateStep7CacheFeatures (entry : ModelRegistryEntry)
    (deploymentProfile : DeploymentProfile) : Except ConfigError Unit :=
  let cache := entry.defaultCache
  let pooling := cache.pooling
  let cacheFeatures := deploymentProfile.cacheFeatures
  let modelField := "models." ++ entry.name ++ ".default_cache"
  let poolingField := modelField ++ ".pooling"
  if cache.evictionPolicy ≠ "lru" then
    .error (.onlySupports (modelField ++ ".eviction_policy") "lru in InferTwin V1")
  else if cacheFeatures.kvTransfer then
    .error (.kvTransferUnsupported entry.name deploymentProfile.name)
  else if ¬pooling.enabled then
    if cacheFeatures.pooling then .error (.deploymentPoolingDisabled entry.name "pooling")
    else if cacheFeatures.multiTierCache then
      .error (.deploymentPoolingDisabled entry.name "multi_tier_cache")
    else .ok ()
  else if cache.ddrCapacityBlocks.isNone then .error (.ddrCapacityRequired modelField)
  else if ¬pooling.singleInstance then .error (.mustBeTrue (poolingField ++ ".single_instance"))
  else if pooling.multiInstance then .error (.notSupported (poolingField ++ ".multi_instance"))
  else if ¬pooling.ddrEnabled then .error (.mustBeTrue (poolingField ++ ".ddr_enabled"))
  else if pooling.remoteEnabled then .error (.notSupported (poolingField ++ ".remote_enabled"))
  else if pooling.ssdEnabled then .error (.notSupported (poolingField ++ ".ssd_enabled"))
  else if ¬cacheFeatures.pooling then
    .error (.poolingFeatureMissing entry.name deploymentProfile.name)
  else .ok ()

section Validation

-- the YAML files, by path
variable (loadYaml : String → Except ConfigError Json)

/-- The body of the loop of `validate_model_registry`. -/
def validateEntry (baseDir : Option String) (entry : ModelRegistryEntry) :
    Except ConfigError (ModelProfile × DeploymentProfile) := do
  let data ← loadYaml (resolveProfilePath entry.modelProfilePath baseDir)
  let modelProfile ← ModelProfile.fromMapping data
  let data ← loadYaml (resolveProfilePath entry.deploymentProfilePath baseDir)
  let deploymentProfile ← DeploymentProfile.fromMapping data
  if modelProfile.name.val ≠ entry.name then
    .error (.modelProfileMismatch entry.name modelProfile.name)
  else if modelProfile.tokenizerProfile ≠ entry.tokenizerProfile then
    .error (.tokenizerMismatch entry.name entry.tokenizerProfile modelProfile.tokenizerProfile)
  else if entry.defaultLatency.modelName.val ∉ modelProfile.acceptedModelNames then
    .error (.defaultLatencyMismatch entry.name entry.defaultLatency.modelName)
  else do
    validateStep7CacheFeatures entry deploymentProfile
    return (modelProfile, deploymentProfile)

/-- Validate registry entries against their referenced profile files. -/
def validateModelRegistry (registry : ModelRegistry) (baseDir : Option String) :
    Except ConfigError ModelRegistryValidationResult := do
  let profiles ← registry.entries.mapM (validateEntry loadYaml baseDir)
  return {
    modelProfiles := profiles.map Prod.fst
    deploymentProfiles := profiles.map Prod.snd }

end Validation

def acceptedModelNames (modelName : String) (modelProfiles : Dict String ModelProfile) :
    List String :=
  match modelProfiles.lookup modelName with
  | none => [modelName]
  | some modelProfile => modelProfile.acceptedModelNames

/-- The latency profile of an instance, if it has one of its own, is of an accepted model. -/
def checkLatencyProfile (instanceProfile : InstanceProfile) (item : InstanceDeployment)
    (modelName : String) (acceptedNames : List String) : Except ConfigError Unit :=
  match item.latencyProfile with
  | none => .ok ()
  | some name =>
    match instanceProfile.latencyProfileByName.lookup name.val with
    | none => .error (.keyError name)
    | some latencyProfile =>
      if latencyProfile.modelName.val ∉ acceptedNames then
        .error (.latencyModelMismatch item.instanceUuid modelName latencyProfile.name
          latencyProfile.modelName)
      else .ok ()

/-- The body of the loop of `validate_instance_model_bindings`: the model of an instance. -/
def validateBinding (instanceProfile : InstanceProfile) (modelRegistry : ModelRegistry)
    (modelProfiles : Dict String ModelProfile) (item : InstanceDeployment) :
    Except ConfigError (String × String) :=
  match item.modelName with
  | none => .error (.modelNameRequired item.instanceUuid "when model registry is enabled")
  | some modelName => do
    let entry ← modelRegistry.entryFor modelName
    checkLatencyProfile instanceProfile item modelName
      (acceptedModelNames entry.name modelProfiles)
    return (item.instanceUuid, modelName.val)

/-- Validate that fixed-routed instances bind to registered models. -/
def validateInstanceModelBindings (instanceProfile : InstanceProfile)
    (modelRegistry : ModelRegistry) (registryValidation : Option ModelRegistryValidationResult) :
    Except ConfigError ModelBindingValidationResult := do
  let modelProfiles : Dict String ModelProfile := match registryValidation with
    | some validation => validation.modelProfileByName
    | none => ∅
  let bindings ← instanceProfile.instances.mapM
    (validateBinding instanceProfile modelRegistry modelProfiles)
  return {
    instanceCount := instanceProfile.instances.length
    modelNameByInstance := Dict.ofPairs bindings }

end InferTwin
