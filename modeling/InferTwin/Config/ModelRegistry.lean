import InferTwin.Config.Deployment
import InferTwin.Config.Instances

namespace InferTwin

open Config

/-- Model-owned pooling flags. -/
structure ModelCachePoolingDefaults where
  enabled : Bool := false
  singleInstance : Bool := true
  multiInstance : Bool := false
  ddrEnabled : Bool := false
  remoteEnabled : Bool := false
  ssdEnabled : Bool := false
  deriving DecidableEq

/-- Default cache configuration owned by one registered model. -/
structure ModelCacheDefaults where
  hbmCapacityBlocks : ℕ+
  blockSizeTokens : ℕ+
  evictionPolicy : String := "lru"
  ddrCapacityBlocks : Option ℕ+ := none
  pooling : ModelCachePoolingDefaults := {}
  eviction_policy_eq : evictionPolicy = "lru"
  deriving DecidableEq

/-- Registry-owned runtime defaults for one model. -/
structure ModelRuntimeDefaults where
  deploymentProfilePath : String
  cache : ModelCacheDefaults
  deriving DecidableEq

/-- Registered model metadata and default latency profile. -/
structure ModelRegistryEntry where
  name : String
  modelProfilePath : String
  runtimeDefaults : ModelRuntimeDefaults
  tokenizerProfile : NonBlank
  chatTemplateProfile : Option NonBlank
  defaultLatency : InstanceLatencyProfile
  name_nonblank : isBlank name = false

namespace ModelRegistryEntry

def deploymentProfilePath (entry : ModelRegistryEntry) : String :=
  entry.runtimeDefaults.deploymentProfilePath

def defaultCache (entry : ModelRegistryEntry) : ModelCacheDefaults := entry.runtimeDefaults.cache

end ModelRegistryEntry

/-- Registry of the models known to the simulator. -/
structure ModelRegistry where
  entries : List ModelRegistryEntry
  names_nodup : (entries.map ModelRegistryEntry.name).Nodup

namespace ModelRegistry

variable (registry : ModelRegistry)

def entryByName : Dict String ModelRegistryEntry :=
  Dict.byKey ModelRegistryEntry.name registry.entries

def entryFor (modelName : String) : Except ConfigError ModelRegistryEntry := do
  let normalized ← nonBlank (.str modelName) "model_name"
  match registry.entryByName.lookup normalized.val with
  | some entry => return entry
  | none => throw (.missingModel normalized)

end ModelRegistry

theorem isBlank_append (first second : String) :
    isBlank (first ++ second) = (isBlank first && isBlank second) := by
  unfold isBlank
  rw [String.toList_append, List.all_append]

section Parsers

variable (data : Json) (fieldName : String)

def ModelCachePoolingDefaults.fromMapping : Except ConfigError ModelCachePoolingDefaults := do
  let mapping ← match data with
    | .null => pure []
    | _ => mappingOf data fieldName
  let flag (key : String) (value : Bool) : Except ConfigError Bool :=
    booleanOf (getOr mapping key (.bool value)) (fieldName ++ "." ++ key)
  return {
    enabled := ← flag "enabled" false
    singleInstance := ← flag "single_instance" true
    multiInstance := ← flag "multi_instance" false
    ddrEnabled := ← flag "ddr_enabled" false
    remoteEnabled := ← flag "remote_enabled" false
    ssdEnabled := ← flag "ssd_enabled" false }

def ModelCacheDefaults.fromMapping : Except ConfigError ModelCacheDefaults := do
  let mapping ← mappingOf data fieldName
  let evictionPolicy ← requiredStr mapping "eviction_policy" fieldName
  if h : evictionPolicy.val = "lru" then
    return {
      hbmCapacityBlocks := ← positiveInt (getOrNull mapping "hbm_capacity_blocks")
        (fieldName ++ ".hbm_capacity_blocks")
      blockSizeTokens := ← positiveInt (getOrNull mapping "block_size_tokens")
        (fieldName ++ ".block_size_tokens")
      evictionPolicy
      ddrCapacityBlocks := ← optionalPositiveInt (getOrNull mapping "ddr_capacity_blocks")
        (fieldName ++ ".ddr_capacity_blocks")
      pooling := ← ModelCachePoolingDefaults.fromMapping (getOrNull mapping "pooling")
        (fieldName ++ ".pooling")
      eviction_policy_eq := h }
  else throw (.onlySupports (fieldName ++ ".eviction_policy") "lru in InferTwin V1")

/-- The name of a model's own latency profile. -/
def defaultLatencyName (modelName : NonBlank) : NonBlank :=
  ⟨modelName.val ++ "__default_latency", by
    rw [isBlank_append, modelName.property]
    rfl⟩

def parseModelRegistryEntry (modelName : String) (value : Json) : Except ConfigError
    {entry : ModelRegistryEntry // entry.name = modelName ∧ True} := do
  if h : isBlank modelName = false then
    let fieldName := "models." ++ modelName
    let mapping ← mappingOf value fieldName
    let latency ← requiredMapping mapping "default_latency" fieldName
    let defaultLatency ← InstanceLatencyProfile.fromMapping (.object latency)
      (fieldName ++ ".default_latency") (defaultLatencyName ⟨modelName, h⟩)
    let modelProfilePath ← requiredStr mapping "model_profile_path" fieldName
    let deploymentProfilePath ← requiredStr mapping "deployment_profile_path" fieldName
    let cache ← requiredMapping mapping "default_cache" fieldName
    let cache ← ModelCacheDefaults.fromMapping (.object cache) (fieldName ++ ".default_cache")
    let tokenizerProfile ← requiredStr mapping "tokenizer_profile" fieldName
    let chatTemplateProfile ← optionalStr (getOrNull mapping "chat_template_profile")
      (fieldName ++ ".chat_template_profile")
    return ⟨{
      name := modelName
      modelProfilePath := pathText modelProfilePath
      runtimeDefaults := { deploymentProfilePath := pathText deploymentProfilePath, cache }
      tokenizerProfile
      chatTemplateProfile
      defaultLatency := defaultLatency.val
      name_nonblank := h }, rfl, trivial⟩
  else throw (.profile (.nonEmptyString "models key"))

def ModelRegistry.fromMapping : Except ConfigError ModelRegistry := do
  let mapping ← sectionOf data "models"
  let entries ← parseItems ModelRegistryEntry.name parseModelRegistryEntry (sortedItems mapping)
  return {
    entries := entries.val
    names_nodup := by
      rw [entries.property.1]
      exact sorted_items_nodup mapping }

end Parsers

end InferTwin
