import InferTwin.Config.Deployment

namespace InferTwin

open Config

/-- Top-level run request consumed by core simulator orchestration. -/
structure RunSpec where
  tracePath : String
  outputDir : String
  mode : String
  modelName : String
  requestedBlockSize : ℕ+
  capacityCandidates : List ℕ+ := []
  modelProfile : Option String := none
  hardwareProfile : Option String := none
  deploymentProfile : Option String := none
  instanceProfile : Option String := none

/-- `_positive_int_tuple`, of a run. -/
def positiveIntItems (value : Json) (fieldName : String) : Except ConfigError (List ℕ+) :=
  match value with
  | .null => .ok []
  | .list items => items.mapM fun item ↦ positiveInt item (fieldName ++ "[]")
  | _ => .error (.integersRequired fieldName "a sequence")

def RunSpec.fromMapping (data : Json) : Except ConfigError RunSpec := do
  let mapping ← sectionOf data "run"
  let path (key : String) : Except ConfigError (Option String) := do
    return (← optionalStr (getOrNull mapping key) ("run." ++ key)).map fun path ↦ pathText path.val
  return {
    tracePath := pathText (← requiredStr mapping "trace_path" "run")
    outputDir := pathText (← requiredStr mapping "output_dir" "run")
    mode := ← requiredStr mapping "mode" "run"
    modelName := ← requiredStr mapping "model_name" "run"
    requestedBlockSize := ← positiveInt (getOrNull mapping "requested_block_size")
      "run.requested_block_size"
    capacityCandidates := ← positiveIntItems (getOr mapping "capacity_candidates" (.list []))
      "run.capacity_candidates"
    modelProfile := ← path "model_profile"
    hardwareProfile := ← path "hardware_profile"
    deploymentProfile := ← path "deployment_profile"
    instanceProfile := ← path "instance_profile" }

/-- The issues of the guard are all errors, and block the replay. -/
structure ConfigGuardIssue where
  code : String
  affectedProfile : String
  affectedField : String
  reason : String
  suggestion : String

/-- `ConfigGuardResult.raise_if_blocked`, its message. -/
def raiseIfBlocked (issues : List ConfigGuardIssue) : Except ConfigError Unit :=
  if issues = [] then .ok ()
  else .error (.external ("ConfigGuard blocked replay: " ++
    "; ".intercalate (issues.map fun issue ↦ issue.code ++ ": " ++ issue.reason)))

section Guards

variable (runSpec : RunSpec) (modelProfile : ModelProfile) (deploymentProfile : DeploymentProfile)

/-- Check profile combinations before entering core replay. -/
def guardCoreProfiles (blockConversionEnabled : Bool) : List ConfigGuardIssue :=
  let family := reprText modelProfile.cacheFamily.text
  (if runSpec.modelName ∈ modelProfile.acceptedModelNames then [] else [{
    code := "RUNSPEC_MODEL_PROFILE_MISMATCH"
    affectedProfile := modelProfile.name
    affectedField := "run.model_name"
    reason := "run model " ++ reprText runSpec.modelName ++ " is not model profile " ++
      reprText modelProfile.name ++ " or one of its aliases"
    suggestion := "Use the matching ModelProfile or add an explicit alias." }]) ++
  (if deploymentProfile.speculative.enabled ∧
      deploymentProfile.speculative.speculativeDropBlocks > 0 ∧ ¬blockConversionEnabled then [{
    code := "SPECULATIVE_DROP_REQUIRES_BLOCK_CONVERSION"
    affectedProfile := deploymentProfile.name
    affectedField := "deployment.speculative.speculative_drop_blocks"
    reason := "speculative decoding changes cached block accounting"
    suggestion := "Enable the cache block conversion module before replay." }] else []) ++
  (if deploymentProfile.parallel.contextParallelFactor > 1 ∧
      modelProfile.cacheFamily ∈ [.slidingWindow, .mamba, .hybrid] then [{
    code := "UNSUPPORTED_CONTEXT_PARALLEL_CACHE_FAMILY"
    affectedProfile := deploymentProfile.name
    affectedField := "deployment.parallel"
    reason := "context parallelism is not supported for cache_family " ++ family
    suggestion := "Use PCP=DCP=1 or add a dedicated cache manager." }] else []) ++
  (if modelProfile.cacheFamily = .hybrid ∧ modelProfile.cacheGroups = [] then [{
    code := "HYBRID_CACHE_GROUPS_REQUIRED"
    affectedProfile := modelProfile.name
    affectedField := "model.cache_groups"
    reason := "hybrid cache profiles require explicit cache group block sizes"
    suggestion := "Declare model.cache_groups before enabling hybrid cache replay." }] else [])

/-- Check one trace request model against the selected run model. -/
def guardRequestModel (requestModel : String) : List ConfigGuardIssue :=
  if requestModel ∈ modelProfile.acceptedModelNames ∧
    runSpec.modelName ∈ modelProfile.acceptedModelNames then []
  else [{
    code := "REQUEST_MODEL_MISMATCH"
    affectedProfile := modelProfile.name
    affectedField := "request_params.model"
    reason := "request model " ++ reprText requestModel ++ " does not match run model " ++
      reprText runSpec.modelName ++ " or aliases"
    suggestion := "Use a single-model trace or add an explicit ModelProfile alias." }]

end Guards

end InferTwin
