import InferTwin.Cache.BlockSize
import InferTwin.Config.Parsers
import InferTwin.Scheduler.VllmLike

namespace InferTwin

open Config

/-- KV cache group metadata for unitary and hybrid cache managers. -/
structure CacheGroupProfile where
  name : NonBlank
  attentionType : NonBlank
  blockSize : ℕ+
  deriving DecidableEq

/-- Model-owned settings used by request build and cache semantics. -/
structure ModelProfile where
  name : NonBlank
  aliases : List NonBlank
  tokenizerProfile : NonBlank
  chatTemplateProfile : Option NonBlank := none
  maxModelLen : Option ℕ+ := none
  cacheFamily : CacheFamily := .fullAttention
  cacheGroups : List CacheGroupProfile := []
  deriving DecidableEq

def ModelProfile.acceptedModelNames (profile : ModelProfile) : List String :=
  profile.name :: profile.aliases.map Subtype.val

/-- vLLM-like scheduler startup parameters. -/
structure SchedulerProfile where
  maxNumSeqs : ℕ+
  maxNumBatchedTokens : ℕ+
  enableChunkedPrefill : Bool
  longPrefillTokenThreshold : Option ℕ+ := none
  deriving DecidableEq

/-- Parallelism settings that affect scheduler and cache-hit semantics. -/
structure ParallelProfile where
  tensorParallelSize : ℕ+ := 1
  pipelineParallelSize : ℕ+ := 1
  prefillContextParallelSize : ℕ+ := 1
  decodeContextParallelSize : ℕ+ := 1
  deriving DecidableEq

def ParallelProfile.contextParallelFactor (parallel : ParallelProfile) : ℕ+ :=
  parallel.prefillContextParallelSize * parallel.decodeContextParallelSize

/-- Speculative decoding settings that can reduce reusable cached blocks. -/
structure SpeculativeProfile where
  enabled : Bool := false
  method : Option NonBlank := none
  speculativeDropBlocks : ℕ := 0
  deriving DecidableEq

/-- Cache-related deployment features that may change replay semantics. -/
structure CacheFeatureProfile where
  prefixCaching : Bool := true
  multiTierCache : Bool := false
  pooling : Bool := false
  kvTransfer : Bool := false
  runtimeBlockSize : Option ℕ+ := none
  deriving DecidableEq

/-- Deployment startup and feature profile for one group of instances. -/
structure DeploymentProfile where
  name : NonBlank
  engine : NonBlank
  scheduler : SchedulerProfile
  parallel : ParallelProfile := {}
  speculative : SpeculativeProfile := {}
  cacheFeatures : CacheFeatureProfile := {}
  startupArgs : List (String × Json) := []

section Parsers

variable (data : Json) (fieldName : String)

def CacheGroupProfile.fromMapping : Except ConfigError CacheGroupProfile := do
  let mapping ← mappingOf data fieldName
  return {
    name := ← requiredStr mapping "name" fieldName
    attentionType := ← requiredStr mapping "attention_type" fieldName
    blockSize := ← positiveInt (getOrNull mapping "block_size") (fieldName ++ ".block_size") }

/-- `enumerate`: the groups of a model, each under the name of its field. -/
def cacheGroupsFrom : ℕ → List Json → Except ConfigError (List CacheGroupProfile)
  | _, [] => .ok []
  | index, item :: items => do
    let group ← CacheGroupProfile.fromMapping item
      ("model.cache_groups[" ++ toString index ++ "]")
    return group :: (← cacheGroupsFrom (index + 1) items)

def CacheFamily.ofText (text : String) : CacheFamily :=
  if text = "full_attention" then .fullAttention
  else if text = "sliding_window" then .slidingWindow
  else if text = "mamba" then .mamba
  else if text = "hybrid" then .hybrid
  else .other text

def ModelProfile.fromMapping : Except ConfigError ModelProfile := do
  let mapping ← sectionOf data "model"
  let cacheGroups ← match getOr mapping "cache_groups" (.list []) with
    | .list items => cacheGroupsFrom 0 items
    | _ => throw .sequenceRequired
  return {
    name := ← requiredStr mapping "name" "model"
    aliases := ← strTuple (getOr mapping "aliases" (.list [])) "model.aliases"
    tokenizerProfile := ← requiredStr mapping "tokenizer_profile" "model"
    chatTemplateProfile := ← optionalStr (getOrNull mapping "chat_template_profile")
      "model.chat_template_profile"
    maxModelLen := ← optionalPositiveInt (getOrNull mapping "max_model_len") "model.max_model_len"
    cacheFamily := match ← optionalStr (getOrNull mapping "cache_family") "model.cache_family" with
      | some family => CacheFamily.ofText family
      | none => .fullAttention
    cacheGroups }

def SchedulerProfile.fromMapping : Except ConfigError SchedulerProfile := do
  let mapping ← mappingOf data fieldName
  return {
    maxNumSeqs := ← positiveInt (getOrNull mapping "max_num_seqs") (fieldName ++ ".max_num_seqs")
    maxNumBatchedTokens := ← positiveInt (getOrNull mapping "max_num_batched_tokens")
      (fieldName ++ ".max_num_batched_tokens")
    enableChunkedPrefill := ← booleanOf (getOrNull mapping "enable_chunked_prefill")
      (fieldName ++ ".enable_chunked_prefill")
    longPrefillTokenThreshold := ← optionalPositiveInt
      (getOrNull mapping "long_prefill_token_threshold")
      (fieldName ++ ".long_prefill_token_threshold") }

def ParallelProfile.fromMapping : Except ConfigError ParallelProfile := do
  let mapping ← optionalSection data
  let size (key : String) : Except ConfigError ℕ+ :=
    positiveInt (getOr mapping key (.int 1)) (fieldName ++ "." ++ key)
  return {
    tensorParallelSize := ← size "tensor_parallel_size"
    pipelineParallelSize := ← size "pipeline_parallel_size"
    prefillContextParallelSize := ← size "prefill_context_parallel_size"
    decodeContextParallelSize := ← size "decode_context_parallel_size" }

def SpeculativeProfile.fromMapping : Except ConfigError SpeculativeProfile := do
  let mapping ← optionalSection data
  let enabled ← booleanOf (getOr mapping "enabled" (.bool false)) (fieldName ++ ".enabled")
  let method ← optionalStr (getOrNull mapping "method") (fieldName ++ ".method")
  let drops := (method.map Subtype.val).any fun name ↦ name ∈ ["mtp", "eagle", "eagle3"]
  let defaultDropBlocks : ℤ := if enabled ∧ drops then 1 else 0
  return {
    enabled
    method
    speculativeDropBlocks := ← nonNegativeInt
      (getOr mapping "speculative_drop_blocks" (.int defaultDropBlocks))
      (fieldName ++ ".speculative_drop_blocks") }

def CacheFeatureProfile.fromMapping : Except ConfigError CacheFeatureProfile := do
  let mapping ← optionalSection data
  let flag (key : String) (value : Bool) : Except ConfigError Bool :=
    booleanOf (getOr mapping key (.bool value)) (fieldName ++ "." ++ key)
  return {
    prefixCaching := ← flag "prefix_caching" true
    multiTierCache := ← flag "multi_tier_cache" false
    pooling := ← flag "pooling" false
    kvTransfer := ← flag "kv_transfer" false
    runtimeBlockSize := ← optionalPositiveInt (getOrNull mapping "runtime_block_size")
      (fieldName ++ ".runtime_block_size") }

def DeploymentProfile.fromMapping : Except ConfigError DeploymentProfile := do
  let mapping ← sectionOf data "deployment"
  return {
    name := ← requiredStr mapping "name" "deployment"
    engine := ← requiredStr mapping "engine" "deployment"
    scheduler := ← SchedulerProfile.fromMapping (getOrNull mapping "scheduler")
      "deployment.scheduler"
    parallel := ← ParallelProfile.fromMapping (getOrNull mapping "parallel")
      "deployment.parallel"
    speculative := ← SpeculativeProfile.fromMapping (getOrNull mapping "speculative")
      "deployment.speculative"
    cacheFeatures := ← CacheFeatureProfile.fromMapping (getOrNull mapping "cache_features")
      "deployment.cache_features"
    startupArgs := ← optionalMappingOf (getOr mapping "startup_args" (.object [])) }

end Parsers

/-- `_scheduler_config_from_runtime`: the parser has made the checks of the constructor. -/
def SchedulerProfile.toConfig (scheduler : SchedulerProfile) : SchedulerConfig where
  maxNumBatchedTokens := scheduler.maxNumBatchedTokens
  maxNumSeqs := scheduler.maxNumSeqs
  enableChunkedPrefill := scheduler.enableChunkedPrefill
  longPrefillTokenThreshold := scheduler.longPrefillTokenThreshold.map PNat.val
  tokens_pos := scheduler.maxNumBatchedTokens.pos
  seqs_pos := scheduler.maxNumSeqs.pos
  threshold_pos := by
    intro threshold hthreshold
    obtain ⟨size, -, rfl⟩ := Option.mem_map.mp hthreshold
    exact size.pos

end InferTwin
