import InferTwin.Config.Parsers
import InferTwin.Scheduler.VllmLike

namespace InferTwin

open Config

/-- The capacities of a sweep, and those of them whose cache events are written out. -/
@[ext] structure CapacitySweepConfig where
  capacities : List ℕ+
  cacheEvents : Bool
  cacheEventCapacities : List ℕ+
  parallelInstances : Bool := false
  capacities_nodup : capacities.Nodup
  events_iff : cacheEvents = true ↔ cacheEventCapacities ≠ []
  events_subset : cacheEventCapacities ⊆ capacities

namespace Sweep

section Readers

variable (config : List (String × Json)) (key : String)

/-- `_mapping`, of a section that must be there. -/
def mapping : Except ConfigError (List (String × Json)) :=
  mappingOf (getOrNull config key) (key ++ " config")

/-- A section that may be absent or null. -/
def optionalMapping : Except ConfigError (List (String × Json)) :=
  match getOr config key (.object []) with
  | .null => .ok []
  | .object fields => .ok fields
  | _ => .error (.mappingRequired (key ++ " config"))

def optionalBool (default : Bool) : Except ConfigError Bool :=
  booleanOf (getOr config key (.bool default)) key

def requiredInt : Except ConfigError ℤ :=
  match getOrNull config key with
  | .int number => .ok number
  | _ => .error (.integer key)

def optionalInt : Except ConfigError (Option ℤ) :=
  match getOrNull config key with
  | .null => .ok none
  | _ => some <$> requiredInt config key

/-- A text that may be blank but not empty. -/
def optionalStr (default : String) : Except ConfigError String :=
  match getOr config key (.str default) with
  | .str text => if text = "" then .error (.profile (.nonEmptyString key)) else .ok text
  | _ => .error (.profile (.nonEmptyString key))

end Readers

/-- `_int_tuple`. -/
def intTuple (fieldName : String) : List Json → Except ConfigError (List ℕ+)
  | [] => .ok []
  | item :: items =>
    match positiveInt item fieldName with
    | .error _ => .error (.onlyPositiveIntegers fieldName)
    | .ok size => do
      let sizes ← intTuple fieldName items
      return size :: sizes

def positiveIntTuple (value : Json) (fieldName : String) : Except ConfigError (List ℕ+) :=
  match value with
  | .list (item :: items) => intTuple fieldName (item :: items)
  | _ => .error (.integersRequired fieldName "a non-empty list")

def optionalPositiveIntTuple (value : Json) (fieldName : String) :
    Except ConfigError (List ℕ+) :=
  match value with
  | .null => .ok []
  | .list items => intTuple fieldName items
  | _ => .error (.integersRequired fieldName "a list")

end Sweep

open Sweep

/-- The eviction policy, where the cache section names one, must be LRU. -/
def checkEvictionPolicy (config : List (String × Json)) : Except ConfigError Unit := do
  let cacheConfig ← Sweep.optionalMapping config "cache"
  match getOr cacheConfig "eviction_policy" (.str "lru") with
  | .str "lru" => return ()
  | _ => throw (.onlySupports "capacity_sweep" "cache.eviction_policy: lru")

/-- The sweep must be one of the modes, and have no hit rate targets. -/
def checkSweepMode (config : List (String × Json)) (allowedModes : List String) :
    Except ConfigError Unit := do
  let simulation ← mapping config "simulation"
  match getOrNull simulation "mode" with
  | .str mode => refuseIf (mode ∉ allowedModes) (.sweepMode allowedModes)
  | _ => throw (.sweepMode allowedModes)
  refuseIf (Json.get config "targets").isSome .sweepTargets

/-- Validate and normalize the HBM capacity sweep config section. -/
def buildCapacitySweepConfig (config : List (String × Json)) (allowedModes : List String) :
    Except ConfigError CapacitySweepConfig := do
  checkSweepMode config allowedModes
  let sweepConfig ← mapping config "sweep"
  let capacities ← positiveIntTuple (getOrNull sweepConfig "hbm_capacity_blocks")
    "sweep.hbm_capacity_blocks"
  if hnodup : capacities.Nodup then
    let parallelInstances ← optionalBool sweepConfig "parallel_instances" false
    refuseIf (parallelInstances = true) (.reserved "parallel_instances")
    checkEvictionPolicy config
    let outputConfig ← Sweep.optionalMapping config "output"
    let cacheEvents ← optionalBool outputConfig "cache_events" false
    let cacheEventCapacities ← optionalPositiveIntTuple
      (getOr outputConfig "cache_event_capacities" (.list [])) "output.cache_event_capacities"
    if hsome : cacheEvents = true ∧ cacheEventCapacities = [] then
      throw (.eventCapacities "non-empty" "true")
    else if hnone : cacheEvents = false ∧ cacheEventCapacities ≠ [] then
      throw (.eventCapacities "empty" "false")
    else if hsubset : cacheEventCapacities ⊆ capacities then
      return {
        capacities
        cacheEvents
        cacheEventCapacities
        parallelInstances
        capacities_nodup := hnodup
        events_iff := by
          cases cacheEvents with
          | true => exact ⟨fun _ hnil ↦ hsome ⟨rfl, hnil⟩, fun _ ↦ rfl⟩
          | false => exact ⟨fun h ↦ (by cases h), fun h ↦ absurd ⟨rfl, h⟩ hnone⟩
        events_subset := hsubset }
    else throw .eventCapacitiesSubset
  else throw .duplicateCapacities

/-- `SchedulerConfig(...)`, with its checks. -/
def SchedulerConfig.build (maxNumBatchedTokens maxNumSeqs : ℤ) (enableChunkedPrefill : Bool)
    (longPrefillTokenThreshold : Option ℤ) (policy : String) :
    Except ConfigError SchedulerConfig :=
  if htokens : maxNumBatchedTokens ≤ 0 then .error (.notPositive "max_num_batched_tokens")
  else if hseqs : maxNumSeqs ≤ 0 then .error (.notPositive "max_num_seqs")
  else if policy ≠ "fcfs" then
    .error (.onlySupports "InferTwin currently" "scheduler policy 'fcfs'")
  else if hthreshold : ∃ threshold ∈ longPrefillTokenThreshold, threshold ≤ 0 then
    .error (.notPositive "long_prefill_token_threshold")
  else .ok {
    maxNumBatchedTokens := maxNumBatchedTokens.toNat
    maxNumSeqs := maxNumSeqs.toNat
    enableChunkedPrefill
    longPrefillTokenThreshold := longPrefillTokenThreshold.map Int.toNat
    tokens_pos := by omega
    seqs_pos := by omega
    threshold_pos := by
      intro threshold hmem
      obtain ⟨number, hnumber, rfl⟩ := Option.mem_map.mp hmem
      have hpos : ¬number ≤ 0 := fun hle ↦ hthreshold ⟨number, hnumber, hle⟩
      omega }

def buildSchedulerConfigFromConfig (config : List (String × Json)) :
    Except ConfigError SchedulerConfig := do
  let schedulerConfig ← mapping config "scheduler"
  let maxNumBatchedTokens ← requiredInt schedulerConfig "max_num_batched_tokens"
  let maxNumSeqs ← requiredInt schedulerConfig "max_num_seqs"
  let enableChunkedPrefill ← optionalBool schedulerConfig "enable_chunked_prefill" true
  let longPrefillTokenThreshold ← Sweep.optionalInt schedulerConfig "long_prefill_token_threshold"
  let policy ← Sweep.optionalStr schedulerConfig "policy" "fcfs"
  SchedulerConfig.build maxNumBatchedTokens maxNumSeqs enableChunkedPrefill
    longPrefillTokenThreshold policy

end InferTwin
