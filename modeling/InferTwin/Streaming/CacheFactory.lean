import InferTwin.Cache.Repository
import InferTwin.Config.ModelRegistry
import InferTwin.Experiment.SweepConfig
import InferTwin.Replay.Metrics

namespace InferTwin

open Config

/-- Cache backend selection for streaming replay. -/
inductive CacheMode
  | hbmLru | hbmDdrLru | progressive
  deriving DecidableEq, Repr

namespace CacheMode

def value : CacheMode → String
  | hbmLru => "batch_aware_hbm_lru"
  | hbmDdrLru => "batch_aware_hbm_ddr_lru"
  | progressive => "batch_aware_hbm_ddr_lru_progressive_timeline"

/-- `timeline_mode_for_cache_mode`. -/
def timelineMode : CacheMode → TimelineMode
  | hbmLru | hbmDdrLru => .legacy
  | progressive => .progressive

end CacheMode

/-- `ttft_granularity_for_timeline_mode`. -/
def TimelineMode.ttftGranularity : TimelineMode → TtftGranularity
  | legacy => .iteration
  | progressive => .chunk

/-- Validate and normalize streaming replay cache mode. -/
def buildStreamingCacheFactoryConfig (config : List (String × Json)) :
    Except ConfigError CacheMode := do
  let cacheConfig ← Sweep.optionalMapping config "cache"
  let text (key default : String) : Except ConfigError String :=
    match getOr cacheConfig key (.str default) with
    | .str text => .ok text
    | _ => .error (.stringRequired ("cache." ++ key))
  let evictionPolicy ← text "eviction_policy" "lru"
  refuseIf (evictionPolicy ≠ "lru") (.onlySupports "streaming replay" "cache.eviction_policy: lru")
  let mode ← text "mode" ""
  let legacyPolicy ← text "policy" "hbm"
  refuseIf (legacyPolicy ≠ "hbm") (.onlySupports "streaming replay" "legacy cache.policy: hbm")
  let modes := [CacheMode.hbmLru, .hbmDdrLru, .progressive]
  if mode = "" then return .hbmLru
  else
    match modes.find? fun option ↦ option.value = mode with
    | some option => return option
    | none => throw (.cacheModes (modes.map CacheMode.value))

/-- A cache object in its first state. -/
structure BuiltCache where
  C : Type
  cache : PrefixCache C
  start : C

/-- `_require_ddr_defaults`: the DDR capacity, once the pooling flags are checked. -/
def requireDdrDefaults (instanceUuid : String) (cacheDefaults : Option ModelCacheDefaults) :
    Except ConfigError ℕ+ :=
  match cacheDefaults with
  | none => .error (.ddrDefaultsMissing instanceUuid)
  | some defaults =>
    let pooling := defaults.pooling
    if ¬pooling.enabled then
      .error (.ddrRequires "requires default_cache.pooling.enabled=true" instanceUuid)
    else if ¬pooling.singleInstance then
      .error (.ddrRequires "only supports single_instance pooling" instanceUuid)
    else if pooling.multiInstance then
      .error (.ddrRequires "does not support multi_instance pooling" instanceUuid)
    else if ¬pooling.ddrEnabled then
      .error (.ddrRequires "requires default_cache.pooling.ddr_enabled=true" instanceUuid)
    else if pooling.remoteEnabled then
      .error (.ddrRequires "does not support remote pooling" instanceUuid)
    else if pooling.ssdEnabled then
      .error (.ddrRequires "does not support SSD pooling" instanceUuid)
    else
      match defaults.ddrCapacityBlocks with
      | none => .error (.ddrRequires "requires default_cache.ddr_capacity_blocks" instanceUuid)
      | some blocks => .ok blocks

def hbmCache (capacity : ℕ+) : BuiltCache where
  C := TierState
  cache := HBMCache capacity capacity.pos
  start := {}

def tieredCache (capacity ddrCapacityBlocks : ℕ+) : BuiltCache where
  C := TieredState
  cache := TieredPrefixCache {
    hbmBlocks := capacity
    ddrBlocks := ddrCapacityBlocks
    hbm_pos := capacity.pos
    ddr_pos := ddrCapacityBlocks.pos }
  start := {}

/-- Build one isolated cache backend for one streaming shard replay. -/
def buildStreamingPrefixCache (capacity : ℕ+) (instanceUuid : String)
    (cacheDefaults : Option ModelCacheDefaults) (mode : CacheMode) :
    Except ConfigError BuiltCache :=
  if ∃ defaults ∈ cacheDefaults, defaults.evictionPolicy ≠ "lru" then
    .error (.onlySupports ("model default cache for " ++ reprText instanceUuid) "lru")
  else
    match mode with
    | .hbmLru => .ok (hbmCache capacity)
    | .hbmDdrLru | .progressive =>
      match requireDdrDefaults instanceUuid cacheDefaults with
      | .error error => .error error
      | .ok ddrCapacityBlocks => .ok (tieredCache capacity ddrCapacityBlocks)

end InferTwin
