import InferTwin.Cache.Tiered
import InferTwin.Foundation.Sha256
import InferTwin.Latency.Backends
import InferTwin.Replay.Run
import InferTwin.Request.BlockHasher
import InferTwin.Streaming.Replay

/-! A small deployment: one instance, a batch of four tokens and two requests, the default
formula backend. Statements about all deployments are tried on it. -/

namespace InferTwin.Sample

def block (key : String) (blockIndex tokenCount : ℕ) : PrefixBlock where
  blockKey := key
  contentHash := key
  blockIndex
  tokenCount
  sizeBytes := 2 * tokenCount

def request (requestId : String) (startTimeMs : ℚ) (blocks : List PrefixBlock) :
    SimulationRequest where
  requestId
  tenantId := "tenant"
  instanceUuid := "instance"
  model := "model"
  serviceStartTime := { microseconds := 0 }
  startTimeMs
  tokenizerProfile := "profile"
  promptTokens := blockTokens blocks
  promptBlocks := blocks
  kvBytesPerToken := some 2
  effectiveBlockSize := some 2

def config : SchedulerConfig where
  maxNumBatchedTokens := 4
  maxNumSeqs := 2
  tokens_pos := by decide
  seqs_pos := by decide
  threshold_pos := by simp

theorem start_nonneg : (0 : ℚ) ≤ 0 := le_rfl

def formula : FormulaLatencyBackend where
  fixed_nonneg := by norm_num
  prefill_nonneg := by norm_num
  batch_nonneg := by norm_num
  context_nonneg := by norm_num

/-- The engine of the deployment, with a cache that never evicts. -/
def engine (config : SchedulerConfig) (timelineMode : TimelineMode) (clock : Clock) :
    Engine InfiniteState Unit where
  config
  latencyBackend := formula.toBackend
  cache := InfiniteHBMCache
  sink := NullCacheEventSink
  materializationPolicy := defaultMaterializationPolicy timelineMode
  timelineMode
  clock
  supports_chunks := by
    rintro rfl
    rfl

/-- The deployment as it is constructed, with one such cache for each instance. -/
def fleet (config : SchedulerConfig) (timelineMode : TimelineMode) :
    BatchAwareReplayEngine InfiniteState Unit where
  config
  latencyBackend := formula.toBackend
  cacheFactory _ := (InfiniteHBMCache, ∅)
  sink := NullCacheEventSink
  materializationPolicy := defaultMaterializationPolicy timelineMode
  timelineMode
  supports_chunks := by
    rintro rfl
    rfl

def world : World InfiniteState Unit where
  cache := ∅
  sink := ()
  memo := ∅

/-- Two requests of three tokens each, which arrive together. -/
def pair : List SimulationRequest :=
  [request "a" 0 [block "x" 0 2, block "y" 1 1], request "b" 0 [block "x" 0 2, block "z" 1 1]]

def tokens : BlockSettings where
  blockSizeTokens := 2
  model := ""
  tenantId := ""
  cacheScope := .modelShared

/-- The blocks of the tokens 1 to 5. -/
def hashed : List PrefixBlock := [
  { blockKey := "c5ca341254a5ae862003d573a0240cea37e2a1d99a39d6b997dcf4655807f52a"
    contentHash := "78d68721debb423cf880232869a63e2522c3dd6187159cbeb15b3ee7e15925f8"
    blockIndex := 0
    tokenCount := 2
    sizeBytes := 0 },
  { blockKey := "1cf26836b60a81007155d27a4ac114e68d4bab9955b619afecbc53163280a08b"
    contentHash := "7431d72abfd849c57f1eaa4acacc1c2adf4986a5b6c247505ff636787703c6af"
    blockIndex := 1
    tokenCount := 2
    sizeBytes := 0 },
  { blockKey := "05fd7fef96bd19215963e5d8f77292ea9a0b38f9e58582fb2c34bdd10ab12771"
    contentHash := "cb9a02f579da3ffa03dc3ed340e0162018c4c446875d8b15d9f4e23152b25822"
    blockIndex := 2
    tokenCount := 1
    sizeBytes := 0 }]

theorem build_hashed : buildPrefixBlocks Sha256.digest [1, 2, 3, 4, 5] tokens = .ok hashed := by
  decide +kernel

end InferTwin.Sample
