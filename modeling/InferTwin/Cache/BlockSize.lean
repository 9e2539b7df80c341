import InferTwin.Foundation.Effect
import InferTwin.Foundation.Text
import Mathlib.Algebra.GCDMonoid.Nat
import Mathlib.Data.Nat.Basic

namespace InferTwin

open Effect

/-- Which attention layers a cache holds blocks for; any other text is unsupported. -/
inductive CacheFamily
  | fullAttention | slidingWindow | mamba | hybrid | other (text : String)
  deriving DecidableEq, Repr

def CacheFamily.text : CacheFamily → String
  | fullAttention => "full_attention"
  | slidingWindow => "sliding_window"
  | mamba => "mamba"
  | hybrid => "hybrid"
  | other text => text

/-- The exceptions of block-size resolution and of the conversion that uses it. -/
inductive BlockSizeError
  | nonPositive (fieldName : String)
  | zeroDivision
  deriving DecidableEq, Repr

def BlockSizeError.message : BlockSizeError → String
  | nonPositive fieldName => fieldName ++ " must be a positive integer"
  | zeroDivision => "integer division or modulo by zero"

structure BlockSizeInput where
  requestedBlockSize : ℕ
  runtimeBlockSize : Option ℕ := none
  prefillContextParallelSize : ℕ := 1
  decodeContextParallelSize : ℕ := 1
  cacheFamily : CacheFamily := .fullAttention
  hybridGroupBlockSizes : List ℕ := []
  deriving DecidableEq, Repr

structure BlockSizeResolution where
  requestedBlockSize : ℕ
  runtimeBlockSize : ℕ
  effectiveBlockSize : ℕ
  prefillContextParallelSize : ℕ
  decodeContextParallelSize : ℕ
  cacheFamily : CacheFamily
  hybridGroupBlockSizes : List ℕ := []
  unsupportedReason : Option String := none
  deriving DecidableEq, Repr

def BlockSizeResolution.supported (resolution : BlockSizeResolution) : Bool :=
  resolution.unsupportedReason.isNone

def requirePositiveInt (value : ℕ) (fieldName : String) : Except BlockSizeError Unit :=
  if value = 0 then .error (.nonPositive fieldName) else .ok ()

def requirePositiveIntTuple : List ℕ → String → Except BlockSizeError Unit
  | [], _ => .ok ()
  | value :: values, fieldName => do
    requirePositiveInt value (fieldName ++ "[]")
    requirePositiveIntTuple values fieldName

namespace BlockSizeInput

/-- What both outcomes of a resolution have in common. -/
def resolved (config : BlockSizeInput) (runtimeBlockSize effectiveBlockSize : ℕ)
    (unsupportedReason : Option String) : BlockSizeResolution :=
  { requestedBlockSize := config.requestedBlockSize
    runtimeBlockSize
    effectiveBlockSize
    prefillContextParallelSize := config.prefillContextParallelSize
    decodeContextParallelSize := config.decodeContextParallelSize
    cacheFamily := config.cacheFamily
    hybridGroupBlockSizes := config.hybridGroupBlockSizes
    unsupportedReason }

def unsupported (config : BlockSizeInput) (runtimeBlockSize : ℕ) (reason : String) :
    BlockSizeResolution :=
  config.resolved runtimeBlockSize runtimeBlockSize (some reason)

/-- `BlockSizeResolver.resolve`. -/
def resolve (config : BlockSizeInput) : Except BlockSizeError BlockSizeResolution := do
  requirePositiveInt config.requestedBlockSize "requested_block_size"
  -- an absent size and a zero are both replaced by the requested one
  let runtimeBlockSize := match config.runtimeBlockSize with
    | some (size + 1) => size + 1
    | _ => config.requestedBlockSize
  requirePositiveInt runtimeBlockSize "runtime_block_size"
  requirePositiveInt config.prefillContextParallelSize "prefill_context_parallel_size"
  requirePositiveInt config.decodeContextParallelSize "decode_context_parallel_size"
  let contextParallelFactor :=
    config.prefillContextParallelSize * config.decodeContextParallelSize
  match config.cacheFamily with
  | .other text =>
    return config.unsupported runtimeBlockSize ("unsupported cache_family " ++ reprText text)
  | .fullAttention =>
    return config.resolved runtimeBlockSize (runtimeBlockSize * contextParallelFactor) none
  | family =>
    if contextParallelFactor > 1 then
      return config.unsupported runtimeBlockSize
        ("context parallelism is unsupported for cache_family " ++ reprText family.text)
    else if family = .hybrid then
      if config.hybridGroupBlockSizes.isEmpty then
        return config.unsupported runtimeBlockSize
          "hybrid cache_family requires hybrid_group_block_sizes"
      else
        requirePositiveIntTuple config.hybridGroupBlockSizes "hybrid_group_block_sizes"
        return config.resolved runtimeBlockSize
          (config.hybridGroupBlockSizes.foldl Nat.lcm runtimeBlockSize) none
    else return config.resolved runtimeBlockSize runtimeBlockSize none

end BlockSizeInput

end InferTwin
