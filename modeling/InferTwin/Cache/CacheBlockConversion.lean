import InferTwin.Cache.BlockSize
import InferTwin.Request.SimulationRequest

namespace InferTwin

structure CacheBlockConversionInput where
  promptTokens : ℕ
  blockSize : BlockSizeResolution
  matchedBlocks : Option ℕ := none
  speculativeDropBlocks : ℕ := 0
  deriving DecidableEq, Repr

namespace CacheBlockConversionInput

def baseResult (config : CacheBlockConversionInput) :
    Except BlockSizeError CacheBlockConversionResult :=
  if config.blockSize.effectiveBlockSize = 0 then .error .zeroDivision
  else .ok {
    requestedBlockSize := config.blockSize.requestedBlockSize
    runtimeBlockSize := config.blockSize.runtimeBlockSize
    effectiveBlockSize := config.blockSize.effectiveBlockSize
    maxCacheHitLength := config.promptTokens - 1
    maxMatchableBlocks := (config.promptTokens - 1) / config.blockSize.effectiveBlockSize
    matchedBlocks := 0
    speculativeDropBlocks := config.speculativeDropBlocks
    cachedBlocks := 0
    cachedTokens := 0 }

/-- `CacheBlockConversionPolicy.calculate`: how many tokens a match of whole blocks saves. -/
def calculate (config : CacheBlockConversionInput) :
    Except BlockSizeError CacheBlockConversionResult := do
  let base ← config.baseResult
  match config.blockSize.unsupportedReason with
  | some reason => return { base with unsupportedReason := some reason }
  | none =>
    let matchedBlocks :=
      min (config.matchedBlocks.getD base.maxMatchableBlocks) base.maxMatchableBlocks
    let cachedBlocks := matchedBlocks - config.speculativeDropBlocks
    return { base with
      matchedBlocks
      cachedBlocks
      cachedTokens := cachedBlocks * config.blockSize.effectiveBlockSize }

/-- The result for a supported block size. -/
theorem calculate_ok (config : CacheBlockConversionInput)
    (hpos : 0 < config.blockSize.effectiveBlockSize) (hsupported : config.blockSize.supported) :
    ∃ result, config.calculate = .ok result ∧
      result.effectiveBlockSize = config.blockSize.effectiveBlockSize ∧
      result.maxCacheHitLength = config.promptTokens - 1 ∧
      result.maxMatchableBlocks =
        (config.promptTokens - 1) / config.blockSize.effectiveBlockSize ∧
      result.speculativeDropBlocks = config.speculativeDropBlocks ∧
      result.cachedTokens =
        (min (config.matchedBlocks.getD result.maxMatchableBlocks) result.maxMatchableBlocks
          - config.speculativeDropBlocks) * config.blockSize.effectiveBlockSize ∧
      result.unsupportedReason = none := by
  have hreason : config.blockSize.unsupportedReason = none := by
    simpa [BlockSizeResolution.supported] using hsupported
  unfold calculate baseResult
  rw [if_neg hpos.ne', hreason]
  exact ⟨_, rfl, rfl, rfl, rfl, rfl, rfl, rfl⟩

end CacheBlockConversionInput

end InferTwin
