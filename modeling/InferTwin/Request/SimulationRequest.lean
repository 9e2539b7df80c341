import Mathlib.Algebra.Order.Ring.Rat
import Mathlib.Data.List.Sort
import Mathlib.Data.Prod.Lex
import Mathlib.Data.String.Basic
import Mathlib.Tactic.Linarith
import Mathlib.Tactic.Positivity

namespace InferTwin

/-- What a check against negative values leaves. -/
theorem nonneg_of_not_neg {value : ℚ} (h : ¬value < 0) : 0 ≤ value := not_lt.mp h

/-- Hash-only metadata of one prefix block. -/
structure PrefixBlock where
  blockKey : String
  contentHash : String
  blockIndex : ℕ
  tokenCount : ℕ
  sizeBytes : ℕ
  deriving DecidableEq, Repr

/-- The token counts of a list of blocks, added up. -/
def blockTokens (blocks : List PrefixBlock) : ℕ := (blocks.map PrefixBlock.tokenCount).sum

@[simp] theorem blockTokens_nil : blockTokens [] = 0 := rfl

@[simp] theorem blockTokens_cons (b : PrefixBlock) (bs : List PrefixBlock) :
    blockTokens (b :: bs) = b.tokenCount + blockTokens bs := by simp [blockTokens]

@[simp] theorem blockTokens_append (bs cs : List PrefixBlock) :
    blockTokens (bs ++ cs) = blockTokens bs + blockTokens cs := by simp [blockTokens]

structure CacheBlockConversionResult where
  requestedBlockSize : ℕ
  runtimeBlockSize : ℕ
  effectiveBlockSize : ℕ
  maxCacheHitLength : ℕ
  maxMatchableBlocks : ℕ
  matchedBlocks : ℕ
  speculativeDropBlocks : ℕ
  cachedBlocks : ℕ
  cachedTokens : ℕ
  unsupportedReason : Option String := none
  deriving DecidableEq, Repr

def CacheBlockConversionResult.supported (result : CacheBlockConversionResult) : Bool :=
  result.unsupportedReason.isNone

/-- A timestamp: microseconds since the epoch, and the offset of an aware value. -/
structure Datetime where
  microseconds : ℤ
  utcOffsetMinutes : Option ℤ := none
  deriving DecidableEq, Repr

/-- A time with an offset. It has no order with a time without one. -/
def Datetime.aware (time : Datetime) : Bool := time.utcOffsetMinutes.isSome

structure SimulationRequest where
  requestId : String
  tenantId : String
  instanceUuid : String
  model : String
  serviceStartTime : Datetime
  startTimeMs : ℚ
  tokenizerProfile : String
  promptTokens : ℕ
  promptBlocks : List PrefixBlock
  kvBytesPerToken : Option ℕ
  requestedBlockSize : Option ℕ := none
  runtimeBlockSize : Option ℕ := none
  effectiveBlockSize : Option ℕ := none
  blockConversionResult : Option CacheBlockConversionResult := none
  deriving DecidableEq, Repr

namespace SimulationRequest

/-- The order of replay: start time first, request id on ties. -/
def sortKey (request : SimulationRequest) : ℚ ×ₗ String :=
  toLex (request.startTimeMs, request.requestId)

/-- `sorted` by the order of replay. -/
def sorted (requests : List SimulationRequest) : List SimulationRequest :=
  requests.insertionSort fun a b ↦ a.sortKey ≤ b.sortKey

theorem sorted_perm (requests : List SimulationRequest) : (sorted requests).Perm requests :=
  requests.perm_insertionSort _

theorem startTime_le_of_sortKey_le {a b : SimulationRequest} (h : a.sortKey ≤ b.sortKey) :
    a.startTimeMs ≤ b.startTimeMs := by
  rcases Prod.Lex.le_iff.mp h with h | h
  · exact h.le
  · exact h.1.le

theorem sortKey_injective_on_ids {a b : SimulationRequest} (h : a.sortKey = b.sortKey) :
    a.requestId = b.requestId :=
  congrArg (fun k : ℚ ×ₗ String ↦ (ofLex k).2) h

end SimulationRequest

end InferTwin
