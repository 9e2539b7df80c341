import InferTwin.Errors
import InferTwin.Request.SimulationRequest

namespace InferTwin

inductive CacheTier
  | hbm | ddr
  deriving DecidableEq, Repr

inductive CacheEventType
  | lookupHit | lookupMiss | materialize | evict | store
  deriving DecidableEq, Repr

structure CacheEvent where
  eventType : CacheEventType
  timestampMs : ℚ
  instanceUuid : String
  requestId : String
  blockKey : String
  blockIndex : ℕ
  tokenCount : ℕ
  cacheTier : CacheTier
  reason : String
  evictionPolicy : String
  hbmUsedBlocks : ℕ
  hbmCapacityBlocks : ℕ
  ddrUsedBlocks : ℕ := 0
  ddrCapacityBlocks : ℕ := 0
  sourceTier : Option CacheTier := none
  targetTier : Option CacheTier := none
  storeTokens : ℕ := 0
  deriving DecidableEq, Repr

/-- A raw lookup: which blocks are resident, tier by tier. -/
structure PrefixLookupResult where
  hbmHitBlocks : List PrefixBlock
  ddrHitBlocks : List PrefixBlock
  missBlocks : List PrefixBlock
  deriving DecidableEq, Repr

namespace PrefixLookupResult

def hbmHitTokens (lookup : PrefixLookupResult) : ℕ := blockTokens lookup.hbmHitBlocks

def ddrHitTokens (lookup : PrefixLookupResult) : ℕ := blockTokens lookup.ddrHitBlocks

def missTokens (lookup : PrefixLookupResult) : ℕ := blockTokens lookup.missBlocks

/-- The blocks found resident in either tier. -/
def hitBlocks (lookup : PrefixLookupResult) : List PrefixBlock :=
  lookup.hbmHitBlocks ++ lookup.ddrHitBlocks

end PrefixLookupResult

/-- The protocol a replay engine consumes, over a cache object with state `C`. -/
structure PrefixCache (C : Type) where
  lookupPrefix (blocks : List PrefixBlock) (nowMs : ℚ) (requestId instanceUuid : String) :
    EStateM CacheError C PrefixLookupResult
  materialize (blocks : List PrefixBlock) (nowMs : ℚ) (requestId instanceUuid : String)
    (reason : String) : EStateM CacheError C Unit
  takeEvents : C → List CacheEvent × C

namespace PrefixCache

variable {C : Type} (cache : PrefixCache C)

/-- A lookup that returns splits the blocks it was asked about into an HBM-hit prefix, a
DDR-hit middle and a miss tail. -/
def Splits : Prop :=
  ∀ blocks nowMs requestId instanceUuid c lookup c',
    cache.lookupPrefix blocks nowMs requestId instanceUuid c = .ok lookup c' →
      lookup.hbmHitBlocks ++ lookup.ddrHitBlocks ++ lookup.missBlocks = blocks

/-- A lookup always returns, and splits the blocks it was asked about. -/
def Partitions : Prop :=
  ∀ blocks nowMs requestId instanceUuid c, ∃ lookup c',
    cache.lookupPrefix blocks nowMs requestId instanceUuid c = .ok lookup c' ∧
      lookup.hbmHitBlocks ++ lookup.ddrHitBlocks ++ lookup.missBlocks = blocks

theorem Partitions.splits {cache : PrefixCache C} (h : cache.Partitions) : cache.Splits := by
  intro blocks nowMs requestId instanceUuid c lookup c' hlookup
  obtain ⟨lookup', _, hlookup', hsplit⟩ := h blocks nowMs requestId instanceUuid c
  rw [hlookup] at hlookup'
  cases hlookup'
  exact hsplit

end PrefixCache

end InferTwin
