import InferTwin.Cache.LruTier

namespace InferTwin

open Effect

/-- An HBM cache over a DDR tier of the same instance. -/
structure TieredState where
  hbm : TierState := {}
  ddr : TierState := {}
  events : List CacheEvent := []

/-- The capacities of both tiers. -/
structure TieredCapacity where
  hbmBlocks : ℕ
  ddrBlocks : ℕ
  hbm_pos : 0 < hbmBlocks
  ddr_pos : 0 < ddrBlocks

namespace TieredPrefixCache

variable (capacity : TieredCapacity)

def onHbm {α : Type} (x : EStateM CacheError TierState α) : EStateM CacheError TieredState α :=
  zoom id TieredState.hbm (fun hbm state ↦ { state with hbm }) x

def onDdr {α : Type} (x : EStateM CacheError TierState α) : EStateM CacheError TieredState α :=
  zoom id TieredState.ddr (fun ddr state ↦ { state with ddr }) x

def drainHbmEvents (state : TieredState) : TieredState :=
  let drained := LruTier.takeEvents state.hbm
  { state with hbm := drained.2, events := state.events ++ drained.1 }

def drainDdrEvents (state : TieredState) : TieredState :=
  let drained := LruTier.takeEvents state.ddr
  { state with ddr := drained.2, events := state.events ++ drained.1 }

/-- What the DDR tier is told about the call and the HBM tier. -/
def ddrCall (nowMs : ℚ) (requestId instanceUuid : String) (state : TieredState) : TierCall where
  nowMs
  requestId
  instanceUuid
  hbmUsedBlocks := LruTier.residentBlocks state.hbm
  hbmCapacityBlocks := capacity.hbmBlocks

def lookupPrefix (blocks : List PrefixBlock) (nowMs : ℚ) (requestId instanceUuid : String) :
    EStateM CacheError TieredState PrefixLookupResult := do
  let hbmLookup ← onHbm (HBMCache.lookupPrefix capacity.hbmBlocks capacity.hbm_pos blocks nowMs
    requestId instanceUuid)
  modify drainHbmEvents
  let call := ddrCall capacity nowMs requestId instanceUuid (← get)
  let ddrLookup ← onDdr (DDRLRUCache.lookupPrefix capacity.ddrBlocks capacity.ddr_pos
    hbmLookup.missBlocks call)
  modify drainDdrEvents
  return {
    hbmHitBlocks := hbmLookup.hbmHitBlocks
    ddrHitBlocks := ddrLookup.ddrHitBlocks
    missBlocks := ddrLookup.missBlocks }

def ddrStoreReason (hbmMaterializeReason : String) : String :=
  if hbmMaterializeReason = "progressive_chunk_materialization" then "progressive_chunk_store"
  else "finish_time_store"

def materialize (blocks : List PrefixBlock) (nowMs : ℚ) (requestId instanceUuid : String)
    (reason : String) : EStateM CacheError TieredState Unit := do
  onHbm (HBMCache.materialize capacity.hbmBlocks capacity.hbm_pos blocks nowMs requestId
    instanceUuid reason)
  modify drainHbmEvents
  let call := ddrCall capacity nowMs requestId instanceUuid (← get)
  onDdr (DDRLRUCache.store capacity.ddrBlocks capacity.ddr_pos blocks call
    (ddrStoreReason reason))
  modify drainDdrEvents

def takeEvents (state : TieredState) : List CacheEvent × TieredState :=
  let drained := drainDdrEvents (drainHbmEvents state)
  (drained.events, { drained with events := [] })

end TieredPrefixCache

/-- HBM first, then the DDR tier for the blocks that HBM missed. -/
def TieredPrefixCache (capacity : TieredCapacity) : PrefixCache TieredState where
  lookupPrefix := TieredPrefixCache.lookupPrefix capacity
  materialize := TieredPrefixCache.materialize capacity
  takeEvents := TieredPrefixCache.takeEvents

/-- Metadata of a block in a cache that never evicts. -/
structure CacheBlockMeta where
  blockIndex : ℕ
  tokenCount : ℕ
  sizeBytes : ℕ
  createdTimeMs : ℚ
  lastAccessTimeMs : ℚ
  hitCount : ℕ := 0
  deriving DecidableEq, Repr

abbrev InfiniteState := Dict String CacheBlockMeta

namespace InfiniteHBMCache

/-- The hit loop of a lookup. -/
def lookupHits (nowMs : ℚ) : List PrefixBlock → InfiniteState → List PrefixBlock × InfiniteState
  | [], blocks => ([], blocks)
  | block :: rest, blocks =>
    match blocks.lookup block.blockKey with
    | none => ([], blocks)
    | some existing =>
      let (hits, blocks) := lookupHits nowMs rest (blocks.insert block.blockKey { existing with
        hitCount := existing.hitCount + 1, lastAccessTimeMs := nowMs })
      (block :: hits, blocks)

def lookupPrefix (blocks : List PrefixBlock) (nowMs : ℚ) (_requestId _instanceUuid : String) :
    EStateM CacheError InfiniteState PrefixLookupResult := fun state ↦
  let (hits, state) := lookupHits nowMs blocks state
  .ok { hbmHitBlocks := hits, ddrHitBlocks := [], missBlocks := blocks.drop hits.length } state

/-- `setdefault` of one block. -/
def addBlock (nowMs : ℚ) (blocks : InfiniteState) (block : PrefixBlock) : InfiniteState :=
  if block.blockKey ∈ blocks then blocks
  else blocks.insert block.blockKey {
    blockIndex := block.blockIndex
    tokenCount := block.tokenCount
    sizeBytes := block.sizeBytes
    createdTimeMs := nowMs
    lastAccessTimeMs := nowMs }

def materialize (blocks : List PrefixBlock) (nowMs : ℚ) (_requestId _instanceUuid : String)
    (_reason : String) : EStateM CacheError InfiniteState Unit :=
  modify fun state ↦ blocks.foldl (addBlock nowMs) state

end InfiniteHBMCache

/-- The ideal cache: no capacity, no eviction, no events. -/
def InfiniteHBMCache : PrefixCache InfiniteState where
  lookupPrefix := InfiniteHBMCache.lookupPrefix
  materialize := InfiniteHBMCache.materialize
  takeEvents state := ([], state)

end InferTwin
