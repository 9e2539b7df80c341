import InferTwin.Cache.Eviction
import InferTwin.Cache.Interface
import InferTwin.Foundation.Effect

namespace InferTwin

open Effect

/-- Metadata of a resident block. Its key is the one it is stored under. -/
structure BlockMeta where
  blockIndex : ℕ
  tokenCount : ℕ
  sizeBytes : ℕ
  createdTimeMs : ℚ
  lastAccessTimeMs : ℚ
  lastAccessSeq : ℕ
  hitCount : ℕ := 0
  writtenByRequestId : String := ""
  instanceUuid : String := ""
  deriving DecidableEq, Repr

/-- The mutable object of one finite tier with its LRU policy. -/
structure TierState where
  blocks : Dict String BlockMeta := ∅
  recency : Recency := []
  events : List CacheEvent := []
  accessSeq : ℕ := 0

/-- What the HBM and the DDR cache differ in: capacity, tier, and the event of a write. -/
structure LruTier where
  tier : CacheTier
  capacityBlocks : ℕ
  writeEvent : CacheEventType
  capacity_pos : 0 < capacityBlocks

/-- The arguments all operations of a tier share. Only the DDR tier is told of HBM usage. -/
structure TierCall where
  nowMs : ℚ
  requestId : String
  instanceUuid : String
  hbmUsedBlocks : ℕ := 0
  hbmCapacityBlocks : ℕ := 0

namespace LruTier

variable (tier : LruTier) (call : TierCall)

def residentBlocks (state : TierState) : ℕ := state.blocks.len

/-- An event of the tier, with the usage of both tiers as it reports it. -/
def event (state : TierState) (eventType : CacheEventType) (instanceUuid key : String)
    (blockIndex tokenCount : ℕ) (reason : String) (sourceTier targetTier : Option CacheTier)
    (storeTokens : ℕ) : CacheEvent where
  eventType
  timestampMs := call.nowMs
  instanceUuid
  requestId := call.requestId
  blockKey := key
  blockIndex
  tokenCount
  cacheTier := tier.tier
  reason
  evictionPolicy := LRUEvictionPolicy.name
  hbmUsedBlocks := match tier.tier with
    | .hbm => residentBlocks state
    | .ddr => call.hbmUsedBlocks
  hbmCapacityBlocks := match tier.tier with
    | .hbm => tier.capacityBlocks
    | .ddr => call.hbmCapacityBlocks
  ddrUsedBlocks := match tier.tier with
    | .hbm => 0
    | .ddr => residentBlocks state
  ddrCapacityBlocks := match tier.tier with
    | .hbm => 0
    | .ddr => tier.capacityBlocks
  sourceTier
  targetTier
  storeTokens

def emit (eventType : CacheEventType) (block : PrefixBlock) (reason : String)
    (sourceTier targetTier : Option CacheTier) (storeTokens : ℕ) :
    EStateM CacheError TierState Unit :=
  modify fun state ↦ { state with
    events := state.events ++ [tier.event call state eventType call.instanceUuid block.blockKey
      block.blockIndex block.tokenCount reason sourceTier targetTier storeTokens] }

/-- The tier itself on an event of the DDR cache, nothing on one of the HBM cache. -/
def ddrLabel : Option CacheTier :=
  match tier.tier with
  | .hbm => none
  | .ddr => some .ddr

/-- A resident block was used: its metadata, then the policy. -/
def access (key : String) (block : BlockMeta) (countHit : Bool) :
    EStateM CacheError TierState Unit := do
  modify fun state ↦ { state with
    accessSeq := state.accessSeq + 1
    blocks := state.blocks.insert key { block with
      lastAccessTimeMs := call.nowMs
      lastAccessSeq := state.accessSeq + 1
      hitCount := if countHit then block.hitCount + 1 else block.hitCount } }
  let recency ← check (LRUEvictionPolicy.onAccess (← get).recency key)
  modify fun state ↦ { state with recency }

/-- The hit loop of a lookup: it stops at the first block that is not resident. -/
def lookupHits : List PrefixBlock → EStateM CacheError TierState (List PrefixBlock)
  | [] => pure []
  | block :: blocks => do
    match (← get).blocks.lookup block.blockKey with
    | none => return []
    | some existing =>
      access call block.blockKey existing true
      tier.emit call .lookupHit block "prefix_hit" tier.ddrLabel none 0
      let hits ← lookupHits blocks
      return block :: hits

def emitMisses : List PrefixBlock → EStateM CacheError TierState Unit
  | [] => pure ()
  | block :: blocks => do
    tier.emit call .lookupMiss block "prefix_miss" none none 0
    emitMisses blocks

/-- The contiguous hit prefix and the misses after it. -/
def lookupPrefix (blocks : List PrefixBlock) :
    EStateM CacheError TierState (List PrefixBlock × List PrefixBlock) := do
  let hits ← tier.lookupHits call blocks
  let misses := blocks.drop hits.length
  tier.emitMisses call misses
  return (hits, misses)

def evictOne : EStateM CacheError TierState Unit := do
  let state ← get
  let victim ← check (LRUEvictionPolicy.selectVictim state.recency state.blocks)
  modify fun state ↦ { state with blocks := state.blocks.erase victim.1 }
  let recency ← check (LRUEvictionPolicy.onRemove state.recency victim.1)
  let instanceUuid := if call.instanceUuid ≠ "" then call.instanceUuid else victim.2.instanceUuid
  modify fun state ↦ { state with
    recency
    events := state.events ++ [tier.event call state .evict instanceUuid victim.1
      victim.2.blockIndex victim.2.tokenCount "capacity" none none 0] }

/-- Evict until there is room. A full tier needs no more turns than it has blocks. -/
def evictLoop : ℕ → EStateM CacheError TierState Unit
  | 0 => pure ()
  | turns + 1 => do
    if (← get).blocks.len ≥ tier.capacityBlocks then
      tier.evictOne call
      evictLoop turns

def insertBlock (block : PrefixBlock) : EStateM CacheError TierState Unit :=
  modify fun state ↦ { state with
    accessSeq := state.accessSeq + 1
    blocks := state.blocks.insert block.blockKey {
      blockIndex := block.blockIndex
      tokenCount := block.tokenCount
      sizeBytes := block.sizeBytes
      createdTimeMs := call.nowMs
      lastAccessTimeMs := call.nowMs
      lastAccessSeq := state.accessSeq + 1
      writtenByRequestId := call.requestId
      instanceUuid := call.instanceUuid }
    recency := LRUEvictionPolicy.onInsert state.recency block.blockKey }

/-- `materialize` of the HBM cache, `store` of the DDR cache. -/
def write (reason : String) : List PrefixBlock → EStateM CacheError TierState Unit
  | [] => pure ()
  | block :: blocks => do
    let state ← get
    match state.blocks.lookup block.blockKey with
    | some existing =>
      access call block.blockKey existing false
      write reason blocks
    | none =>
      tier.evictLoop call state.blocks.len
      insertBlock call block
      tier.emit call tier.writeEvent block reason none tier.ddrLabel
        (if tier.tier = .ddr then block.tokenCount else 0)
      write reason blocks

def takeEvents (state : TierState) : List CacheEvent × TierState :=
  (state.events, { state with events := [] })

end LruTier

namespace HBMCache

/-- The tier behind an HBM cache of a given capacity. -/
def tier (capacityBlocks : ℕ) (capacity_pos : 0 < capacityBlocks) : LruTier where
  tier := .hbm
  capacityBlocks
  writeEvent := .materialize
  capacity_pos

variable (capacityBlocks : ℕ) (capacity_pos : 0 < capacityBlocks)

def lookupPrefix (blocks : List PrefixBlock) (nowMs : ℚ) (requestId instanceUuid : String) :
    EStateM CacheError TierState PrefixLookupResult := do
  let (hits, misses) ← (tier capacityBlocks capacity_pos).lookupPrefix
    { nowMs, requestId, instanceUuid } blocks
  return { hbmHitBlocks := hits, ddrHitBlocks := [], missBlocks := misses }

def materialize (blocks : List PrefixBlock) (nowMs : ℚ) (requestId instanceUuid : String)
    (reason : String) : EStateM CacheError TierState Unit :=
  (tier capacityBlocks capacity_pos).write { nowMs, requestId, instanceUuid } reason blocks

end HBMCache

/-- The finite HBM cache under its LRU policy. -/
def HBMCache (capacityBlocks : ℕ) (capacity_pos : 0 < capacityBlocks) :
    PrefixCache TierState where
  lookupPrefix := HBMCache.lookupPrefix capacityBlocks capacity_pos
  materialize := HBMCache.materialize capacityBlocks capacity_pos
  takeEvents := LruTier.takeEvents

namespace DDRLRUCache

/-- The tier behind a DDR cache of a given capacity. -/
def tier (capacityBlocks : ℕ) (capacity_pos : 0 < capacityBlocks) : LruTier where
  tier := .ddr
  capacityBlocks
  writeEvent := .store
  capacity_pos

variable (capacityBlocks : ℕ) (capacity_pos : 0 < capacityBlocks)

def lookupPrefix (blocks : List PrefixBlock) (call : TierCall) :
    EStateM CacheError TierState PrefixLookupResult := do
  let (hits, misses) ← (tier capacityBlocks capacity_pos).lookupPrefix call blocks
  return { hbmHitBlocks := [], ddrHitBlocks := hits, missBlocks := misses }

def store (blocks : List PrefixBlock) (call : TierCall) (reason : String) :
    EStateM CacheError TierState Unit :=
  (tier capacityBlocks capacity_pos).write call reason blocks

end DDRLRUCache

end InferTwin
