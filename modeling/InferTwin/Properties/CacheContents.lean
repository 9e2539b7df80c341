import InferTwin.Cache.LruContents

namespace InferTwin

open Effect

/-- What can be asked of a finite cache. -/
inductive CacheCall
  | lookupPrefix (blocks : List PrefixBlock) (call : TierCall)
  | write (blocks : List PrefixBlock) (call : TierCall) (reason : String)
  | takeEvents

def HBMCache.serve (capacityBlocks : ℕ) (capacity_pos : 0 < capacityBlocks) :
    CacheCall → EStateM CacheError TierState (Option PrefixLookupResult)
  | .lookupPrefix blocks call => some <$> HBMCache.lookupPrefix capacityBlocks capacity_pos blocks
      call.nowMs call.requestId call.instanceUuid
  | .write blocks call reason => do
    HBMCache.materialize capacityBlocks capacity_pos blocks call.nowMs call.requestId
      call.instanceUuid reason
    return none
  | .takeEvents => do
    modify fun state ↦ (LruTier.takeEvents state).2
    return none

def DDRLRUCache.serve (capacityBlocks : ℕ) (capacity_pos : 0 < capacityBlocks) :
    CacheCall → EStateM CacheError TierState (Option PrefixLookupResult)
  | .lookupPrefix blocks call =>
    some <$> DDRLRUCache.lookupPrefix capacityBlocks capacity_pos blocks call
  | .write blocks call reason => do
    DDRLRUCache.store capacityBlocks capacity_pos blocks call reason
    return none
  | .takeEvents => do
    modify fun state ↦ (LruTier.takeEvents state).2
    return none

def TieredPrefixCache.serve (capacity : TieredCapacity) :
    CacheCall → EStateM CacheError TieredState (Option PrefixLookupResult)
  | .lookupPrefix blocks call => some <$> TieredPrefixCache.lookupPrefix capacity blocks
      call.nowMs call.requestId call.instanceUuid
  | .write blocks call reason => do
    TieredPrefixCache.materialize capacity blocks call.nowMs call.requestId call.instanceUuid reason
    return none
  | .takeEvents => do
    modify fun state ↦ (TieredPrefixCache.takeEvents state).2
    return none

namespace ReferenceLru

open Lru

/-- One reference list, whose hits are those of the HBM tier. -/
def hbm (capacityBlocks : ℕ) :
    CacheCall → List String → Option PrefixLookupResult × List String
  | .lookupPrefix blocks _, order => (some {
      hbmHitBlocks := hits PrefixBlock.blockKey order blocks
      ddrHitBlocks := []
      missBlocks := misses PrefixBlock.blockKey order blocks },
      lookup PrefixBlock.blockKey order blocks)
  | .write blocks _ _, order => (none, write PrefixBlock.blockKey capacityBlocks order blocks)
  | .takeEvents, order => (none, order)

/-- One reference list, whose hits are those of the DDR tier. -/
def ddr (capacityBlocks : ℕ) :
    CacheCall → List String → Option PrefixLookupResult × List String
  | .lookupPrefix blocks _, order => (some {
      hbmHitBlocks := []
      ddrHitBlocks := hits PrefixBlock.blockKey order blocks
      missBlocks := misses PrefixBlock.blockKey order blocks },
      lookup PrefixBlock.blockKey order blocks)
  | .write blocks _ _, order => (none, write PrefixBlock.blockKey capacityBlocks order blocks)
  | .takeEvents, order => (none, order)

/-- Two reference lists. The second is asked for what the first has missed, and both are
written. -/
def tiered (capacity : TieredCapacity) :
    CacheCall → List String × List String → Option PrefixLookupResult × List String × List String
  | .lookupPrefix blocks _, (hbm, ddr) =>
    let missed := misses PrefixBlock.blockKey hbm blocks
    (some {
      hbmHitBlocks := hits PrefixBlock.blockKey hbm blocks
      ddrHitBlocks := hits PrefixBlock.blockKey ddr missed
      missBlocks := misses PrefixBlock.blockKey ddr missed },
      lookup PrefixBlock.blockKey hbm blocks, lookup PrefixBlock.blockKey ddr missed)
  | .write blocks _ _, (hbm, ddr) =>
    (none, write PrefixBlock.blockKey capacity.hbmBlocks hbm blocks,
      write PrefixBlock.blockKey capacity.ddrBlocks ddr blocks)
  | .takeEvents, orders => (none, orders)

end ReferenceLru

theorem HBMCache.serve_refines {capacityBlocks : ℕ} (capacity_pos : 0 < capacityBlocks)
    (op : CacheCall) (state : TierState) (order : List String)
    (h : (HBMCache.tier capacityBlocks capacity_pos).Holds state order) :
    ∃ state', HBMCache.serve capacityBlocks capacity_pos op state =
        .ok (ReferenceLru.hbm capacityBlocks op order).1 state' ∧
      (HBMCache.tier capacityBlocks capacity_pos).Holds state'
        (ReferenceLru.hbm capacityBlocks op order).2 := by
  cases op with
  | lookupPrefix blocks call =>
    obtain ⟨state', hlookup, h'⟩ := h.lookupPrefix
      { nowMs := call.nowMs, requestId := call.requestId, instanceUuid := call.instanceUuid } blocks
    refine ⟨state', ?_, h'⟩
    simp only [HBMCache.serve, HBMCache.lookupPrefix, map_apply, bind_apply, hlookup]
    rfl
  | write blocks call reason =>
    obtain ⟨state', hwrite, h'⟩ := h.write
      { nowMs := call.nowMs, requestId := call.requestId, instanceUuid := call.instanceUuid }
      reason blocks
    refine ⟨state', ?_, h'⟩
    simp only [HBMCache.serve, HBMCache.materialize, bind_apply, hwrite]
    rfl
  | takeEvents => exact ⟨_, rfl, h.takeEvents⟩

theorem DDRLRUCache.serve_refines {capacityBlocks : ℕ} (capacity_pos : 0 < capacityBlocks)
    (op : CacheCall) (state : TierState) (order : List String)
    (h : (DDRLRUCache.tier capacityBlocks capacity_pos).Holds state order) :
    ∃ state', DDRLRUCache.serve capacityBlocks capacity_pos op state =
        .ok (ReferenceLru.ddr capacityBlocks op order).1 state' ∧
      (DDRLRUCache.tier capacityBlocks capacity_pos).Holds state'
        (ReferenceLru.ddr capacityBlocks op order).2 := by
  cases op with
  | lookupPrefix blocks call =>
    obtain ⟨state', hlookup, h'⟩ := h.lookupPrefix call blocks
    refine ⟨state', ?_, h'⟩
    simp only [DDRLRUCache.serve, DDRLRUCache.lookupPrefix, map_apply, bind_apply, hlookup]
    rfl
  | write blocks call reason =>
    obtain ⟨state', hwrite, h'⟩ := h.write call reason blocks
    refine ⟨state', ?_, h'⟩
    simp only [DDRLRUCache.serve, DDRLRUCache.store, bind_apply, hwrite]
    rfl
  | takeEvents => exact ⟨_, rfl, h.takeEvents⟩

/-- Both tiers of a tiered cache hold what their reference lists do. -/
def TieredCapacity.Holds (capacity : TieredCapacity) (state : TieredState)
    (orders : List String × List String) : Prop :=
  (HBMCache.tier capacity.hbmBlocks capacity.hbm_pos).Holds state.hbm orders.1 ∧
    (DDRLRUCache.tier capacity.ddrBlocks capacity.ddr_pos).Holds state.ddr orders.2

namespace TieredPrefixCache

@[simp] theorem drainHbmEvents_ddr (state : TieredState) :
    (drainHbmEvents state).ddr = state.ddr := rfl

theorem serve_refines (capacity : TieredCapacity) (op : CacheCall)
    (state : TieredState) (orders : List String × List String) (h : capacity.Holds state orders) :
    ∃ state', TieredPrefixCache.serve capacity op state =
        .ok (ReferenceLru.tiered capacity op orders).1 state' ∧
      capacity.Holds state' (ReferenceLru.tiered capacity op orders).2 := by
  obtain ⟨hbm, ddr⟩ := orders
  obtain ⟨hhbm, hddr⟩ := h
  cases op with
  | lookupPrefix blocks call =>
    obtain ⟨hbmState, hhbmLookup, hhbm'⟩ := hhbm.lookupPrefix
      { nowMs := call.nowMs, requestId := call.requestId, instanceUuid := call.instanceUuid } blocks
    obtain ⟨ddrState, hddrLookup, hddr'⟩ := hddr.lookupPrefix
      (ddrCall capacity call.nowMs call.requestId call.instanceUuid
        (drainHbmEvents { state with hbm := hbmState }))
      (Lru.misses PrefixBlock.blockKey hbm blocks)
    refine ⟨drainDdrEvents { drainHbmEvents { state with hbm := hbmState } with ddr := ddrState },
      ?_, hhbm'.takeEvents, hddr'.takeEvents⟩
    simp only [TieredPrefixCache.serve, TieredPrefixCache.lookupPrefix, map_apply, bind_apply, onHbm,
      onDdr, zoom, HBMCache.lookupPrefix, hhbmLookup, pure_apply, modify_apply, get_apply,
      DDRLRUCache.lookupPrefix, drainHbmEvents_ddr, hddrLookup]
    rfl
  | write blocks call reason =>
    obtain ⟨hbmState, hhbmWrite, hhbm'⟩ := hhbm.write
      { nowMs := call.nowMs, requestId := call.requestId, instanceUuid := call.instanceUuid }
      reason blocks
    obtain ⟨ddrState, hddrWrite, hddr'⟩ := hddr.write
      (ddrCall capacity call.nowMs call.requestId call.instanceUuid
        (drainHbmEvents { state with hbm := hbmState })) (ddrStoreReason reason) blocks
    refine ⟨drainDdrEvents { drainHbmEvents { state with hbm := hbmState } with ddr := ddrState },
      ?_, hhbm'.takeEvents, hddr'.takeEvents⟩
    simp only [TieredPrefixCache.serve, TieredPrefixCache.materialize, bind_apply, onHbm, onDdr,
      zoom, HBMCache.materialize, hhbmWrite, modify_apply, get_apply, DDRLRUCache.store,
      drainHbmEvents_ddr, hddrWrite]
    rfl
  | takeEvents => exact ⟨_, rfl, hhbm.takeEvents, hddr.takeEvents⟩

end TieredPrefixCache

/-- The answer to a lookup splits the blocks that were asked for, tier by tier. -/
def CacheCall.AnsweredBy (op : CacheCall) (answer : Option PrefixLookupResult) : Prop :=
  ∀ blocks call, op = .lookupPrefix blocks call → ∃ lookup, answer = some lookup ∧
    lookup.hbmHitBlocks ++ lookup.ddrHitBlocks ++ lookup.missBlocks = blocks

theorem ReferenceLru.tiered_answers (capacity : TieredCapacity) (op : CacheCall)
    (orders : List String × List String) : op.AnsweredBy (tiered capacity op orders).1 := by
  rintro blocks call rfl
  refine ⟨_, rfl, ?_⟩
  dsimp only
  rw [List.append_assoc, Lru.hits_append_misses, Lru.hits_append_misses]

/-- Finite caches refine reference LRU lists, over every sequence of calls. -/
theorem finite_caches_refine_lru :
    (∀ capacityBlocks (capacity_pos : 0 < capacityBlocks) (ops : List CacheCall), ∃ state,
      calls (HBMCache.serve capacityBlocks capacity_pos) ops {} =
        .ok (plays (ReferenceLru.hbm capacityBlocks) ops []).1 state ∧
      (HBMCache.tier capacityBlocks capacity_pos).Holds state
        (plays (ReferenceLru.hbm capacityBlocks) ops []).2) ∧
    (∀ capacityBlocks (capacity_pos : 0 < capacityBlocks) (ops : List CacheCall), ∃ state,
      calls (DDRLRUCache.serve capacityBlocks capacity_pos) ops {} =
        .ok (plays (ReferenceLru.ddr capacityBlocks) ops []).1 state ∧
      (DDRLRUCache.tier capacityBlocks capacity_pos).Holds state
        (plays (ReferenceLru.ddr capacityBlocks) ops []).2) ∧
    ∀ (capacity : TieredCapacity) (ops : List CacheCall), ∃ answers state,
      calls (TieredPrefixCache.serve capacity) ops {} = .ok answers state ∧
      answers = (plays (ReferenceLru.tiered capacity) ops ([], [])).1 ∧
      capacity.Holds state (plays (ReferenceLru.tiered capacity) ops ([], [])).2 ∧
      List.Forall₂ CacheCall.AnsweredBy ops answers := by
  refine ⟨fun capacityBlocks capacity_pos ops ↦ ?_, fun capacityBlocks capacity_pos ops ↦ ?_,
    fun capacity ops ↦ ?_⟩
  · exact calls_refine (HBMCache.serve_refines capacity_pos) ops (.fresh _)
  · exact calls_refine (DDRLRUCache.serve_refines capacity_pos) ops (.fresh _)
  · obtain ⟨state, hcalls, hholds⟩ := calls_refine (TieredPrefixCache.serve_refines capacity) ops
      (s := {}) (t := ([], [])) ⟨.fresh _, .fresh _⟩
    exact ⟨_, state, hcalls, rfl, hholds,
      plays_forall₂ (ReferenceLru.tiered_answers capacity) ops ([], [])⟩

/-- Three blocks are written to a cache that has room for two, and the second is looked up. -/
def overfullCalls : List CacheCall :=
  let block (blockKey : String) (blockIndex : ℕ) : PrefixBlock :=
    { blockKey, contentHash := "", blockIndex, tokenCount := 2, sizeBytes := 0 }
  let call : TierCall := { nowMs := 0, requestId := "r", instanceUuid := "i" }
  [.write [block "a" 0, block "b" 1, block "c" 2] call "", .takeEvents,
    .lookupPrefix [block "b" 1] call]

theorem finite_caches_refine_lru_overfull :
    ∃ answers state, calls (HBMCache.serve 2 (by decide)) overfullCalls {} = .ok answers state ∧
      (HBMCache.tier 2 (by decide)).Holds state ["c", "b"] := by
  obtain ⟨state, hcalls, hholds⟩ :=
    finite_caches_refine_lru.1 2 (by decide) overfullCalls
  have horder : (plays (ReferenceLru.hbm 2) overfullCalls []).2 = ["c", "b"] := by decide
  rw [horder] at hholds
  exact ⟨_, state, hcalls, hholds⟩

end InferTwin
