import InferTwin.Cache.CachedTokenAccounting
import InferTwin.Cache.LruContents

namespace InferTwin

open Effect

/-- A request that has the cache to itself: its blocks, and how it calls the cache. -/
structure LoneRequest where
  blocks : List PrefixBlock
  lookupCall : TierCall
  writeCall : TierCall
  reason : String

def LoneRequest.keys (request : LoneRequest) : List String :=
  request.blocks.map PrefixBlock.blockKey

/-- A lookup, and the storing of what it missed before anybody else comes. -/
def HBMCache.request (capacityBlocks : ℕ) (capacity_pos : 0 < capacityBlocks)
    (request : LoneRequest) : EStateM CacheError TierState PrefixLookupResult := do
  let lookup ← HBMCache.lookupPrefix capacityBlocks capacity_pos request.blocks
    request.lookupCall.nowMs request.lookupCall.requestId request.lookupCall.instanceUuid
  HBMCache.materialize capacityBlocks capacity_pos lookup.missBlocks request.writeCall.nowMs
    request.writeCall.requestId request.writeCall.instanceUuid request.reason
  return lookup

/-- The most recently accessed distinct keys of a history, so many as there is room for. -/
def mostRecent (capacityBlocks : ℕ) (history : List String) : List String :=
  history.dedup.rtake capacityBlocks

/-- A cache that is nothing but the history of accesses. -/
def historyCache (capacityBlocks : ℕ) (request : LoneRequest) (history : List String) :
    PrefixLookupResult × List String :=
  ({ hbmHitBlocks :=
      Lru.hits PrefixBlock.blockKey (mostRecent capacityBlocks history) request.blocks
     ddrHitBlocks := []
     missBlocks :=
      Lru.misses PrefixBlock.blockKey (mostRecent capacityBlocks history) request.blocks },
    history ++ request.keys)

theorem HBMCache.request_refines {capacityBlocks : ℕ} (capacity_pos : 0 < capacityBlocks)
    (request : LoneRequest) (state : TierState) (history : List String)
    (h : (HBMCache.tier capacityBlocks capacity_pos).Holds state
      (mostRecent capacityBlocks history)) :
    ∃ state', HBMCache.request capacityBlocks capacity_pos request state =
        .ok (historyCache capacityBlocks request history).1 state' ∧
      (HBMCache.tier capacityBlocks capacity_pos).Holds state'
        (mostRecent capacityBlocks (historyCache capacityBlocks request history).2) := by
  obtain ⟨looked, hlookup, hlooked⟩ := h.lookupPrefix {
    nowMs := request.lookupCall.nowMs, requestId := request.lookupCall.requestId
    instanceUuid := request.lookupCall.instanceUuid } request.blocks
  obtain ⟨written, hwrite, hwritten⟩ := hlooked.write {
    nowMs := request.writeCall.nowMs, requestId := request.writeCall.requestId
    instanceUuid := request.writeCall.instanceUuid } request.reason
    (Lru.misses PrefixBlock.blockKey (mostRecent capacityBlocks history) request.blocks)
  refine ⟨written, ?_, ?_⟩
  · simp only [HBMCache.request, HBMCache.lookupPrefix, HBMCache.materialize, bind_apply, hlookup,
      pure_apply, hwrite]
    rfl
  · have hwrite := Lru.write_rtake PrefixBlock.blockKey capacity_pos history request.blocks
    rw [Lru.write_misses, mostRecent] at hwritten
    rw [historyCache, mostRecent, LoneRequest.keys]
    exact hwrite ▸ hwritten

theorem history_of_plays (capacityBlocks : ℕ) (requests : List LoneRequest)
    (history : List String) :
    (plays (historyCache capacityBlocks) requests history).2 =
      history ++ requests.flatMap LoneRequest.keys := by
  induction requests generalizing history with
  | nil => exact (List.append_nil _).symm
  | cons request requests ih =>
    rw [plays, List.flatMap_cons, ← List.append_assoc]
    exact ih _

/-- After any number of requests the cache holds the end of the history of their accesses. -/
theorem HBMCache.requests_refine {capacityBlocks : ℕ} (capacity_pos : 0 < capacityBlocks)
    (requests : List LoneRequest) :
    ∃ state, calls (HBMCache.request capacityBlocks capacity_pos) requests {} =
        .ok (plays (historyCache capacityBlocks) requests []).1 state ∧
      (HBMCache.tier capacityBlocks capacity_pos).Holds state
        (mostRecent capacityBlocks (requests.flatMap LoneRequest.keys)) := by
  have hfresh : mostRecent capacityBlocks [] = [] := by simp [mostRecent]
  obtain ⟨state, hcalls, hholds⟩ := calls_refine (HBMCache.request_refines capacity_pos) requests
    (s := {}) (t := []) (by rw [hfresh]; exact .fresh _)
  rw [history_of_plays, List.nil_append] at hholds
  exact ⟨state, hcalls, hholds⟩

/-- One request under two capacities: the larger one hits at least as long a prefix, and
is accounted at least as many HBM tokens. -/
def PrefixLookupResult.Extends (larger smaller : PrefixLookupResult) : Prop :=
  smaller.hbmHitBlocks.length ≤ larger.hbmHitBlocks.length ∧
    ∀ promptTokens blockConversion accounted accounted',
      accountPrefixLookup smaller promptTokens blockConversion = .ok accounted →
      accountPrefixLookup larger promptTokens blockConversion = .ok accounted' →
        accounted.hbmHitTokens ≤ accounted'.hbmHitTokens

theorem history_cache_extends {smaller larger : ℕ} (h : smaller ≤ larger) (request : LoneRequest)
    (history : List String) :
    (historyCache larger request history).1.Extends (historyCache smaller request history).1 := by
  have hhits : Lru.hits PrefixBlock.blockKey (mostRecent smaller history) request.blocks <+:
      Lru.hits PrefixBlock.blockKey (mostRecent larger history) request.blocks :=
    Lru.hits_mono (Lru.rtake_subset_rtake h _) request.blocks
  refine ⟨hhits.length_le, fun promptTokens blockConversion accounted accounted' ha ha' ↦ ?_⟩
  refine account_hbm_mono hhits rfl rfl ?_ ha ha'
  exact (Lru.hits_append_misses _).trans (Lru.hits_append_misses _).symm

/-- The stack property of the HBM cache, for requests that are served one after another. -/
theorem hbm_capacity_monotone (requests : List LoneRequest) {smaller larger : ℕ}
    (smaller_pos : 0 < smaller) (h : smaller ≤ larger) :
    ∃ lookups state lookups' state',
      calls (HBMCache.request smaller smaller_pos) requests {} = .ok lookups state ∧
      calls (HBMCache.request larger (smaller_pos.trans_le h)) requests {} =
        .ok lookups' state' ∧
      (∀ key, key ∈ state.blocks ↔
        key ∈ mostRecent smaller (requests.flatMap LoneRequest.keys)) ∧
      (∀ key, key ∈ state'.blocks ↔
        key ∈ mostRecent larger (requests.flatMap LoneRequest.keys)) ∧
      (∀ key, key ∈ state.blocks → key ∈ state'.blocks) ∧
      List.Forall₂ PrefixLookupResult.Extends lookups' lookups := by
  obtain ⟨state, hcalls, hholds⟩ := HBMCache.requests_refine smaller_pos requests
  obtain ⟨state', hcalls', hholds'⟩ :=
    HBMCache.requests_refine (smaller_pos.trans_le h) requests
  refine ⟨_, state, _, state', hcalls, hcalls', hholds.mem_blocks, hholds'.mem_blocks,
    fun key hkey ↦ ?_, ?_⟩
  · rw [hholds.mem_blocks] at hkey
    rw [hholds'.mem_blocks]
    exact Lru.rtake_subset_rtake h _ hkey
  · have hmove : ∀ request history, (historyCache larger request history).2 =
        (historyCache smaller request history).2 := fun _ _ ↦ rfl
    exact plays_related hmove (history_cache_extends h) requests []

/-- Three blocks of one prompt, then the first of them again. -/
def returningRequests : List LoneRequest :=
  let block (blockKey : String) (blockIndex : ℕ) : PrefixBlock :=
    { blockKey, contentHash := "", blockIndex, tokenCount := 2, sizeBytes := 0 }
  let call : TierCall := { nowMs := 0, requestId := "r", instanceUuid := "i" }
  [{ blocks := [block "a" 0, block "b" 1, block "c" 2]
     lookupCall := call, writeCall := call, reason := "" },
   { blocks := [block "a" 0], lookupCall := call, writeCall := call, reason := "" }]

theorem hbm_capacity_monotone_returning :
    ∃ lookups state lookups' state',
      calls (HBMCache.request 2 (by decide)) returningRequests {} = .ok lookups state ∧
      calls (HBMCache.request 3 (by decide)) returningRequests {} = .ok lookups' state' ∧
      (∀ key, key ∈ state.blocks ↔ key ∈ ["c", "a"]) ∧
      (∀ key, key ∈ state'.blocks ↔ key ∈ ["b", "c", "a"]) ∧
      List.Forall₂ PrefixLookupResult.Extends lookups' lookups := by
  obtain ⟨lookups, state, lookups', state', hcalls, hcalls', hkeys, hkeys', -, hextends⟩ :=
    hbm_capacity_monotone returningRequests (show 0 < 2 by decide) (show 2 ≤ 3 by decide)
  have hrecent : mostRecent 2 (returningRequests.flatMap LoneRequest.keys) = ["c", "a"] := by
    decide
  have hrecent' : mostRecent 3 (returningRequests.flatMap LoneRequest.keys) = ["b", "c", "a"] := by
    decide
  rw [hrecent] at hkeys
  rw [hrecent'] at hkeys'
  exact ⟨lookups, state, lookups', state', hcalls, hcalls', hkeys, hkeys', hextends⟩

end InferTwin
