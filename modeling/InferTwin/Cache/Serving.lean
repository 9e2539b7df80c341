import InferTwin.Cache.LruContents
import InferTwin.Cache.Residents

namespace InferTwin

open Effect

variable {C : Type}

/-- From a good state no call of the cache fails, and every call leads to a good state. -/
structure PrefixCache.Serves (cache : PrefixCache C) (good : C → Prop) : Prop where
  lookup : ∀ {c}, good c → ∀ blocks nowMs requestId instanceUuid,
    ∃ lookup c', cache.lookupPrefix blocks nowMs requestId instanceUuid c = .ok lookup c' ∧ good c'
  materialize : ∀ {c}, good c → ∀ blocks nowMs requestId instanceUuid reason,
    ∃ c', cache.materialize blocks nowMs requestId instanceUuid reason c = .ok () c' ∧ good c'
  drain : ∀ {c}, good c → good (cache.takeEvents c).2

/-- The views of a tier agree. -/
def LruTier.Sound (tier : LruTier) (state : TierState) : Prop := ∃ order, tier.Holds state order

theorem infinite_cache_serves : InfiniteHBMCache.Serves fun _ ↦ True where
  lookup _ _ _ _ _ := ⟨_, _, rfl, trivial⟩
  materialize _ _ _ _ _ _ := ⟨_, rfl, trivial⟩
  drain _ := trivial

theorem hbm_cache_serves (capacityBlocks : ℕ) (capacity_pos : 0 < capacityBlocks) :
    (HBMCache capacityBlocks capacity_pos).Serves
      (HBMCache.tier capacityBlocks capacity_pos).Sound where
  lookup := by
    rintro c ⟨order, h⟩ blocks nowMs requestId instanceUuid
    obtain ⟨c', hlookup, h'⟩ := h.lookupPrefix { nowMs, requestId, instanceUuid } blocks
    exact ⟨_, c', bind_ok.mpr ⟨_, c', hlookup, rfl⟩, _, h'⟩
  materialize := by
    rintro c ⟨order, h⟩ blocks nowMs requestId instanceUuid reason
    obtain ⟨c', hwrite, h'⟩ := h.write { nowMs, requestId, instanceUuid } reason blocks
    exact ⟨c', hwrite, _, h'⟩
  drain := by
    rintro c ⟨order, h⟩
    exact ⟨order, h.takeEvents⟩

namespace TieredPrefixCache

variable (capacity : TieredCapacity)

structure Sound (state : TieredState) : Prop where
  hbm : (HBMCache.tier capacity.hbmBlocks capacity.hbm_pos).Sound state.hbm
  ddr : (DDRLRUCache.tier capacity.ddrBlocks capacity.ddr_pos).Sound state.ddr

variable {capacity} {state : TieredState}

theorem Sound.drain_hbm (h : Sound capacity state) : Sound capacity (drainHbmEvents state) where
  hbm := by
    obtain ⟨order, h⟩ := h.hbm
    exact ⟨order, h.takeEvents⟩
  ddr := h.ddr

theorem Sound.drain_ddr (h : Sound capacity state) : Sound capacity (drainDdrEvents state) where
  hbm := h.hbm
  ddr := by
    obtain ⟨order, h⟩ := h.ddr
    exact ⟨order, h.takeEvents⟩

end TieredPrefixCache

open TieredPrefixCache in
theorem tiered_cache_serves (capacity : TieredCapacity) :
    (TieredPrefixCache capacity).Serves (TieredPrefixCache.Sound capacity) where
  lookup := by
    intro c h blocks nowMs requestId instanceUuid
    obtain ⟨order, hhbm⟩ := h.hbm
    obtain ⟨hbm, hlookup, hhbm'⟩ := hhbm.lookupPrefix { nowMs, requestId, instanceUuid } blocks
    have h₁ : Sound capacity (drainHbmEvents { c with hbm }) :=
      Sound.drain_hbm ⟨⟨_, hhbm'⟩, h.ddr⟩
    obtain ⟨order', hddr⟩ := h₁.ddr
    obtain ⟨ddr, hlookup', hddr'⟩ := hddr.lookupPrefix (ddrCall capacity nowMs requestId
      instanceUuid (drainHbmEvents { c with hbm })) (Lru.misses PrefixBlock.blockKey order blocks)
    have h₂ : Sound capacity { drainHbmEvents { c with hbm } with ddr } := ⟨h₁.hbm, _, hddr'⟩
    exact ⟨_, _, bind_ok.mpr ⟨_, _, zoom_ok.mpr ⟨hbm, bind_ok.mpr ⟨_, _, hlookup, rfl⟩, rfl⟩,
      bind_ok.mpr ⟨(), _, rfl, bind_ok.mpr ⟨_, _, rfl, bind_ok.mpr ⟨_, _,
        zoom_ok.mpr ⟨ddr, bind_ok.mpr ⟨_, _, hlookup', rfl⟩, rfl⟩,
        bind_ok.mpr ⟨(), _, rfl, rfl⟩⟩⟩⟩⟩, h₂.drain_ddr⟩
  materialize := by
    intro c h blocks nowMs requestId instanceUuid reason
    obtain ⟨order, hhbm⟩ := h.hbm
    obtain ⟨hbm, hwrite, hhbm'⟩ := hhbm.write { nowMs, requestId, instanceUuid } reason blocks
    have h₁ : Sound capacity (drainHbmEvents { c with hbm }) :=
      Sound.drain_hbm ⟨⟨_, hhbm'⟩, h.ddr⟩
    obtain ⟨order', hddr⟩ := h₁.ddr
    obtain ⟨ddr, hwrite', hddr'⟩ := hddr.write (ddrCall capacity nowMs requestId instanceUuid
      (drainHbmEvents { c with hbm })) (ddrStoreReason reason) blocks
    have h₂ : Sound capacity { drainHbmEvents { c with hbm } with ddr } := ⟨h₁.hbm, _, hddr'⟩
    refine ⟨_, bind_ok.mpr ⟨(), _, zoom_ok.mpr ⟨hbm, hwrite, rfl⟩, ?_⟩, h₂.drain_ddr⟩
    refine bind_ok.mpr ⟨(), _, rfl, bind_ok.mpr ⟨_, _, rfl, ?_⟩⟩
    exact bind_ok.mpr ⟨(), _, zoom_ok.mpr ⟨ddr, hwrite', rfl⟩, rfl⟩
  drain h := ⟨h.drain_hbm.drain_ddr.hbm, h.drain_hbm.drain_ddr.ddr⟩

theorem FreshCache.serves {cache : PrefixCache C} {c : C} (h : FreshCache C cache c) :
    ∃ good, cache.Serves good ∧ good c := by
  cases h with
  | infinite => exact ⟨_, infinite_cache_serves, trivial⟩
  | hbm capacityBlocks capacity_pos =>
    exact ⟨_, hbm_cache_serves capacityBlocks capacity_pos, [], .fresh _⟩
  | tiered capacity =>
    exact ⟨_, tiered_cache_serves capacity, ⟨[], .fresh _⟩, ⟨[], .fresh _⟩⟩

section Policies

theorem block_end_token_of_mem {promptBlocks : List PrefixBlock} {block : PrefixBlock}
    (h : block ∈ promptBlocks) :
    ∃ endToken, blockEndToken promptBlocks block.blockKey = some endToken := by
  rw [← Option.isSome_iff_exists, blockEndToken, Option.isSome_iff_ne_none, ne_eq,
    List.lookup_eq_none_iff]
  intro hnone
  have hkey : block.blockKey ∈ (blockEndTokensByKey 0 promptBlocks).map Prod.fst := by
    rw [block_end_tokens_keys]
    exact List.mem_map_of_mem h
  obtain ⟨entry, he, hentry⟩ := List.mem_map.mp hkey
  exact absurd hentry.symm (bne_iff_ne.mp (hnone entry (List.mem_reverse.mpr he)))

/-- Blocks of the prompt can be selected from. -/
theorem select_loop_returns {promptBlocks blocks : List PrefixBlock} (size : ℕ) (before after : ℤ)
    (already keys : List String) (h : blocks ⊆ promptBlocks) :
    ∃ selected, selectLoop promptBlocks size before after already keys blocks = .ok selected := by
  induction blocks generalizing keys with
  | nil => exact ⟨[], rfl⟩
  | cons block blocks ih =>
    obtain ⟨hblock, hblocks⟩ := List.cons_subset.mp h
    obtain ⟨endToken, hend⟩ := block_end_token_of_mem hblock
    unfold selectLoop
    dsimp only
    split_ifs
    · exact ih keys hblocks
    · exact ih keys hblocks
    · exact ih keys hblocks
    · rw [hend]
      dsimp only
      split_ifs
      · obtain ⟨rest, hrest⟩ := ih (keys ++ [block.blockKey]) hblocks
        rw [hrest]
        exact ⟨block :: rest, rfl⟩
      · exact ih keys hblocks

/-- What a progressive policy needs of its call. -/
structure MaterializationCall.Answerable (call : MaterializationCall) : Prop where
  own : call.blocks ⊆ call.promptBlocks
  block_size : call.promptBlocks ≠ [] → call.effectiveBlockSize ≠ 0

theorem select_newly_completed_returns {call : MaterializationCall} (h : call.Answerable)
    {before after : ℤ} (hle : before ≤ after) :
    ∃ selected, selectNewlyCompletedFullBlocks call before after = .ok selected := by
  unfold selectNewlyCompletedFullBlocks
  split_ifs with hnone hsize hback
  · exact ⟨[], rfl⟩
  · refine absurd hsize (h.block_size fun hprompt ↦ hnone ?_)
    exact List.subset_nil.mp (hprompt ▸ h.own)
  · exact absurd hback (not_lt.mpr hle)
  · exact select_loop_returns _ _ _ _ _ h.own

variable {cache : PrefixCache C} {good : C → Prop} {call : MaterializationCall} {c : C}

theorem PrefixCache.Serves.materialize_blocks (hcache : cache.Serves good) (hc : good c)
    (call : MaterializationCall) (blocks : List PrefixBlock) (reason : String) :
    ∃ c', materializeBlocks cache call blocks reason c = .ok () c' ∧ good c' := by
  obtain ⟨c', hwrite, hc'⟩ := hcache.materialize hc blocks call.finishTimeMs call.requestId
    call.instanceUuid reason
  exact ⟨c', zoom_ok.mpr ⟨c', hwrite, rfl⟩, hc'⟩

theorem progressive_chunk_returns (hcache : cache.Serves good) (hc : good c)
    (hcall : call.Answerable) {before upTo : ℕ} (hle : before ≤ upTo) :
    ∃ blocks c', ProgressiveFullBlockMaterializationPolicy.materializeScheduledChunk cache call
      before upTo c = .ok blocks c' ∧ good c' := by
  obtain ⟨selected, hselected⟩ := select_newly_completed_returns hcall (Int.ofNat_le.mpr hle)
  obtain ⟨c', hwrite, hc'⟩ := hcache.materialize_blocks hc call selected
    "progressive_chunk_materialization"
  refine ⟨selected, c', bind_ok.mpr ⟨selected, c, check_ok.mpr ⟨hselected, rfl⟩, ?_⟩, hc'⟩
  exact bind_ok.mpr ⟨(), c', hwrite, rfl⟩

theorem progressive_finish_returns (hcache : cache.Serves good) (hc : good c)
    (hcall : call.Answerable) :
    ∃ blocks c', ProgressiveFullBlockMaterializationPolicy.materializeFinishedRequest cache call c =
      .ok blocks c' ∧ good c' := by
  have hle : (-1 : ℤ) ≤ blockTokens call.promptBlocks := by omega
  obtain ⟨selected, hselected⟩ := select_newly_completed_returns hcall hle
  obtain ⟨c', hwrite, hc'⟩ := hcache.materialize_blocks hc call selected
    "progressive_chunk_materialization"
  simp only [ProgressiveFullBlockMaterializationPolicy]
  split_ifs
  · exact ⟨[], c, rfl, hc⟩
  · refine ⟨selected, c', bind_ok.mpr ⟨selected, c, check_ok.mpr ⟨hselected, rfl⟩, ?_⟩, hc'⟩
    exact bind_ok.mpr ⟨(), c', hwrite, rfl⟩

theorem finish_time_returns (hcache : cache.Serves good) (hc : good c)
    (call : MaterializationCall) :
    ∃ blocks c', FinishTimeMaterializationPolicy.materializeFinishedRequest cache call c =
      .ok blocks c' ∧ good c' := by
  obtain ⟨c', hwrite, hc'⟩ := hcache.materialize_blocks hc call call.blocks
    "finish_time_materialization"
  exact ⟨call.blocks, c', bind_ok.mpr ⟨(), c', hwrite, rfl⟩, hc'⟩

end Policies

end InferTwin
