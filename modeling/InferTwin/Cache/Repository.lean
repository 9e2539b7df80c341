import InferTwin.Cache.Tiered
import InferTwin.Foundation.Effect

namespace InferTwin

open Effect

/-- The caches of the repository that a replay can run on. -/
inductive RepositoryCache : (C : Type) → PrefixCache C → Prop
  | infinite : RepositoryCache InfiniteState InfiniteHBMCache
  | hbm (capacityBlocks : ℕ) (capacity_pos : 0 < capacityBlocks) :
      RepositoryCache TierState (HBMCache capacityBlocks capacity_pos)
  | tiered (capacity : TieredCapacity) : RepositoryCache TieredState (TieredPrefixCache capacity)

theorem LruTier.lookup_hits_prefix {tier : LruTier} {call : TierCall} {blocks hits : List PrefixBlock}
    {state state' : TierState} (h : tier.lookupHits call blocks state = .ok hits state') :
    hits <+: blocks := by
  induction blocks generalizing state hits with
  | nil =>
    cases h
    exact List.prefix_rfl
  | cons block blocks ih =>
    unfold LruTier.lookupHits at h
    obtain ⟨_, _, hget, h⟩ := bind_ok.mp h
    cases hget
    cases hl : state.blocks.lookup block.blockKey with
    | none =>
      simp only [hl] at h
      cases h
      exact List.nil_prefix
    | some existing =>
      simp only [hl, bind_ok] at h
      obtain ⟨_, _, -, _, _, -, rest, _, hrest, h⟩ := h
      cases h
      exact List.prefix_cons_inj block |>.mpr (ih hrest)

theorem LruTier.lookup_prefix_split {tier : LruTier} {call : TierCall}
    {blocks hits misses : List PrefixBlock} {state state' : TierState}
    (h : tier.lookupPrefix call blocks state = .ok (hits, misses) state') :
    hits ++ misses = blocks := by
  unfold LruTier.lookupPrefix at h
  obtain ⟨found, _, hhits, h⟩ := bind_ok.mp h
  obtain ⟨_, _, -, h⟩ := bind_ok.mp h
  cases h
  exact List.prefix_iff_eq_append.mp (LruTier.lookup_hits_prefix hhits)

theorem InfiniteHBMCache.lookup_hits_prefix (nowMs : ℚ) (blocks : List PrefixBlock)
    (state : InfiniteState) : (lookupHits nowMs blocks state).1 <+: blocks := by
  induction blocks generalizing state with
  | nil => exact List.prefix_rfl
  | cons block blocks ih =>
    unfold lookupHits
    split
    · exact List.nil_prefix
    · exact List.prefix_cons_inj block |>.mpr (ih _)

theorem infinite_cache_splits : InfiniteHBMCache.Splits := by
  intro blocks nowMs requestId instanceUuid c lookup c' h
  cases h
  have hhits := InfiniteHBMCache.lookup_hits_prefix nowMs blocks c
  simpa using (List.prefix_iff_eq_append.mp hhits)

theorem hbm_cache_splits (capacityBlocks : ℕ) (capacity_pos : 0 < capacityBlocks) :
    (HBMCache capacityBlocks capacity_pos).Splits := by
  intro blocks nowMs requestId instanceUuid c lookup c' h
  obtain ⟨⟨hits, misses⟩, _, hlookup, h⟩ := bind_ok.mp h
  cases h
  simpa using LruTier.lookup_prefix_split hlookup

theorem tiered_cache_splits (capacity : TieredCapacity) : (TieredPrefixCache capacity).Splits := by
  intro blocks nowMs requestId instanceUuid c lookup c' h
  obtain ⟨hbmLookup, _, hhbm, h⟩ := bind_ok.mp h
  obtain ⟨_, _, -, h⟩ := bind_ok.mp h
  obtain ⟨_, _, -, h⟩ := bind_ok.mp h
  obtain ⟨ddrLookup, _, hddr, h⟩ := bind_ok.mp h
  obtain ⟨_, _, -, h⟩ := bind_ok.mp h
  cases h
  obtain ⟨_, hhbm, -⟩ := zoom_ok.mp hhbm
  obtain ⟨⟨hits, misses⟩, _, hsplit, hhbm⟩ := bind_ok.mp hhbm
  cases hhbm
  obtain ⟨_, hddr, -⟩ := zoom_ok.mp hddr
  obtain ⟨⟨hits', misses'⟩, _, hsplit', hddr⟩ := bind_ok.mp hddr
  cases hddr
  have h₁ := LruTier.lookup_prefix_split hsplit
  have h₂ := LruTier.lookup_prefix_split hsplit'
  simp only at h₁ h₂ ⊢
  rw [List.append_assoc, h₂, h₁]

theorem RepositoryCache.splits {C : Type} {cache : PrefixCache C} (h : RepositoryCache C cache) :
    cache.Splits := by
  cases h with
  | infinite => exact infinite_cache_splits
  | hbm capacityBlocks capacity_pos => exact hbm_cache_splits capacityBlocks capacity_pos
  | tiered capacity => exact tiered_cache_splits capacity

end InferTwin
