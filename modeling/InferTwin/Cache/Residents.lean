import InferTwin.Cache.Materialization
import InferTwin.Cache.Repository

namespace InferTwin

open Effect

variable {C : Type}

/-- The keys of some blocks. -/
def blockKeys (blocks : List PrefixBlock) : Set String := {key | ∃ block ∈ blocks, block.blockKey = key}

theorem block_keys_cons (block : PrefixBlock) (blocks : List PrefixBlock) :
    blockKeys (block :: blocks) = insert block.blockKey (blockKeys blocks) := by
  ext key
  simp [blockKeys, eq_comm]

/-- A cache that invents no blocks: it reports what is resident, and nothing becomes resident
that it was not given. -/
structure PrefixCache.Honest (cache : PrefixCache C) (residents : C → Set String) : Prop where
  lookup : ∀ {blocks nowMs requestId instanceUuid c lookup c'},
    cache.lookupPrefix blocks nowMs requestId instanceUuid c = .ok lookup c' →
      residents c' ⊆ residents c ∧ blockKeys lookup.hitBlocks ⊆ residents c
  materialize : ∀ {blocks nowMs requestId instanceUuid reason c c'},
    cache.materialize blocks nowMs requestId instanceUuid reason c = .ok () c' →
      residents c' ⊆ residents c ∪ blockKeys blocks
  drain : ∀ c, residents (cache.takeEvents c).2 ⊆ residents c

namespace LruTier

def residents (state : TierState) : Set String := {key | key ∈ state.blocks}

variable {tier : LruTier} {call : TierCall} {state state' : TierState}

theorem access_residents {key : String} {block : BlockMeta} {countHit : Bool}
    (hkey : key ∈ state.blocks) (h : access call key block countHit state = .ok () state') :
    residents state' ⊆ residents state := by
  unfold access at h
  simp only [bind_ok, modify_apply, get_apply, check_ok, EStateM.Result.ok.injEq] at h
  obtain ⟨_, _, ⟨-, rfl⟩, _, _, ⟨rfl, rfl⟩, _, _, ⟨-, rfl⟩, -, rfl⟩ := h
  intro other hother
  rcases Finmap.mem_insert.mp hother with rfl | hother
  · exact hkey
  · exact hother

theorem emit_residents {eventType : CacheEventType} {block : PrefixBlock} {reason : String}
    {sourceTier targetTier : Option CacheTier} {storeTokens : ℕ}
    (h : tier.emit call eventType block reason sourceTier targetTier storeTokens state =
      .ok () state') : residents state' = residents state := by
  cases h
  rfl

theorem lookup_hits_residents {blocks hits : List PrefixBlock}
    (h : tier.lookupHits call blocks state = .ok hits state') :
    residents state' ⊆ residents state ∧ blockKeys hits ⊆ residents state := by
  induction blocks generalizing state hits with
  | nil =>
    cases h
    exact ⟨subset_rfl, by simp [blockKeys]⟩
  | cons block blocks ih =>
    unfold lookupHits at h
    obtain ⟨_, _, hget, h⟩ := bind_ok.mp h
    cases hget
    cases hl : state.blocks.lookup block.blockKey with
    | none =>
      simp only [hl] at h
      cases h
      exact ⟨subset_rfl, by simp [blockKeys]⟩
    | some existing =>
      simp only [hl, bind_ok] at h
      obtain ⟨_, _, haccess, _, _, hemit, rest, _, hrest, h⟩ := h
      cases h
      have hmem : block.blockKey ∈ state.blocks := Dict.mem_iff_lookup.mpr ⟨_, hl⟩
      have hused := access_residents hmem haccess
      rw [← emit_residents hemit] at hused
      obtain ⟨hkept, hhits⟩ := ih hrest
      refine ⟨hkept.trans hused, ?_⟩
      rw [block_keys_cons]
      exact Set.insert_subset hmem (hhits.trans hused)

theorem emit_misses_residents {blocks : List PrefixBlock}
    (h : tier.emitMisses call blocks state = .ok () state') :
    residents state' = residents state := by
  induction blocks generalizing state with
  | nil =>
    cases h
    rfl
  | cons block blocks ih =>
    unfold emitMisses at h
    obtain ⟨_, _, hemit, h⟩ := bind_ok.mp h
    rw [ih h, emit_residents hemit]

theorem lookup_prefix_residents {blocks hits misses : List PrefixBlock}
    (h : tier.lookupPrefix call blocks state = .ok (hits, misses) state') :
    residents state' ⊆ residents state ∧ blockKeys hits ⊆ residents state := by
  unfold lookupPrefix at h
  obtain ⟨found, _, hhits, h⟩ := bind_ok.mp h
  obtain ⟨_, _, hmisses, h⟩ := bind_ok.mp h
  cases h
  rw [emit_misses_residents hmisses]
  exact lookup_hits_residents hhits

theorem evict_one_residents (h : tier.evictOne call state = .ok () state') :
    residents state' ⊆ residents state := by
  unfold evictOne at h
  simp only [bind_ok, modify_apply, get_apply, check_ok, EStateM.Result.ok.injEq] at h
  obtain ⟨_, _, ⟨rfl, rfl⟩, _, _, ⟨-, rfl⟩, _, _, ⟨-, rfl⟩, _, _, ⟨-, rfl⟩, -, rfl⟩ := h
  exact fun key hkey ↦ (Finmap.mem_erase.mp hkey).2

theorem evict_loop_residents {turns : ℕ} (h : tier.evictLoop call turns state = .ok () state') :
    residents state' ⊆ residents state := by
  induction turns generalizing state with
  | zero =>
    cases h
    exact subset_rfl
  | succ turns ih =>
    unfold evictLoop at h
    obtain ⟨_, _, hget, h⟩ := bind_ok.mp h
    cases hget
    split_ifs at h with hfull
    · obtain ⟨_, _, hevict, h⟩ := bind_ok.mp h
      exact (ih h).trans (evict_one_residents hevict)
    · cases h
      exact subset_rfl

theorem write_residents {blocks : List PrefixBlock} {reason : String}
    (h : tier.write call reason blocks state = .ok () state') :
    residents state' ⊆ residents state ∪ blockKeys blocks := by
  induction blocks generalizing state with
  | nil =>
    cases h
    exact Set.subset_union_left
  | cons block blocks ih =>
    unfold write at h
    obtain ⟨_, _, hget, h⟩ := bind_ok.mp h
    cases hget
    rw [block_keys_cons]
    cases hl : state.blocks.lookup block.blockKey with
    | some existing =>
      simp only [hl] at h
      obtain ⟨_, _, haccess, h⟩ := bind_ok.mp h
      have hused := access_residents (Dict.mem_iff_lookup.mpr ⟨_, hl⟩) haccess
      exact (ih h).trans (Set.union_subset_union hused (Set.subset_insert _ _))
    | none =>
      simp only [hl, bind_ok] at h
      obtain ⟨_, _, hevict, _, roomy, hinsert, _, _, hemit, h⟩ := h
      cases hinsert
      intro key hkey
      rcases ih h hkey with hkey | hkey
      · rw [emit_residents hemit] at hkey
        rcases Finmap.mem_insert.mp hkey with rfl | hkey
        · exact .inr (Set.mem_insert _ _)
        · exact .inl (evict_loop_residents hevict hkey)
      · exact .inr (.inr hkey)

end LruTier

namespace InfiniteHBMCache

def residents (state : InfiniteState) : Set String := {key | key ∈ state}

theorem lookup_hits_residents (nowMs : ℚ) (blocks : List PrefixBlock) (state : InfiniteState) :
    residents (lookupHits nowMs blocks state).2 ⊆ residents state ∧
      blockKeys (lookupHits nowMs blocks state).1 ⊆ residents state := by
  induction blocks generalizing state with
  | nil => exact ⟨subset_rfl, by simp [lookupHits, blockKeys]⟩
  | cons block blocks ih =>
    unfold lookupHits
    cases hl : state.lookup block.blockKey with
    | none => exact ⟨subset_rfl, by simp [blockKeys]⟩
    | some existing =>
      have hmem : block.blockKey ∈ state := Dict.mem_iff_lookup.mpr ⟨_, hl⟩
      obtain ⟨hkept, hhits⟩ := ih (state.insert block.blockKey { existing with
        hitCount := existing.hitCount + 1, lastAccessTimeMs := nowMs })
      have hused : residents (state.insert block.blockKey { existing with
          hitCount := existing.hitCount + 1, lastAccessTimeMs := nowMs }) ⊆ residents state := by
        intro key hkey
        rcases Finmap.mem_insert.mp hkey with rfl | hkey
        · exact hmem
        · exact hkey
      refine ⟨hkept.trans hused, ?_⟩
      dsimp only
      rw [block_keys_cons]
      exact Set.insert_subset hmem (hhits.trans hused)

theorem add_blocks_residents (nowMs : ℚ) (blocks : List PrefixBlock) (state : InfiniteState) :
    residents (blocks.foldl (addBlock nowMs) state) ⊆ residents state ∪ blockKeys blocks := by
  induction blocks generalizing state with
  | nil => exact Set.subset_union_left
  | cons block blocks ih =>
    rw [List.foldl_cons, block_keys_cons]
    intro key hkey
    rcases ih _ hkey with hkey | hkey
    · unfold addBlock at hkey
      split_ifs at hkey
      · exact .inl hkey
      · rcases Finmap.mem_insert.mp hkey with rfl | hkey
        · exact .inr (Set.mem_insert _ _)
        · exact .inl hkey
    · exact .inr (.inr hkey)

end InfiniteHBMCache

def TieredPrefixCache.residents (state : TieredState) : Set String :=
  LruTier.residents state.hbm ∪ LruTier.residents state.ddr

theorem infinite_cache_honest : InfiniteHBMCache.Honest InfiniteHBMCache.residents where
  lookup h := by
    cases h
    rw [PrefixLookupResult.hitBlocks, List.append_nil]
    exact InfiniteHBMCache.lookup_hits_residents _ _ _
  materialize h := by
    cases h
    exact InfiniteHBMCache.add_blocks_residents _ _ _
  drain _ := subset_rfl

theorem hbm_cache_honest (capacityBlocks : ℕ) (capacity_pos : 0 < capacityBlocks) :
    (HBMCache capacityBlocks capacity_pos).Honest LruTier.residents where
  lookup h := by
    obtain ⟨⟨hits, misses⟩, _, hlookup, h⟩ := bind_ok.mp h
    cases h
    rw [PrefixLookupResult.hitBlocks, List.append_nil]
    exact LruTier.lookup_prefix_residents hlookup
  materialize h := LruTier.write_residents h
  drain _ := subset_rfl

theorem tiered_cache_honest (capacity : TieredCapacity) :
    (TieredPrefixCache capacity).Honest TieredPrefixCache.residents where
  lookup h := by
    obtain ⟨hbmLookup, _, hhbm, h⟩ := bind_ok.mp h
    obtain ⟨_, _, hdrain, h⟩ := bind_ok.mp h
    obtain ⟨_, _, hget, h⟩ := bind_ok.mp h
    obtain ⟨ddrLookup, _, hddr, h⟩ := bind_ok.mp h
    obtain ⟨_, _, hdrain', h⟩ := bind_ok.mp h
    cases h
    cases hdrain
    cases hget
    cases hdrain'
    obtain ⟨hbm, hbmRun, rfl⟩ := zoom_ok.mp hhbm
    obtain ⟨⟨hits, misses⟩, _, hlookup, hbmRun⟩ := bind_ok.mp hbmRun
    cases hbmRun
    obtain ⟨ddr, ddrRun, rfl⟩ := zoom_ok.mp hddr
    obtain ⟨⟨hits', misses'⟩, _, hlookup', ddrRun⟩ := bind_ok.mp ddrRun
    cases ddrRun
    obtain ⟨hkept, hhits⟩ := LruTier.lookup_prefix_residents hlookup
    obtain ⟨hkept', hhits'⟩ := LruTier.lookup_prefix_residents hlookup'
    refine ⟨Set.union_subset_union hkept hkept', ?_⟩
    rintro key ⟨block, hblock, rfl⟩
    rcases List.mem_append.mp hblock with hblock | hblock
    · exact .inl (hhits ⟨block, hblock, rfl⟩)
    · exact .inr (hhits' ⟨block, hblock, rfl⟩)
  materialize h := by
    obtain ⟨_, _, hhbm, h⟩ := bind_ok.mp h
    obtain ⟨_, _, hdrain, h⟩ := bind_ok.mp h
    obtain ⟨_, _, hget, h⟩ := bind_ok.mp h
    obtain ⟨_, _, hddr, h⟩ := bind_ok.mp h
    cases h
    cases hdrain
    cases hget
    obtain ⟨hbm, hbmRun, rfl⟩ := zoom_ok.mp hhbm
    obtain ⟨ddr, ddrRun, rfl⟩ := zoom_ok.mp hddr
    have hwritten := LruTier.write_residents hbmRun
    have hstored := LruTier.write_residents ddrRun
    rintro key (hkey | hkey)
    · rcases hwritten hkey with hkey | hkey
      · exact .inl (.inl hkey)
      · exact .inr hkey
    · rcases hstored hkey with hkey | hkey
      · exact .inl (.inr hkey)
      · exact .inr hkey
  drain _ := subset_rfl

/-- A cache of the repository, with nothing in it. -/
inductive FreshCache : (C : Type) → PrefixCache C → C → Prop
  | infinite : FreshCache InfiniteState InfiniteHBMCache ∅
  | hbm (capacityBlocks : ℕ) (capacity_pos : 0 < capacityBlocks) :
      FreshCache TierState (HBMCache capacityBlocks capacity_pos) {}
  | tiered (capacity : TieredCapacity) : FreshCache TieredState (TieredPrefixCache capacity) {}

theorem FreshCache.repository {cache : PrefixCache C} {c : C} (h : FreshCache C cache c) :
    RepositoryCache C cache := by
  cases h with
  | infinite => exact .infinite
  | hbm capacityBlocks capacity_pos => exact .hbm capacityBlocks capacity_pos
  | tiered capacity => exact .tiered capacity

theorem FreshCache.honest {cache : PrefixCache C} {c : C} (h : FreshCache C cache c) :
    ∃ residents, cache.Honest residents ∧ residents c = ∅ := by
  cases h with
  | infinite =>
    exact ⟨_, infinite_cache_honest, Set.eq_empty_of_forall_notMem fun _ ↦ Finmap.notMem_empty⟩
  | hbm capacityBlocks capacity_pos =>
    exact ⟨_, hbm_cache_honest capacityBlocks capacity_pos,
      Set.eq_empty_of_forall_notMem fun _ ↦ Finmap.notMem_empty⟩
  | tiered capacity =>
    refine ⟨_, tiered_cache_honest capacity, Set.eq_empty_of_forall_notMem fun key hkey ↦ ?_⟩
    rcases hkey with hkey | hkey
    · exact Finmap.notMem_empty hkey
    · exact Finmap.notMem_empty hkey

section Policies

/-- The materialization policies of the repository. -/
inductive RepositoryPolicy : MaterializationPolicy C → Prop
  | finishTime : RepositoryPolicy FinishTimeMaterializationPolicy
  | progressive : RepositoryPolicy ProgressiveFullBlockMaterializationPolicy

theorem default_policy_repository (timelineMode : TimelineMode) :
    RepositoryPolicy (defaultMaterializationPolicy timelineMode : MaterializationPolicy C) := by
  cases timelineMode with
  | legacy => exact .finishTime
  | progressive => exact .progressive

theorem select_loop_mem {promptBlocks blocks selected : List PrefixBlock} {size : ℕ}
    {before after : ℤ} {already keys : List String}
    (h : selectLoop promptBlocks size before after already keys blocks = .ok selected) :
    ∀ source ∈ selected, source ∈ blocks ∧
      ∃ endToken ∈ blockEndToken promptBlocks source.blockKey, (endToken : ℤ) ≤ after := by
  induction blocks generalizing keys selected with
  | nil =>
    cases h
    simp
  | cons block blocks ih =>
    have hskip : selectLoop promptBlocks size before after already keys blocks = .ok selected →
        ∀ source ∈ selected, source ∈ block :: blocks ∧
          ∃ endToken ∈ blockEndToken promptBlocks source.blockKey, (endToken : ℤ) ≤ after := by
      intro h source hsource
      obtain ⟨hmem, hend⟩ := ih h source hsource
      exact ⟨List.mem_cons_of_mem _ hmem, hend⟩
    unfold selectLoop at h
    dsimp only at h
    split_ifs at h
    · exact hskip h
    · exact hskip h
    · exact hskip h
    · cases hend : blockEndToken promptBlocks block.blockKey with
      | none =>
        rw [hend] at h
        cases h
      | some endToken =>
        rw [hend] at h
        dsimp only at h
        by_cases hin : before < endToken ∧ endToken ≤ after
        · rw [if_pos hin] at h
          obtain ⟨rest, hrest, h⟩ := except_bind_ok.mp h
          cases h
          refine List.forall_mem_cons.mpr ⟨⟨List.mem_cons_self, endToken, hend, hin.2⟩, ?_⟩
          intro source hsource
          obtain ⟨hmem, hlast⟩ := ih hrest source hsource
          exact ⟨List.mem_cons_of_mem _ hmem, hlast⟩
        · rw [if_neg hin] at h
          exact hskip h

theorem select_newly_completed_mem {call : MaterializationCall} {before after : ℤ}
    {selected : List PrefixBlock}
    (h : selectNewlyCompletedFullBlocks call before after = .ok selected) :
    ∀ source ∈ selected, source ∈ call.blocks ∧
      ∃ endToken ∈ blockEndToken call.promptBlocks source.blockKey, (endToken : ℤ) ≤ after := by
  unfold selectNewlyCompletedFullBlocks at h
  split_ifs at h
  · cases h
    simp
  · exact select_loop_mem h

variable {cache : PrefixCache C} {residents : C → Set String} {policy : MaterializationPolicy C}
  {call : MaterializationCall} {blocks : List PrefixBlock} {c c' : C}

theorem PrefixCache.Honest.materialize_blocks (hcache : cache.Honest residents) {reason : String}
    (h : materializeBlocks cache call blocks reason c = .ok () c') :
    residents c' ⊆ residents c ∪ blockKeys blocks := by
  obtain ⟨cache', hwrite, rfl⟩ := zoom_ok.mp h
  exact hcache.materialize hwrite

/-- A policy makes a block visible after a chunk that has reached its end. -/
theorem RepositoryPolicy.chunk (hpolicy : RepositoryPolicy policy)
    (hcache : cache.Honest residents) {before upTo : ℕ}
    (h : policy.materializeScheduledChunk cache call before upTo c = .ok blocks c') :
    residents c' ⊆ residents c ∪ blockKeys blocks ∧ ∀ source ∈ blocks, source ∈ call.blocks ∧
      ∃ endToken ∈ blockEndToken call.promptBlocks source.blockKey, endToken ≤ upTo := by
  cases hpolicy with
  | finishTime =>
    cases h
    exact ⟨Set.subset_union_left, by simp⟩
  | progressive =>
    obtain ⟨selected, _, hcheck, h⟩ := bind_ok.mp h
    obtain ⟨_, _, hwrite, h⟩ := bind_ok.mp h
    cases h
    obtain ⟨hselected, rfl⟩ := check_ok.mp hcheck
    refine ⟨hcache.materialize_blocks hwrite, fun source hsource ↦ ?_⟩
    obtain ⟨hmem, endToken, hend, hle⟩ := select_newly_completed_mem hselected source hsource
    exact ⟨hmem, endToken, hend, by exact_mod_cast hle⟩

theorem RepositoryPolicy.finish (hpolicy : RepositoryPolicy policy)
    (hcache : cache.Honest residents)
    (h : policy.materializeFinishedRequest cache call c = .ok blocks c') :
    residents c' ⊆ residents c ∪ blockKeys blocks ∧ ∀ source ∈ blocks, source ∈ call.blocks := by
  cases hpolicy with
  | finishTime =>
    obtain ⟨_, _, hwrite, h⟩ := bind_ok.mp h
    cases h
    exact ⟨hcache.materialize_blocks hwrite, fun _ ↦ id⟩
  | progressive =>
    by_cases hnone : call.blocks = []
    · simp only [ProgressiveFullBlockMaterializationPolicy, if_pos hnone] at h
      cases h
      exact ⟨Set.subset_union_left, by simp⟩
    · simp only [ProgressiveFullBlockMaterializationPolicy, if_neg hnone] at h
      obtain ⟨selected, _, hcheck, h⟩ := bind_ok.mp h
      obtain ⟨_, _, hwrite, h⟩ := bind_ok.mp h
      cases h
      obtain ⟨hselected, rfl⟩ := check_ok.mp hcheck
      exact ⟨hcache.materialize_blocks hwrite,
        fun source hsource ↦ (select_newly_completed_mem hselected source hsource).1⟩

end Policies

end InferTwin
