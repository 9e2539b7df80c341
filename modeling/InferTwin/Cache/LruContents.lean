import InferTwin.Cache.Tiered
import InferTwin.Foundation.Lru

namespace InferTwin

open Effect

/-- The three views a tier has of its contents, its metadata, their sequence numbers and the
list of its policy, all show the keys of `order`, the most recently used one last. -/
structure LruTier.Holds (tier : LruTier) (state : TierState) (order : List String) : Prop where
  recency_eq : state.recency = order
  nodup : order.Nodup
  mem_blocks : ∀ key, key ∈ state.blocks ↔ key ∈ order
  seq_lt : order.Pairwise fun a b ↦ ∀ block ∈ state.blocks.lookup a,
    ∀ later ∈ state.blocks.lookup b, block.lastAccessSeq < later.lastAccessSeq
  seq_le : ∀ key, ∀ block ∈ state.blocks.lookup key, block.lastAccessSeq ≤ state.accessSeq
  length_le : order.length ≤ tier.capacityBlocks

namespace LruTier

section Operations

variable (tier : LruTier) (call : TierCall)

/-- What an access leaves of a tier whose policy knows the key. -/
theorem access_eq {key : String} {block : BlockMeta} {countHit : Bool} {state : TierState}
    (h : key ∈ state.recency) :
    access call key block countHit state = .ok () { state with
      accessSeq := state.accessSeq + 1
      blocks := state.blocks.insert key { block with
        lastAccessTimeMs := call.nowMs
        lastAccessSeq := state.accessSeq + 1
        hitCount := if countHit then block.hitCount + 1 else block.hitCount }
      recency := Lru.touch state.recency key } := by
  unfold access LRUEvictionPolicy.onAccess
  simp [bind_apply, h, Lru.touch]

theorem evictOne_eq {oldest : String} {rest : List String} {block : BlockMeta}
    {state : TierState} (hrecency : state.recency = oldest :: rest)
    (hblock : state.blocks.lookup oldest = some block) (hlen : state.blocks.len ≠ 0) :
    ∃ events, tier.evictOne call state = .ok () { state with
      blocks := state.blocks.erase oldest
      recency := rest
      events } := by
  unfold evictOne LRUEvictionPolicy.selectVictim LRUEvictionPolicy.onRemove
  simp only [bind_apply, get_apply, hrecency, hlen, hblock, if_false, check_ok_apply,
    modify_apply, List.mem_cons_self, if_true, List.erase_cons_head]
  exact ⟨_, rfl⟩

end Operations

namespace Holds

variable {tier : LruTier} {state : TierState} {order : List String}

theorem fresh (tier : LruTier) : tier.Holds {} [] where
  recency_eq := rfl
  nodup := .nil
  mem_blocks key := iff_of_false Finmap.notMem_empty List.not_mem_nil
  seq_lt := .nil
  seq_le key block h := by simp at h
  length_le := Nat.zero_le _

/-- What is not about the contents does not matter. -/
theorem of_events (h : tier.Holds state order) (events : List CacheEvent) :
    tier.Holds { state with events } order :=
  ⟨h.recency_eq, h.nodup, h.mem_blocks, h.seq_lt, h.seq_le, h.length_le⟩

theorem len_eq (h : tier.Holds state order) : state.blocks.len = order.length := by
  have hkeys : state.blocks.keys = order.toFinset := by
    ext key
    rw [Finmap.mem_keys, h.mem_blocks, List.mem_toFinset]
  rw [Dict.len, hkeys, List.toFinset_card_of_nodup h.nodup]

/-- A key gets the next sequence number and the last place in the recency list. -/
theorem latest (h : tier.Holds state order) (key : String) (block : BlockMeta)
    (hseq : block.lastAccessSeq = state.accessSeq + 1)
    (hlength : (Lru.touch order key).length ≤ tier.capacityBlocks) :
    tier.Holds { state with
      accessSeq := state.accessSeq + 1
      blocks := state.blocks.insert key block
      recency := Lru.touch state.recency key } (Lru.touch order key) where
  recency_eq := congrArg (Lru.touch · key) h.recency_eq
  nodup := Lru.Nodup.touch h.nodup key
  mem_blocks other := by
    rw [Finmap.mem_insert, h.mem_blocks, Lru.mem_touch]
    exact or_comm
  seq_lt := by
    have hother : ∀ other ∈ order.erase key, (state.blocks.insert key block).lookup other =
        state.blocks.lookup other := fun other hmem ↦
      Finmap.lookup_insert_of_ne _ fun he ↦ h.nodup.not_mem_erase (he ▸ hmem)
    refine List.pairwise_append.mpr ⟨?_, List.pairwise_singleton _ _, ?_⟩
    · refine (h.seq_lt.sublist List.erase_sublist).imp_of_mem fun ha hb hlt ↦ ?_
      rw [hother _ ha, hother _ hb]
      exact hlt
    · intro other hmem last hlast earlier hearlier later hlater
      obtain rfl : last = key := List.mem_singleton.mp hlast
      rw [hother _ hmem] at hearlier
      rw [Finmap.lookup_insert] at hlater
      obtain rfl : block = later := Option.some.inj hlater
      rw [hseq]
      exact Nat.lt_succ_of_le (h.seq_le _ _ hearlier)
  seq_le other found hfound := by
    rcases eq_or_ne other key with rfl | hne
    · rw [Finmap.lookup_insert] at hfound
      obtain rfl : block = found := Option.some.inj hfound
      exact hseq.le
    · rw [Finmap.lookup_insert_of_ne _ hne] at hfound
      exact (h.seq_le _ _ hfound).trans (Nat.le_succ _)
  length_le := hlength

/-- The least recently used key goes. -/
theorem drop_oldest {oldest : String} {rest : List String}
    (h : tier.Holds state (oldest :: rest)) :
    tier.Holds { state with blocks := state.blocks.erase oldest, recency := rest } rest := by
  obtain ⟨hnot, hrest⟩ := List.nodup_cons.mp h.nodup
  have hother : ∀ other ∈ rest, (state.blocks.erase oldest).lookup other =
      state.blocks.lookup other := fun other hmem ↦
    Finmap.lookup_erase_ne fun he ↦ hnot (he ▸ hmem)
  refine ⟨rfl, hrest, fun key ↦ ?_, ?_, fun key block hblock ↦ ?_, ?_⟩
  · rw [Finmap.mem_erase, h.mem_blocks, List.mem_cons]
    constructor
    · exact fun hmem ↦ hmem.2.resolve_left hmem.1
    · exact fun hmem ↦ ⟨fun he ↦ hnot (he ▸ hmem), .inr hmem⟩
  · refine (List.pairwise_cons.mp h.seq_lt).2.imp_of_mem fun ha hb hlt ↦ ?_
    rw [hother _ ha, hother _ hb]
    exact hlt
  · rcases eq_or_ne key oldest with rfl | hne
    · simp at hblock
    · rw [Finmap.lookup_erase_ne hne] at hblock
      exact h.seq_le _ _ hblock
  · exact (Nat.le_succ _).trans h.length_le

theorem lookup_eq_none_iff (h : tier.Holds state order) {key : String} :
    state.blocks.lookup key = none ↔ key ∉ order := by
  rw [Finmap.lookup_eq_none, h.mem_blocks]

/-- Metadata of a resident key was looked up: the key is used. -/
theorem access (h : tier.Holds state order) {key : String} {block : BlockMeta}
    (hblock : state.blocks.lookup key = some block) (call : TierCall) (countHit : Bool) :
    ∃ state', LruTier.access call key block countHit state = .ok () state' ∧
      tier.Holds state' (Lru.touch order key) := by
  have hmem : key ∈ order := (h.mem_blocks key).mp (Dict.mem_iff_lookup.mpr ⟨_, hblock⟩)
  refine ⟨_, access_eq call (h.recency_eq ▸ hmem), h.latest key _ rfl ?_⟩
  rw [Lru.length_touch_of_mem hmem]
  exact h.length_le

theorem emit (h : tier.Holds state order) (call : TierCall) (eventType : CacheEventType)
    (block : PrefixBlock) (reason : String) (sourceTier targetTier : Option CacheTier)
    (storeTokens : ℕ) :
    ∃ state', tier.emit call eventType block reason sourceTier targetTier storeTokens state =
      .ok () state' ∧ tier.Holds state' order :=
  ⟨_, rfl, h.of_events _⟩

/-- The hit loop finds the leading resident blocks, and uses them in their order. -/
theorem lookupHits (h : tier.Holds state order) (call : TierCall) (blocks : List PrefixBlock) :
    ∃ state', tier.lookupHits call blocks state =
        .ok (Lru.hits PrefixBlock.blockKey order blocks) state' ∧
      tier.Holds state' (Lru.lookup PrefixBlock.blockKey order blocks) := by
  induction blocks generalizing state order with
  | nil => exact ⟨state, rfl, h⟩
  | cons block blocks ih =>
    unfold LruTier.lookupHits
    cases hblock : state.blocks.lookup block.blockKey with
    | none =>
      have hmem := h.lookup_eq_none_iff.mp hblock
      rw [Lru.hits_cons_of_not_mem hmem, Lru.lookup_cons_of_not_mem hmem]
      simp only [bind_apply, get_apply, hblock]
      exact ⟨state, rfl, h⟩
    | some existing =>
      have hmem := (h.mem_blocks _).mp (Dict.mem_iff_lookup.mpr ⟨_, hblock⟩)
      obtain ⟨used, haccess, hused⟩ := h.access hblock call true
      obtain ⟨told, hemit, htold⟩ := hused.emit call .lookupHit block "prefix_hit"
        tier.ddrLabel none 0
      obtain ⟨final, hrest, hfinal⟩ := ih htold
      rw [Lru.hits_touch hmem] at hrest
      rw [Lru.hits_cons_of_mem hmem, Lru.lookup_cons_of_mem hmem]
      simp only [bind_apply, get_apply, hblock, haccess, hemit, hrest]
      exact ⟨final, rfl, hfinal⟩

theorem emitMisses (h : tier.Holds state order) (call : TierCall) (blocks : List PrefixBlock) :
    ∃ state', tier.emitMisses call blocks state = .ok () state' ∧ tier.Holds state' order := by
  induction blocks generalizing state with
  | nil => exact ⟨state, rfl, h⟩
  | cons block blocks ih =>
    obtain ⟨told, hemit, htold⟩ := h.emit call .lookupMiss block "prefix_miss" none none 0
    obtain ⟨final, hrest, hfinal⟩ := ih htold
    unfold LruTier.emitMisses
    simp only [bind_apply, hemit, hrest]
    exact ⟨final, rfl, hfinal⟩

theorem lookupPrefix (h : tier.Holds state order) (call : TierCall) (blocks : List PrefixBlock) :
    ∃ state', tier.lookupPrefix call blocks state =
        .ok (Lru.hits PrefixBlock.blockKey order blocks,
          Lru.misses PrefixBlock.blockKey order blocks) state' ∧
      tier.Holds state' (Lru.lookup PrefixBlock.blockKey order blocks) := by
  obtain ⟨used, hhits, hused⟩ := h.lookupHits call blocks
  obtain ⟨final, hmisses, hfinal⟩ := hused.emitMisses call
    (Lru.misses PrefixBlock.blockKey order blocks)
  unfold LruTier.lookupPrefix
  simp only [bind_apply, hhits, ← Lru.misses_eq_drop, hmisses]
  exact ⟨final, rfl, hfinal⟩

theorem evictOne {oldest : String} {rest : List String} (h : tier.Holds state (oldest :: rest))
    (call : TierCall) :
    ∃ state', tier.evictOne call state = .ok () state' ∧ tier.Holds state' rest := by
  obtain ⟨block, hblock⟩ := Dict.mem_iff_lookup.mp
    ((h.mem_blocks oldest).mpr List.mem_cons_self)
  obtain ⟨events, hevict⟩ := evictOne_eq tier call h.recency_eq hblock
    (h.len_eq ▸ Nat.succ_ne_zero _)
  exact ⟨_, hevict, h.drop_oldest.of_events events⟩

/-- No turn of the loop evicts while there is room. -/
theorem evictLoop_of_room (h : tier.Holds state order) (call : TierCall)
    (hroom : order.length < tier.capacityBlocks) (turns : ℕ) :
    tier.evictLoop call turns state = .ok () state := by
  cases turns with
  | zero => rfl
  | succ turns =>
    unfold LruTier.evictLoop
    simp only [bind_apply, get_apply, h.len_eq, not_le.mpr hroom, ge_iff_le, if_false]
    rfl

/-- Evicting makes room for one block, and only if there is none. -/
theorem evictLoop (h : tier.Holds state order) (call : TierCall) :
    ∃ state', tier.evictLoop call state.blocks.len state = .ok () state' ∧
      tier.Holds state' (if order.length < tier.capacityBlocks then order else order.tail) := by
  split_ifs with hroom
  · exact ⟨state, h.evictLoop_of_room call hroom _, h⟩
  · obtain ⟨oldest, rest, rfl⟩ : ∃ oldest rest, order = oldest :: rest :=
      List.exists_cons_of_length_pos (tier.capacity_pos.trans_le (not_lt.mp hroom))
    obtain ⟨evicted, hevict, hevicted⟩ := h.evictOne call
    refine ⟨evicted, ?_, hevicted⟩
    have hrest := hevicted.evictLoop_of_room call h.length_le rest.length
    rw [h.len_eq, List.length_cons]
    unfold LruTier.evictLoop
    simp only [bind_apply, get_apply, h.len_eq, ge_iff_le, not_lt.mp hroom, if_true, hevict, hrest]

/-- A block that is not there is stored last, as the new owner of its key. -/
theorem insertBlock (h : tier.Holds state order) (call : TierCall) {block : PrefixBlock}
    (hroom : order.length < tier.capacityBlocks) (hnot : block.blockKey ∉ order) :
    ∃ state', LruTier.insertBlock call block state = .ok () state' ∧
      tier.Holds state' (order ++ [block.blockKey]) := by
  have hlatest := h.latest block.blockKey {
    blockIndex := block.blockIndex
    tokenCount := block.tokenCount
    sizeBytes := block.sizeBytes
    createdTimeMs := call.nowMs
    lastAccessTimeMs := call.nowMs
    lastAccessSeq := state.accessSeq + 1
    writtenByRequestId := call.requestId
    instanceUuid := call.instanceUuid } rfl
  rw [Lru.touch_of_not_mem hnot, List.length_append, List.length_singleton] at hlatest
  exact ⟨_, rfl, hlatest hroom⟩

/-- Writing moves the blocks that are there to the back, and stores the others. -/
theorem write (h : tier.Holds state order) (call : TierCall) (reason : String)
    (blocks : List PrefixBlock) :
    ∃ state', tier.write call reason blocks state = .ok () state' ∧
      tier.Holds state' (Lru.write PrefixBlock.blockKey tier.capacityBlocks order blocks) := by
  induction blocks generalizing state order with
  | nil => exact ⟨state, rfl, h⟩
  | cons block blocks ih =>
    unfold LruTier.write
    cases hblock : state.blocks.lookup block.blockKey with
    | none =>
      have hmem := h.lookup_eq_none_iff.mp hblock
      obtain ⟨roomy, hevict, hroomy⟩ := h.evictLoop call
      have hnot : block.blockKey ∉
          if order.length < tier.capacityBlocks then order else order.tail := by
        split_ifs
        · exact hmem
        · exact fun htail ↦ hmem (List.mem_of_mem_tail htail)
      obtain ⟨stored, hinsert, hstored⟩ := hroomy.insertBlock call
        (Lru.length_tail_lt tier.capacity_pos h.length_le) hnot
      obtain ⟨told, hemit, htold⟩ := hstored.emit call tier.writeEvent block reason none
        tier.ddrLabel (if tier.tier = .ddr then block.tokenCount else 0)
      obtain ⟨final, hrest, hfinal⟩ := ih htold
      simp only [bind_apply, get_apply, hblock, hevict, hinsert, hemit, hrest]
      refine ⟨final, rfl, ?_⟩
      rwa [Lru.write, List.foldl_cons, Lru.store, if_neg hmem]
    | some existing =>
      have hmem := (h.mem_blocks _).mp (Dict.mem_iff_lookup.mpr ⟨_, hblock⟩)
      obtain ⟨used, haccess, hused⟩ := h.access hblock call false
      obtain ⟨final, hrest, hfinal⟩ := ih hused
      simp only [bind_apply, get_apply, hblock, haccess, hrest]
      refine ⟨final, rfl, ?_⟩
      rwa [Lru.write, List.foldl_cons, Lru.store, if_pos hmem]

theorem takeEvents (h : tier.Holds state order) :
    tier.Holds (LruTier.takeEvents state).2 order :=
  h.of_events _

end Holds

end LruTier

end InferTwin
