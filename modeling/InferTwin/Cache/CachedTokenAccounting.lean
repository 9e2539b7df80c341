import InferTwin.Cache.Interface

namespace InferTwin

structure AccountedLookupResult where
  hbmHitTokens : ℕ
  ddrHitTokens : ℕ
  missTokens : ℕ
  hbmHitBlocks : List PrefixBlock
  ddrHitBlocks : List PrefixBlock
  materializationBlocks : List PrefixBlock
  rawHbmHitTokens : ℕ
  rawDdrHitTokens : ℕ
  rawMissTokens : ℕ
  cachedTokenCap : ℕ
  deriving DecidableEq, Repr

/-- How many leading blocks are full and end within the cacheable length, `tokens` of
which are already used up. -/
def countMatchableFullBlocks (effectiveBlockSize maxCacheHitLength : ℕ) :
    ℕ → List PrefixBlock → ℕ
  | _, [] => 0
  | tokens, block :: blocks =>
    if block.tokenCount ≠ effectiveBlockSize then 0
    else if tokens + block.tokenCount > maxCacheHitLength then 0
    else countMatchableFullBlocks effectiveBlockSize maxCacheHitLength
      (tokens + block.tokenCount) blocks + 1

/-- The loop of `takeAccountedBlocks`, `tokens` of the budget being spent. -/
def selectAccountedBlocks (tokenBudget effectiveBlockSize : ℕ) :
    ℕ → List PrefixBlock → List PrefixBlock × ℕ
  | tokens, [] => ([], tokens)
  | tokens, block :: blocks =>
    if block.tokenCount ≠ effectiveBlockSize then ([], tokens)
    else if tokens + block.tokenCount > tokenBudget then ([], tokens)
    else
      let rest := selectAccountedBlocks tokenBudget effectiveBlockSize
        (tokens + block.tokenCount) blocks
      (block :: rest.1, rest.2)

def takeAccountedBlocks (blocks : List PrefixBlock) (tokenBudget effectiveBlockSize : ℕ) :
    List PrefixBlock × ℕ :=
  if tokenBudget = 0 then ([], 0)
  else selectAccountedBlocks tokenBudget effectiveBlockSize 0 blocks

def inferEffectiveBlockSize (lookup : PrefixLookupResult) (promptTokens : ℕ) : ℕ :=
  let tokenCounts := ((lookup.hbmHitBlocks ++ lookup.ddrHitBlocks ++ lookup.missBlocks).map
    PrefixBlock.tokenCount).filter (0 < ·)
  match tokenCounts.max? with
  | some tokenCount => tokenCount
  | none => max promptTokens 1

def legacyConversionResult (lookup : PrefixLookupResult) (promptTokens : ℕ) :
    CacheBlockConversionResult :=
  let effectiveBlockSize := inferEffectiveBlockSize lookup promptTokens
  let maxCacheHitLength := promptTokens - 1
  let maxMatchableBlocks := maxCacheHitLength / effectiveBlockSize
  { requestedBlockSize := effectiveBlockSize
    runtimeBlockSize := effectiveBlockSize
    effectiveBlockSize
    maxCacheHitLength
    maxMatchableBlocks
    matchedBlocks := maxMatchableBlocks
    speculativeDropBlocks := 0
    cachedBlocks := maxMatchableBlocks
    cachedTokens := maxMatchableBlocks * effectiveBlockSize }

/-- The cap on usage-cached tokens that a raw lookup earns under a conversion result. -/
def cachedTokenCap (conversion : CacheBlockConversionResult) (hits : List PrefixBlock) : ℕ :=
  let rawMatchableBlocks := countMatchableFullBlocks conversion.effectiveBlockSize
    conversion.maxCacheHitLength 0 hits
  let matchedBlocks := min rawMatchableBlocks conversion.maxMatchableBlocks
  (matchedBlocks - conversion.speculativeDropBlocks) * conversion.effectiveBlockSize

/-- Turn raw block hits into the token counts that replay charges. -/
def accountPrefixLookup (lookup : PrefixLookupResult) (promptTokens : ℕ)
    (blockConversion : Option CacheBlockConversionResult) :
    Except ReplayError AccountedLookupResult :=
  let conversion := blockConversion.getD (legacyConversionResult lookup promptTokens)
  match conversion.unsupportedReason with
  | some reason => .error (.unsupportedConversion reason)
  | none =>
    let cap := cachedTokenCap conversion lookup.hitBlocks
    let hbm := takeAccountedBlocks lookup.hbmHitBlocks cap conversion.effectiveBlockSize
    let ddr := takeAccountedBlocks lookup.ddrHitBlocks (cap - hbm.2) conversion.effectiveBlockSize
    if promptTokens < hbm.2 + ddr.2 then .error .hitTokensExceedPrompt
    else .ok {
      hbmHitTokens := hbm.2
      ddrHitTokens := ddr.2
      missTokens := promptTokens - hbm.2 - ddr.2
      hbmHitBlocks := hbm.1
      ddrHitBlocks := ddr.1
      materializationBlocks := lookup.missBlocks
      rawHbmHitTokens := lookup.hbmHitTokens
      rawDdrHitTokens := lookup.ddrHitTokens
      rawMissTokens := lookup.missTokens
      cachedTokenCap := cap }

theorem select_accounted_tokens (budget size tokens : ℕ) (blocks : List PrefixBlock) :
    (selectAccountedBlocks budget size tokens blocks).2 =
      tokens + blockTokens (selectAccountedBlocks budget size tokens blocks).1 := by
  induction blocks generalizing tokens with
  | nil => simp [selectAccountedBlocks]
  | cons block blocks ih =>
    unfold selectAccountedBlocks
    split_ifs
    · simp
    · simp
    · simp only [ih, blockTokens_cons]; omega

theorem select_accounted_prefix (budget size tokens : ℕ) (blocks : List PrefixBlock) :
    (selectAccountedBlocks budget size tokens blocks).1 <+: blocks := by
  induction blocks generalizing tokens with
  | nil => simp [selectAccountedBlocks]
  | cons block blocks ih =>
    unfold selectAccountedBlocks
    split_ifs
    · simp
    · simp
    · exact (List.prefix_cons_inj _).mpr (ih _)

/-- The loop over one tier takes as many blocks as the loop that counts them would. -/
theorem select_accounted_eq_take (budget size tokens : ℕ) (blocks : List PrefixBlock) :
    (selectAccountedBlocks budget size tokens blocks).1 =
      blocks.take (countMatchableFullBlocks size budget tokens blocks) := by
  induction blocks generalizing tokens with
  | nil => simp [selectAccountedBlocks]
  | cons block blocks ih =>
    unfold selectAccountedBlocks countMatchableFullBlocks
    split_ifs
    · rfl
    · rfl
    · exact congrArg (block :: ·) (ih _)

/-- More raw blocks in a row, and a larger limit, give no fewer matchable blocks. -/
theorem count_matchable_mono (size tokens : ℕ) {limit larger : ℕ} (hlimit : limit ≤ larger)
    {blocks more : List PrefixBlock} (h : blocks <+: more) :
    countMatchableFullBlocks size limit tokens blocks ≤
      countMatchableFullBlocks size larger tokens more := by
  induction blocks generalizing tokens more with
  | nil => exact Nat.zero_le _
  | cons block blocks ih =>
    obtain ⟨rest, rfl, hrest⟩ := List.cons_prefix_iff.mp h
    unfold countMatchableFullBlocks
    split_ifs with hsize hover hover'
    · exact le_rfl
    · exact le_rfl
    · exact Nat.zero_le _
    · omega
    · exact Nat.succ_le_succ (ih _ hrest)

theorem block_tokens_take_mono {n m : ℕ} (hn : n ≤ m) {blocks more : List PrefixBlock}
    (h : blocks <+: more) : blockTokens (blocks.take n) ≤ blockTokens (more.take m) := by
  have htake : blocks.take n <+: more.take m :=
    ((List.IsPrefix.take h n).trans (List.take_prefix_take_left hn))
  obtain ⟨rest, hrest⟩ := htake
  rw [← hrest, blockTokens_append]
  exact Nat.le_add_right _ _

theorem take_accounted_tokens (blocks : List PrefixBlock) (budget size : ℕ) :
    (takeAccountedBlocks blocks budget size).2 =
      blockTokens (takeAccountedBlocks blocks budget size).1 := by
  unfold takeAccountedBlocks
  split_ifs
  · rfl
  · simpa using select_accounted_tokens budget size 0 blocks

theorem take_accounted_prefix (blocks : List PrefixBlock) (budget size : ℕ) :
    (takeAccountedBlocks blocks budget size).1 <+: blocks := by
  unfold takeAccountedBlocks
  split_ifs
  · simp
  · exact select_accounted_prefix budget size 0 blocks

theorem take_accounted_mono (size : ℕ) {budget larger : ℕ} (hbudget : budget ≤ larger)
    {blocks more : List PrefixBlock} (h : blocks <+: more) :
    (takeAccountedBlocks blocks budget size).2 ≤ (takeAccountedBlocks more larger size).2 := by
  unfold takeAccountedBlocks
  split_ifs with hnone hnone'
  · exact le_rfl
  · exact Nat.zero_le _
  · omega
  · rw [select_accounted_tokens, select_accounted_tokens, select_accounted_eq_take,
      select_accounted_eq_take]
    exact Nat.add_le_add_left
      (block_tokens_take_mono (count_matchable_mono size 0 hbudget h) h) 0

/-- A longer raw HBM hit of the same blocks is never accounted fewer HBM tokens. -/
theorem account_hbm_mono {lookup longer : PrefixLookupResult} {promptTokens : ℕ}
    {blockConversion : Option CacheBlockConversionResult}
    {accounted accounted' : AccountedLookupResult}
    (hhits : lookup.hbmHitBlocks <+: longer.hbmHitBlocks)
    (hddr : lookup.ddrHitBlocks = []) (hddr' : longer.ddrHitBlocks = [])
    (hblocks : lookup.hbmHitBlocks ++ lookup.missBlocks = longer.hbmHitBlocks ++ longer.missBlocks)
    (h : accountPrefixLookup lookup promptTokens blockConversion = .ok accounted)
    (h' : accountPrefixLookup longer promptTokens blockConversion = .ok accounted') :
    accounted.hbmHitTokens ≤ accounted'.hbmHitTokens := by
  have hlegacy : legacyConversionResult lookup promptTokens =
      legacyConversionResult longer promptTokens := by
    unfold legacyConversionResult inferEffectiveBlockSize
    rw [hddr, hddr', List.append_nil, List.append_nil, hblocks]
  have hraw : lookup.hitBlocks <+: longer.hitBlocks := by
    rw [PrefixLookupResult.hitBlocks, PrefixLookupResult.hitBlocks, hddr, hddr', List.append_nil,
      List.append_nil]
    exact hhits
  unfold accountPrefixLookup at h h'
  dsimp only at h h'
  rw [hlegacy] at h
  generalize blockConversion.getD (legacyConversionResult longer promptTokens) = conversion at h h'
  have hcap : cachedTokenCap conversion lookup.hitBlocks ≤
      cachedTokenCap conversion longer.hitBlocks := by
    have hcount := count_matchable_mono conversion.effectiveBlockSize 0
      (le_refl conversion.maxCacheHitLength) hraw
    unfold cachedTokenCap
    dsimp only
    refine Nat.mul_le_mul_right _ (Nat.sub_le_sub_right ?_ _)
    exact min_le_min_right _ hcount
  cases hreason : conversion.unsupportedReason with
  | some reason => simp only [hreason, reduceCtorEq] at h
  | none =>
    simp only [hreason] at h h'
    split_ifs at h h'
    cases h
    cases h'
    exact take_accounted_mono _ hcap hhits

/-- What an accounted lookup always satisfies: hits and misses make up the prompt, the
hit tokens are those of prefixes of the raw hits, and all raw misses are to be stored. -/
theorem account_spec {lookup : PrefixLookupResult} {promptTokens : ℕ}
    {conversion : Option CacheBlockConversionResult} {accounted : AccountedLookupResult}
    (h : accountPrefixLookup lookup promptTokens conversion = .ok accounted) :
    accounted.hbmHitTokens + accounted.ddrHitTokens + accounted.missTokens = promptTokens ∧
    accounted.ddrHitTokens = blockTokens accounted.ddrHitBlocks ∧
    accounted.hbmHitTokens = blockTokens accounted.hbmHitBlocks ∧
    accounted.hbmHitBlocks <+: lookup.hbmHitBlocks ∧
    accounted.ddrHitBlocks <+: lookup.ddrHitBlocks ∧
    accounted.materializationBlocks = lookup.missBlocks := by
  unfold accountPrefixLookup at h
  dsimp only at h
  split at h
  · cases h
  · split_ifs at h with hle
    cases h
    refine ⟨?_, take_accounted_tokens _ _ _, take_accounted_tokens _ _ _,
      take_accounted_prefix _ _ _, take_accounted_prefix _ _ _, rfl⟩
    dsimp only
    omega

end InferTwin
