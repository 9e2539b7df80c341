import InferTwin.Cache.CacheBlockConversion
import InferTwin.Cache.CachedTokenAccounting
import InferTwin.Request.Tiling
import InferTwin.Sample

namespace InferTwin

/-- The closed form of the counting loop. -/
theorem count_matchable_eq {size : ℕ} (hpos : 0 < size) {blocks : List PrefixBlock}
    (h : Tiled size blocks) (limit tokens : ℕ) :
    countMatchableFullBlocks size limit tokens blocks =
      min (fullBlocks size blocks) ((limit - tokens) / size) := by
  induction h generalizing tokens with
  | nil => simp [countMatchableFullBlocks]
  | tail _ hlt =>
    unfold countMatchableFullBlocks
    rw [if_pos hlt.ne, fullBlocks_singleton_ne hlt.ne, Nat.zero_min]
  | full hfull _ ih =>
    unfold countMatchableFullBlocks
    rw [if_neg (not_not.mpr hfull), hfull, fullBlocks_cons_full hfull]
    split_ifs with hover
    · have hnone : (limit - tokens) / size = 0 := Nat.div_eq_of_lt (by omega)
      rw [hnone, Nat.min_zero]
    · have hstep : (limit - tokens) / size = (limit - (tokens + size)) / size + 1 := by
        rw [← Nat.add_div_right _ hpos]
        congr 1
        omega
      rw [ih, hstep, Nat.add_min_add_right]

/-- What one tier contributes under a budget of tokens. -/
theorem take_accounted_eq {size : ℕ} (hpos : 0 < size) {blocks : List PrefixBlock}
    (h : Tiled size blocks) (budget : ℕ) :
    takeAccountedBlocks blocks budget size =
      (blocks.take (min (fullBlocks size blocks) (budget / size)),
        min (fullBlocks size blocks) (budget / size) * size) := by
  have hblocks : (takeAccountedBlocks blocks budget size).1 =
      blocks.take (min (fullBlocks size blocks) (budget / size)) := by
    unfold takeAccountedBlocks
    split_ifs with hnone
    · simp [hnone]
    · rw [select_accounted_eq_take, count_matchable_eq hpos h, Nat.sub_zero]
  refine Prod.ext hblocks ?_
  rw [take_accounted_tokens, hblocks, h.take_tokens (min_le_left _ _)]

/-- A raw lookup of a whole prompt, cut into `size`-token blocks. -/
structure PrefixLookupResult.Cuts (lookup : PrefixLookupResult) (size promptTokens : ℕ) :
    Prop where
  size_pos : 0 < size
  tiled : Tiled size (lookup.hbmHitBlocks ++ lookup.ddrHitBlocks ++ lookup.missBlocks)
  tokens : blockTokens (lookup.hbmHitBlocks ++ lookup.ddrHitBlocks ++ lookup.missBlocks) =
    promptTokens

/-- How many blocks of a prompt may count as cached, `matched` of them being resident. -/
def cachedBlocks (size promptTokens drop matched : ℕ) : ℕ :=
  min matched ((promptTokens - 1) / size) - drop

/-- An accounting that caps the raw hits at `cached` blocks, HBM first. -/
structure AccountedLookupResult.Caps (accounted : AccountedLookupResult)
    (lookup : PrefixLookupResult) (size promptTokens cached : ℕ) : Prop where
  cap_eq : accounted.cachedTokenCap = cached * size
  hbm_eq : accounted.hbmHitTokens = min (fullBlocks size lookup.hbmHitBlocks) cached * size
  hit_eq : accounted.hbmHitTokens + accounted.ddrHitTokens = cached * size
  sum_eq : accounted.hbmHitTokens + accounted.ddrHitTokens + accounted.missTokens = promptTokens
  hbm_blocks : accounted.hbmHitBlocks =
    lookup.hbmHitBlocks.take (min (fullBlocks size lookup.hbmHitBlocks) cached)
  ddr_blocks : accounted.ddrHitBlocks <+: lookup.ddrHitBlocks
  ddr_eq : accounted.ddrHitTokens = blockTokens accounted.ddrHitBlocks

namespace AccountedLookupResult.Caps

variable {accounted other : AccountedLookupResult} {lookup : PrefixLookupResult}
  {size size' promptTokens cached : ℕ}

/-- Where nothing counts as cached, the block size does not matter. -/
theorem nothing (h : accounted.Caps lookup size promptTokens 0) :
    accounted.Caps lookup size' promptTokens 0 where
  cap_eq := by rw [h.cap_eq, Nat.zero_mul, Nat.zero_mul]
  hbm_eq := by rw [h.hbm_eq, Nat.min_zero, Nat.min_zero, Nat.zero_mul, Nat.zero_mul]
  hit_eq := by rw [h.hit_eq, Nat.zero_mul, Nat.zero_mul]
  sum_eq := h.sum_eq
  hbm_blocks := by rw [h.hbm_blocks, Nat.min_zero, Nat.min_zero]
  ddr_blocks := h.ddr_blocks
  ddr_eq := h.ddr_eq

theorem tokens_eq (h : accounted.Caps lookup size promptTokens cached)
    (h' : other.Caps lookup size promptTokens cached) :
    accounted.hbmHitTokens = other.hbmHitTokens ∧ accounted.ddrHitTokens = other.ddrHitTokens ∧
      accounted.missTokens = other.missTokens := by
  have hhbm := h.hbm_eq.trans h'.hbm_eq.symm
  have hhit := h.hit_eq.trans h'.hit_eq.symm
  have hsum := h.sum_eq.trans h'.sum_eq.symm
  omega

end AccountedLookupResult.Caps

namespace PrefixLookupResult.Cuts

variable {lookup : PrefixLookupResult} {size promptTokens : ℕ}

theorem hits_tiled (h : lookup.Cuts size promptTokens) : Tiled size lookup.hitBlocks :=
  h.tiled.of_append

/-- The raw hits never hold more tokens than the prompt. -/
theorem hit_tokens_le (h : lookup.Cuts size promptTokens) :
    fullBlocks size lookup.hitBlocks * size ≤ promptTokens := by
  have hfull := h.hits_tiled.full_tokens_le
  have htokens := h.tokens
  rw [blockTokens_append] at htokens
  exact hfull.trans (htokens ▸ Nat.le_add_right _ _)

/-- The two tiers under the cap, which the full blocks they hold make up. -/
theorem tiers (h : lookup.Cuts size promptTokens) {cached : ℕ}
    (hcached : cached ≤ fullBlocks size lookup.hitBlocks) :
    let hbm := takeAccountedBlocks lookup.hbmHitBlocks (cached * size) size
    hbm.2 = min (fullBlocks size lookup.hbmHitBlocks) cached * size ∧
      hbm.1 = lookup.hbmHitBlocks.take (min (fullBlocks size lookup.hbmHitBlocks) cached) ∧
      hbm.2 + (takeAccountedBlocks lookup.ddrHitBlocks (cached * size - hbm.2) size).2 =
        cached * size := by
  rw [take_accounted_eq h.size_pos h.hits_tiled.of_append, Nat.mul_div_cancel _ h.size_pos]
  refine ⟨rfl, rfl, ?_⟩
  dsimp only
  rw [← Nat.sub_mul, take_accounted_eq h.size_pos h.hits_tiled.of_append_right,
    Nat.mul_div_cancel _ h.size_pos, ← Nat.add_mul]
  rw [PrefixLookupResult.hitBlocks, fullBlocks_append] at hcached
  congr 1
  omega

/-- Accounting under any conversion that divides by the block size and allows for the last
token. -/
theorem account (h : lookup.Cuts size promptTokens)
    (blockConversion : Option CacheBlockConversionResult)
    {conversion : CacheBlockConversionResult}
    (hgiven : blockConversion.getD (legacyConversionResult lookup promptTokens) = conversion)
    (hsize : conversion.effectiveBlockSize = size)
    (hlength : conversion.maxCacheHitLength = promptTokens - 1)
    (hmatchable : conversion.maxMatchableBlocks = (promptTokens - 1) / size)
    (hreason : conversion.unsupportedReason = none) :
    ∃ accounted, accountPrefixLookup lookup promptTokens blockConversion = .ok accounted ∧
      accounted.Caps lookup size promptTokens
        (cachedBlocks size promptTokens conversion.speculativeDropBlocks
          (fullBlocks size lookup.hitBlocks)) := by
  have hcap : cachedTokenCap conversion lookup.hitBlocks =
      cachedBlocks size promptTokens conversion.speculativeDropBlocks
        (fullBlocks size lookup.hitBlocks) * size := by
    unfold cachedTokenCap cachedBlocks
    dsimp only
    rw [hsize, hlength, hmatchable, count_matchable_eq h.size_pos h.hits_tiled, Nat.sub_zero,
      min_assoc, min_self]
  generalize hcached : cachedBlocks size promptTokens conversion.speculativeDropBlocks
    (fullBlocks size lookup.hitBlocks) = cached at hcap ⊢
  have hle : cached ≤ fullBlocks size lookup.hitBlocks := by
    rw [← hcached, cachedBlocks]
    omega
  obtain ⟨hhbm, hblocks, hsum⟩ := h.tiers hle
  have hfit : cached * size ≤ promptTokens :=
    (Nat.mul_le_mul_right size hle).trans h.hit_tokens_le
  unfold accountPrefixLookup
  dsimp only
  rw [hgiven, hreason, hsize, hcap]
  dsimp only
  rw [if_neg (by omega)]
  refine ⟨_, rfl, rfl, hhbm, hsum, ?_, hblocks, take_accounted_prefix _ _ _,
    take_accounted_tokens _ _ _⟩
  dsimp only
  omega

/-- Accounting under what the conversion policy computes for the block size. -/
theorem account_calculate (h : lookup.Cuts size promptTokens) {blockSize : BlockSizeResolution}
    (heffective : blockSize.effectiveBlockSize = size) (hsupported : blockSize.supported)
    (matchedBlocks : Option ℕ) (drop : ℕ) :
    ∃ conversion accounted,
      CacheBlockConversionInput.calculate {
        promptTokens, blockSize, matchedBlocks, speculativeDropBlocks := drop } = .ok conversion ∧
      conversion.cachedTokens = cachedBlocks size promptTokens drop
        (matchedBlocks.getD ((promptTokens - 1) / size)) * size ∧
      accountPrefixLookup lookup promptTokens (some conversion) = .ok accounted ∧
      accounted.Caps lookup size promptTokens
        (cachedBlocks size promptTokens drop (fullBlocks size lookup.hitBlocks)) := by
  subst heffective
  obtain ⟨conversion, hcalculate, hsize, hlength, hmatchable, hdrop, hcached, hreason⟩ :=
    CacheBlockConversionInput.calculate_ok {
      promptTokens, blockSize, matchedBlocks, speculativeDropBlocks := drop } h.size_pos hsupported
  obtain ⟨accounted, haccount, hcaps⟩ :=
    h.account (some conversion) rfl hsize hlength hmatchable hreason
  rw [Option.getD_some, hdrop] at hcaps
  exact ⟨conversion, accounted, hcalculate, by rw [hcached, hmatchable]; rfl, haccount, hcaps⟩

/-- The block size that is inferred where no conversion is given: that of the full blocks, if
there are any. -/
theorem infer_of_full (h : lookup.Cuts size promptTokens)
    (hfull : 0 < fullBlocks size (lookup.hbmHitBlocks ++ lookup.ddrHitBlocks ++ lookup.missBlocks)) :
    inferEffectiveBlockSize lookup promptTokens = size := by
  obtain ⟨block, hblock, hsize⟩ := List.countP_pos_iff.mp hfull
  have hmax : (((lookup.hbmHitBlocks ++ lookup.ddrHitBlocks ++ lookup.missBlocks).map
      PrefixBlock.tokenCount).filter (0 < ·)).max? = some size := by
    refine List.max?_eq_some_iff.mpr ⟨?_, ?_⟩
    · refine List.mem_filter.mpr ⟨List.mem_map.mpr ⟨block, hblock, of_decide_eq_true hsize⟩, ?_⟩
      exact decide_eq_true h.size_pos
    · intro count hcount
      obtain ⟨other, hother, rfl⟩ := List.mem_map.mp (List.mem_filter.mp hcount).1
      exact h.tiled.count_le hother
  unfold inferEffectiveBlockSize
  dsimp only
  rw [hmax]

/-- Without a full block the prompt is one short block, or empty, and its own length is the
block size that is inferred. -/
theorem infer_of_short (h : lookup.Cuts size promptTokens)
    (hnone : fullBlocks size (lookup.hbmHitBlocks ++ lookup.ddrHitBlocks ++ lookup.missBlocks) = 0) :
    lookup.Cuts (inferEffectiveBlockSize lookup promptTokens) promptTokens ∧
      promptTokens - 1 < inferEffectiveBlockSize lookup promptTokens := by
  have htokens := h.tokens
  rcases h.tiled.length_le_one hnone with hnil | ⟨block, hone, hpos, -⟩
  · rw [hnil] at htokens
    subst htokens
    have hinfer : inferEffectiveBlockSize lookup 0 = 1 := by
      unfold inferEffectiveBlockSize
      rw [hnil]
      rfl
    rw [blockTokens_nil, hinfer]
    exact ⟨⟨Nat.one_pos, hnil ▸ .nil, by rw [hnil]; rfl⟩, Nat.one_pos⟩
  · rw [hone] at htokens
    obtain rfl : block.tokenCount = promptTokens := by simpa using htokens
    have hmax : (([block].map PrefixBlock.tokenCount).filter (0 < ·)).max? =
        some block.tokenCount := by simp [hpos]
    have hinfer : inferEffectiveBlockSize lookup block.tokenCount = block.tokenCount := by
      unfold inferEffectiveBlockSize
      dsimp only
      rw [hone, hmax]
    rw [hinfer]
    exact ⟨⟨hpos, hone ▸ .full rfl .nil, by rw [hone]; simp⟩, Nat.sub_lt hpos Nat.one_pos⟩

/-- Accounting without a conversion caps the hits as one without a drop does. -/
theorem account_legacy (h : lookup.Cuts size promptTokens) :
    ∃ accounted, accountPrefixLookup lookup promptTokens none = .ok accounted ∧
      accounted.Caps lookup size promptTokens
        (cachedBlocks size promptTokens 0 (fullBlocks size lookup.hitBlocks)) := by
  rcases Nat.eq_zero_or_pos (fullBlocks size
    (lookup.hbmHitBlocks ++ lookup.ddrHitBlocks ++ lookup.missBlocks)) with hnone | hfull
  · obtain ⟨hcuts, hlt⟩ := h.infer_of_short hnone
    obtain ⟨accounted, haccount, hcaps⟩ := hcuts.account none rfl rfl rfl rfl rfl
    have hhits : fullBlocks size lookup.hitBlocks = 0 := by
      rw [fullBlocks_append] at hnone
      exact (Nat.add_eq_zero_iff.mp hnone).1
    have hlegacy : (cachedBlocks (inferEffectiveBlockSize lookup promptTokens) promptTokens
        (legacyConversionResult lookup promptTokens).speculativeDropBlocks
        (fullBlocks (inferEffectiveBlockSize lookup promptTokens) lookup.hitBlocks)) = 0 := by
      rw [cachedBlocks, Nat.div_eq_of_lt hlt, Nat.min_zero, Nat.zero_sub]
    have hdirect : cachedBlocks size promptTokens 0 (fullBlocks size lookup.hitBlocks) = 0 := by
      rw [cachedBlocks, hhits, Nat.zero_min, Nat.zero_sub]
    rw [Option.getD_none, hlegacy] at hcaps
    rw [hdirect]
    exact ⟨accounted, haccount, hcaps.nothing⟩
  · have hsize := h.infer_of_full hfull
    exact h.account none rfl hsize rfl (by rw [← hsize]; rfl) rfl

end PrefixLookupResult.Cuts

/-- What accounting owes a raw lookup of a prompt in `size`-token blocks: HBM and DDR hits that
make up the cap, whole blocks that leave at least the last token to compute, and prefixes of
the raw hits, the DDR ones being given up before any of HBM. -/
structure AccountedLookupResult.Lawful (accounted : AccountedLookupResult)
    (lookup : PrefixLookupResult) (size promptTokens : ℕ) : Prop where
  hit_eq : accounted.hbmHitTokens + accounted.ddrHitTokens = accounted.cachedTokenCap
  whole : size ∣ accounted.cachedTokenCap
  last_token : 0 < promptTokens →
    accounted.cachedTokenCap ≤ promptTokens - 1 ∧ 1 ≤ accounted.missTokens
  sum_eq : accounted.hbmHitTokens + accounted.ddrHitTokens + accounted.missTokens = promptTokens
  hbm_blocks : accounted.hbmHitBlocks <+: lookup.hbmHitBlocks
  ddr_blocks : accounted.ddrHitBlocks <+: lookup.ddrHitBlocks
  hbm_first : accounted.hbmHitTokens =
    min (fullBlocks size lookup.hbmHitBlocks * size) accounted.cachedTokenCap
  ddr_last : 0 < accounted.ddrHitTokens → accounted.hbmHitBlocks = lookup.hbmHitBlocks

namespace AccountedLookupResult.Caps

variable {accounted : AccountedLookupResult} {lookup : PrefixLookupResult}
  {size promptTokens : ℕ}

/-- A cap in blocks is lawful whatever was matched and dropped to get it. -/
theorem lawful (hcuts : lookup.Cuts size promptTokens) {drop matched : ℕ}
    (h : accounted.Caps lookup size promptTokens (cachedBlocks size promptTokens drop matched)) :
    accounted.Lawful lookup size promptTokens where
  hit_eq := h.hit_eq.trans h.cap_eq.symm
  whole := ⟨_, h.cap_eq.trans (Nat.mul_comm _ _)⟩
  last_token hprompt := by
    have hcap : accounted.cachedTokenCap ≤ promptTokens - 1 := by
      rw [h.cap_eq]
      refine le_trans (Nat.mul_le_mul_right size ?_) (Nat.div_mul_le_self (promptTokens - 1) size)
      exact (Nat.sub_le _ _).trans (min_le_right _ _)
    have hsum := h.sum_eq
    rw [h.hit_eq, ← h.cap_eq] at hsum
    omega
  sum_eq := h.sum_eq
  hbm_blocks := h.hbm_blocks ▸ List.take_prefix _ _
  ddr_blocks := h.ddr_blocks
  hbm_first := by rw [h.hbm_eq, h.cap_eq, Nat.mul_min_mul_right]
  ddr_last hddr := by
    have hcached : fullBlocks size lookup.hbmHitBlocks <
        cachedBlocks size promptTokens drop matched := by
      by_contra hle
      have hhbm := h.hbm_eq
      have hhit := h.hit_eq
      rw [min_eq_right (not_lt.mp hle)] at hhbm
      omega
    have hfull : fullBlocks size lookup.hbmHitBlocks = lookup.hbmHitBlocks.length := by
      refine List.countP_eq_length.mpr fun block hblock ↦ decide_eq_true ?_
      refine hcuts.hits_tiled.full_of_append ?_ block hblock
      intro hnil
      have hddr_blocks := h.ddr_blocks
      rw [hnil, List.prefix_nil] at hddr_blocks
      rw [h.ddr_eq, hddr_blocks] at hddr
      exact lt_irrefl 0 hddr
    rw [h.hbm_blocks, min_eq_left hcached.le, hfull, List.take_length]

end AccountedLookupResult.Caps

/-- Accounting of cached tokens: for every prompt that is cut into blocks, every split of the
blocks into hits and misses and every drop. -/
theorem cached_token_accounting_law {sha256 : List UInt8 → List UInt8} {tokenIds : List ℕ}
    {settings : BlockSettings} {lookup : PrefixLookupResult}
    (hbuild : buildPrefixBlocks sha256 tokenIds settings =
      .ok (lookup.hbmHitBlocks ++ lookup.ddrHitBlocks ++ lookup.missBlocks))
    (blockSize : BlockSizeResolution)
    (heffective : blockSize.effectiveBlockSize = settings.blockSizeTokens)
    (hsupported : blockSize.supported) (drop : ℕ) :
    ∃ conversion accounted matched legacy,
      CacheBlockConversionInput.calculate {
        promptTokens := tokenIds.length, blockSize, speculativeDropBlocks := drop } =
          .ok conversion ∧
      accountPrefixLookup lookup tokenIds.length (some conversion) = .ok accounted ∧
      accounted.Lawful lookup settings.blockSizeTokens tokenIds.length ∧
      CacheBlockConversionInput.calculate {
        promptTokens := tokenIds.length, blockSize
        matchedBlocks := some (fullBlocks settings.blockSizeTokens lookup.hitBlocks)
        speculativeDropBlocks := drop } = .ok matched ∧
      accounted.cachedTokenCap = matched.cachedTokens ∧
      accountPrefixLookup lookup tokenIds.length none = .ok legacy ∧
      (drop = 0 → legacy.hbmHitTokens = accounted.hbmHitTokens ∧
        legacy.ddrHitTokens = accounted.ddrHitTokens ∧
        legacy.missTokens = accounted.missTokens) := by
  obtain ⟨hpos, htiled, htokens⟩ := build_prefix_blocks_tiled hbuild
  have hcuts : lookup.Cuts settings.blockSizeTokens tokenIds.length := ⟨hpos, htiled, htokens⟩
  obtain ⟨conversion, accounted, hconversion, -, haccounted, hcaps⟩ :=
    hcuts.account_calculate heffective hsupported none drop
  obtain ⟨matched, -, hmatched, hcached, -, -⟩ := hcuts.account_calculate heffective hsupported
    (some (fullBlocks settings.blockSizeTokens lookup.hitBlocks)) drop
  obtain ⟨legacy, hlegacy, hlegacyCaps⟩ := hcuts.account_legacy
  refine ⟨conversion, accounted, matched, legacy, hconversion, haccounted, hcaps.lawful hcuts,
    hmatched, hcaps.cap_eq.trans hcached.symm, hlegacy, ?_⟩
  rintro rfl
  exact hlegacyCaps.tokens_eq hcaps

/-- Four tokens in two blocks, one of them found in each tier: the last token has to be
computed, so nothing counts as cached in DDR. -/
def allResident : PrefixLookupResult where
  hbmHitBlocks := Sample.hashed.take 1
  ddrHitBlocks := (Sample.hashed.drop 1).take 1
  missBlocks := []

theorem build_four_tokens : buildPrefixBlocks Sha256.digest [1, 2, 3, 4] Sample.tokens =
    .ok (allResident.hbmHitBlocks ++ allResident.ddrHitBlocks ++ allResident.missBlocks) := by
  decide +kernel

theorem cached_token_accounting_law_four :
    ∃ conversion accounted, accountPrefixLookup allResident 4 (some conversion) = .ok accounted ∧
      accounted.Lawful allResident 2 4 := by
  obtain ⟨conversion, accounted, -, -, -, haccounted, hlawful, -⟩ :=
    cached_token_accounting_law build_four_tokens {
      requestedBlockSize := 2, runtimeBlockSize := 2, effectiveBlockSize := 2
      prefillContextParallelSize := 1, decodeContextParallelSize := 1
      cacheFamily := .fullAttention } rfl rfl 0
  exact ⟨conversion, accounted, haccounted, hlawful⟩

end InferTwin
