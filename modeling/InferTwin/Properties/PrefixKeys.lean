import InferTwin.Foundation.HashChain
import InferTwin.Properties.ProgressiveBlocks
import InferTwin.Request.BlockKeys
import InferTwin.Request.KeyEncoding

namespace InferTwin

open Effect HashChain

section Keys

/-- What the key of a block is made of besides the key before it. -/
structure KeyItem where
  model : String
  tenant : Option String
  contentHash : String

/-- The bytes hashed for a key. -/
def keyLink (parent : List UInt8) (item : KeyItem) : List UInt8 :=
  parent ++ fieldBytes item.model ++ item.tenant.elim [] fieldBytes ++ fieldBytes item.contentHash

/-- Texts whose length fits into its field. -/
def shortItems : Set KeyItem := {item | item.model.utf8ByteSize < 2 ^ 32 ∧
  (∀ tenant ∈ item.tenant, tenant.utf8ByteSize < 2 ^ 32) ∧ item.contentHash.utf8ByteSize < 2 ^ 32}

/-- The tenant of the keys, where they have one. -/
def BlockSettings.keyTenant (settings : BlockSettings) : Option String :=
  match settings.cacheScope with
  | .tenantIsolated => some settings.tenantId
  | _ => none

def keyItem (settings : BlockSettings) (block : PrefixBlock) : KeyItem where
  model := settings.model
  tenant := settings.keyTenant
  contentHash := block.contentHash

/-- A key with a tenant field cannot be taken for one without. -/
theorem tenant_content_inj {tenant tenant' : Option String} {content content' : String}
    (htenant : ∀ t ∈ tenant, t.utf8ByteSize < 2 ^ 32)
    (htenant' : ∀ t ∈ tenant', t.utf8ByteSize < 2 ^ 32) (hcontent : content.utf8ByteSize < 2 ^ 32)
    (hcontent' : content'.utf8ByteSize < 2 ^ 32)
    (h : tenant.elim [] fieldBytes ++ fieldBytes content =
      tenant'.elim [] fieldBytes ++ fieldBytes content') : tenant = tenant' ∧ content = content' := by
  rw [← List.append_nil (fieldBytes content), ← List.append_nil (fieldBytes content')] at h
  cases tenant with
  | none =>
    cases tenant' with
    | none => exact ⟨rfl, (field_bytes_inj hcontent hcontent' h).1⟩
    | some tenant' =>
      obtain ⟨-, hnil⟩ := field_bytes_inj hcontent (htenant' tenant' rfl) h
      rw [List.append_nil] at hnil
      exact absurd hnil.symm (field_bytes_ne_nil content')
  | some tenant =>
    cases tenant' with
    | none =>
      obtain ⟨-, hnil⟩ := field_bytes_inj (htenant tenant rfl) hcontent' h
      rw [List.append_nil] at hnil
      exact absurd hnil (field_bytes_ne_nil content)
    | some tenant' =>
      obtain ⟨hsame, hrest⟩ := field_bytes_inj (htenant tenant rfl) (htenant' tenant' rfl) h
      exact ⟨congrArg some hsame, (field_bytes_inj hcontent hcontent' hrest).1⟩

theorem key_link_parts {sha256 : List UInt8 → List UInt8}
    (hlength : ∀ message, (sha256 message).length = 32) :
    Unambiguous sha256 keyLink noneMessage shortItems where
  parts := by
    rintro message message' ⟨model, tenant, content⟩ ⟨hmodel, htenant, hcontent⟩
      ⟨model', tenant', content'⟩ ⟨hmodel', htenant', hcontent'⟩ h
    unfold keyLink at h
    simp only [List.append_assoc] at h
    obtain ⟨hparent, h⟩ := List.append_inj h (by rw [hlength, hlength])
    obtain ⟨hmodels, h⟩ := field_bytes_inj hmodel hmodel' h
    obtain ⟨htenants, hcontents⟩ := tenant_content_inj htenant htenant' hcontent hcontent' h
    exact ⟨hparent, (KeyItem.mk.injEq ..).mpr ⟨hmodels, htenants, hcontents⟩⟩
  root_ne := by
    intro message item _ h
    have hsize := congrArg List.length h
    unfold keyLink at hsize
    rw [List.length_append, List.length_append, List.length_append, hlength] at hsize
    have hshort := none_message_short
    omega

theorem encode_field_eq {value : String} {bytes : List UInt8} (h : encodeField value = .ok bytes) :
    bytes = fieldBytes value := by
  unfold encodeField toBytes at h
  dsimp only at h
  split_ifs at h
  cases h
  rfl

theorem chain_message_eq {settings : BlockSettings} {parent message : List UInt8}
    {block : PrefixBlock} (h : chainMessage settings parent block.contentHash = .ok message) :
    message = keyLink parent (keyItem settings block) := by
  unfold chainMessage at h
  unfold keyLink keyItem BlockSettings.keyTenant
  cases hscope : settings.cacheScope with
  | tenantIsolated =>
    simp only [hscope, except_bind_ok] at h
    obtain ⟨model, hmodel, tenant, htenant, content, hcontent, h⟩ := h
    cases h
    rw [encode_field_eq hmodel, encode_field_eq htenant, encode_field_eq hcontent]
    rfl
  | modelShared =>
    simp only [hscope, except_bind_ok] at h
    obtain ⟨model, hmodel, tenant, htenant, content, hcontent, h⟩ := h
    cases h
    cases htenant
    rw [encode_field_eq hmodel, encode_field_eq hcontent]
    rfl
  | other text =>
    simp only [hscope, except_bind_ok] at h
    obtain ⟨model, -, tenant, htenant, -⟩ := h
    cases htenant

end Keys

section Builds

variable {sha256 : List UInt8 → List UInt8} {settings : BlockSettings}

/-- A build that succeeds, block by block. -/
inductive Hashes (sha256 : List UInt8 → List UInt8) (settings : BlockSettings) :
    List UInt8 → ℕ → List ℕ → List PrefixBlock → Prop
  | nil {parent blockIndex} : Hashes sha256 settings parent blockIndex [] []
  | cons {parent blockIndex tokenIds content message block rest} : tokenIds ≠ [] →
      tokenBytes (tokenIds.take settings.blockSizeTokens) = .ok content →
      block.contentHash = hex (sha256 content) →
      chainMessage settings parent block.contentHash = .ok message →
      block.blockKey = hex (sha256 message) → block.blockIndex = blockIndex →
      block.tokenCount = (tokenIds.take settings.blockSizeTokens).length →
      Hashes sha256 settings (sha256 message) (blockIndex + 1)
        (tokenIds.drop settings.blockSizeTokens) rest →
      Hashes sha256 settings parent blockIndex tokenIds (block :: rest)

theorem chain_blocks_hashes {hpos : 0 < settings.blockSizeTokens} {parent : List UInt8}
    {blockIndex : ℕ} {tokenIds : List ℕ} {blocks : List PrefixBlock}
    (h : chainBlocks sha256 settings hpos parent blockIndex tokenIds = .ok blocks) :
    Hashes sha256 settings parent blockIndex tokenIds blocks := by
  induction hn : tokenIds.length using Nat.strong_induction_on
    generalizing tokenIds blocks parent blockIndex with
  | _ n ih =>
    subst hn
    cases tokenIds with
    | nil =>
      unfold chainBlocks at h
      cases h
      exact .nil
    | cons token tokens =>
      unfold chainBlocks at h
      obtain ⟨content, hcontent, h⟩ := except_bind_ok.mp h
      obtain ⟨key, hkey, h⟩ := except_bind_ok.mp h
      obtain ⟨rest, hrest, h⟩ := except_bind_ok.mp h
      cases h
      rw [chain_hash_eq] at hkey
      obtain ⟨message, hmessage, rfl⟩ := except_map_ok.mp hkey
      unfold contentHash at hcontent
      obtain ⟨bytes, hbytes, hcontent⟩ := except_bind_ok.mp hcontent
      cases hcontent
      have hlt : ((token :: tokens).drop settings.blockSizeTokens).length <
          (token :: tokens).length := by
        rw [List.length_drop, List.length_cons]
        omega
      exact .cons (List.cons_ne_nil _ _) hbytes rfl hmessage rfl rfl rfl (ih _ hlt hrest rfl)

/-- The tokens of one block. -/
def chunkTokens (size : ℕ) (tokenIds : List ℕ) (i : ℕ) : List ℕ :=
  (tokenIds.drop (i * size)).take size

theorem chunk_tokens_succ (size : ℕ) (tokenIds : List ℕ) (i : ℕ) :
    chunkTokens size tokenIds (i + 1) = chunkTokens size (tokenIds.drop size) i := by
  rw [chunkTokens, chunkTokens, List.drop_drop, Nat.succ_mul, Nat.add_comm size]

namespace Hashes

variable {parent : List UInt8} {blockIndex : ℕ} {tokenIds : List ℕ} {blocks : List PrefixBlock}
  {i : ℕ} {block : PrefixBlock}

theorem block_index (h : Hashes sha256 settings parent blockIndex tokenIds blocks)
    (hblock : blocks[i]? = some block) : block.blockIndex = blockIndex + i := by
  induction h generalizing i with
  | nil => cases hblock
  | cons _ _ _ _ _ hindex _ _ ih =>
    cases i with
    | zero =>
      cases hblock
      exact hindex
    | succ i =>
      rw [ih hblock]
      omega

/-- There is a block for every chunk of tokens. -/
theorem lt_length_iff (h : Hashes sha256 settings parent blockIndex tokenIds blocks) :
    i < blocks.length ↔ i * settings.blockSizeTokens < tokenIds.length := by
  induction h generalizing i with
  | nil => simp
  | cons hne _ _ _ _ _ _ _ ih =>
    have htokens := List.length_pos_of_ne_nil hne
    cases i with
    | zero => simpa using htokens
    | succ i =>
      rw [List.length_cons, Nat.add_lt_add_iff_right, ih, List.length_drop, Nat.succ_mul]
      omega

theorem content (h : Hashes sha256 settings parent blockIndex tokenIds blocks)
    (hblock : blocks[i]? = some block) : ∃ content,
      tokenBytes (chunkTokens settings.blockSizeTokens tokenIds i) = .ok content ∧
      block.contentHash = hex (sha256 content) ∧
      block.tokenCount = (chunkTokens settings.blockSizeTokens tokenIds i).length := by
  induction h generalizing i with
  | nil => cases hblock
  | cons _ hbytes hcontent _ _ _ hcount _ ih =>
    cases i with
    | zero =>
      cases hblock
      rw [chunkTokens, Nat.zero_mul, List.drop_zero]
      exact ⟨_, hbytes, hcontent, hcount⟩
    | succ i =>
      rw [chunk_tokens_succ]
      exact ih hblock

theorem sum_token_count (h : Hashes sha256 settings parent blockIndex tokenIds blocks) :
    (blocks.map PrefixBlock.tokenCount).sum = tokenIds.length := by
  induction h with
  | nil => rfl
  | cons _ _ _ _ _ _ hcount _ ih =>
    rw [List.map_cons, List.sum_cons, ih, hcount, List.length_take, List.length_drop]
    omega

/-- What is hashed for the keys is the chain of the items of the blocks. -/
theorem key_messages (h : Hashes sha256 settings parent blockIndex tokenIds blocks) :
    keyMessages sha256 settings parent blocks =
      .ok (inputsFrom sha256 keyLink parent (blocks.map (keyItem settings))) := by
  induction h with
  | nil => rfl
  | cons _ _ _ hmessage _ _ _ _ ih =>
    rw [keyMessages, hmessage, except_ok_bind, ih, chain_message_eq hmessage]
    rfl

/-- The key of a block is the digest of the items up to it. -/
theorem block_key (h : Hashes sha256 settings parent blockIndex tokenIds blocks)
    (hblock : blocks[i]? = some block) : block.blockKey =
      hex (digestFrom sha256 keyLink parent ((blocks.map (keyItem settings)).take (i + 1))) := by
  induction h generalizing i with
  | nil => cases hblock
  | cons _ _ _ hmessage hkey _ _ _ ih =>
    cases i with
    | zero =>
      cases hblock
      rw [hkey, chain_message_eq hmessage]
      rfl
    | succ i =>
      rw [ih hblock, chain_message_eq hmessage]
      rfl

end Hashes

end Builds

section Identity

/-- What a build is given: a supported scope, texts and tokens that fit into their fields. -/
structure BlockSettings.Hashable (settings : BlockSettings) (tokenIds : List ℕ) : Prop where
  size_pos : 0 < settings.blockSizeTokens
  scope : settings.cacheScope = .tenantIsolated ∨ settings.cacheScope = .modelShared
  model_short : settings.model.utf8ByteSize < 2 ^ 32
  tenant_short : settings.tenantId.utf8ByteSize < 2 ^ 32
  tokens_fit : ∀ token ∈ tokenIds, token < 2 ^ 128

/-- All that a build feeds to the hash. -/
def hashInputs (sha256 : List UInt8 → List UInt8) (settings : BlockSettings)
    (tokenIds : List ℕ) : Set (List UInt8) :=
  {message | message = noneMessage ∨
    (∃ i, i * settings.blockSizeTokens < tokenIds.length ∧
      tokenBytes (chunkTokens settings.blockSizeTokens tokenIds i) = .ok message) ∨
    ∃ blocks messages, buildPrefixBlocks sha256 tokenIds settings = .ok blocks ∧
      keyMessages sha256 settings (noneHash sha256) blocks = .ok messages ∧ message ∈ messages}

variable {sha256 : List UInt8 → List UInt8} {settings settings' : BlockSettings}
  {tokenIds tokenIds' : List ℕ} {blocks blocks' : List PrefixBlock}

theorem content_hash_ok {tokens : List ℕ} (h : ∀ token ∈ tokens, token < 2 ^ 128) :
    contentHash sha256 tokens = .ok (hex (sha256 (tokens.flatMap (bigEndian 16)))) := by
  rw [contentHash, token_bytes_ok h]
  rfl

theorem chain_hash_ok (h : settings.Hashable tokenIds) (parent : List UInt8) {content : String}
    (hcontent : content.utf8ByteSize < 2 ^ 32) : ∃ key,
      chainHash sha256 parent settings.model settings.tenantId settings.cacheScope content =
        .ok key := by
  unfold chainHash
  rw [encode_field_ok h.model_short, encode_field_ok hcontent, except_ok_bind]
  rcases h.scope with hscope | hscope
  · rw [hscope]
    dsimp only
    rw [encode_field_ok h.tenant_short]
    exact ⟨_, rfl⟩
  · rw [hscope]
    exact ⟨_, rfl⟩

theorem chain_blocks_total (hlength : ∀ message, (sha256 message).length = 32)
    (hpos : 0 < settings.blockSizeTokens) (h : settings.Hashable tokenIds) (parent : List UInt8)
    (blockIndex : ℕ) :
    ∃ blocks, chainBlocks sha256 settings hpos parent blockIndex tokenIds = .ok blocks := by
  induction hn : tokenIds.length using Nat.strong_induction_on
    generalizing tokenIds parent blockIndex with
  | _ n ih =>
    subst hn
    cases tokenIds with
    | nil =>
      unfold chainBlocks
      exact ⟨[], rfl⟩
    | cons token tokens =>
      have hchunk : ∀ t ∈ (token :: tokens).take settings.blockSizeTokens, t < 2 ^ 128 :=
        fun t ht ↦ h.tokens_fit t (List.mem_of_mem_take ht)
      have hrest : settings.Hashable ((token :: tokens).drop settings.blockSizeTokens) :=
        ⟨h.size_pos, h.scope, h.model_short, h.tenant_short,
          fun t ht ↦ h.tokens_fit t (List.mem_of_mem_drop ht)⟩
      have hlt : ((token :: tokens).drop settings.blockSizeTokens).length <
          (token :: tokens).length := by
        rw [List.length_drop, List.length_cons]
        omega
      have hsize (message : List UInt8) : (hex (sha256 message)).utf8ByteSize < 2 ^ 32 := by
        rw [hex_size, hlength]
        decide
      obtain ⟨key, hkey⟩ := chain_hash_ok h parent (hsize _)
      obtain ⟨blocks, hblocks⟩ := ih _ hlt hrest key (blockIndex + 1) rfl
      unfold chainBlocks
      dsimp only
      rw [content_hash_ok hchunk, except_ok_bind, hkey, except_ok_bind, hblocks]
      exact ⟨_, rfl⟩

theorem build_total (hlength : ∀ message, (sha256 message).length = 32)
    (h : settings.Hashable tokenIds) :
    ∃ blocks, buildPrefixBlocks sha256 tokenIds settings = .ok blocks := by
  unfold buildPrefixBlocks
  rw [dif_pos h.size_pos]
  exact chain_blocks_total hlength h.size_pos h _ _

theorem build_hashes (h : buildPrefixBlocks sha256 tokenIds settings = .ok blocks) :
    Hashes sha256 settings (sha256 noneMessage) 0 tokenIds blocks := by
  unfold buildPrefixBlocks at h
  split_ifs at h with hpos
  exact chain_blocks_hashes h

/-- Two lists agree up to the end of a block if and only if they agree on each block. -/
theorem take_eq_iff_chunks (size : ℕ) (i : ℕ) :
    tokenIds.take ((i + 1) * size) = tokenIds'.take ((i + 1) * size) ↔
      ∀ k ≤ i, chunkTokens size tokenIds k = chunkTokens size tokenIds' k := by
  constructor
  · intro h k hk
    have hchunk (tokens : List ℕ) :
        chunkTokens size tokens k = ((tokens.take ((i + 1) * size)).drop (k * size)).take size := by
      have hle : size ≤ (i + 1) * size - k * size := by
        rw [← Nat.sub_mul]
        exact Nat.le_mul_of_pos_left size (by omega)
      rw [chunkTokens, List.drop_take, List.take_take, Nat.min_eq_left hle]
    rw [hchunk, hchunk, h]
  · intro h
    induction i with
    | zero => simpa [chunkTokens] using h 0 le_rfl
    | succ i ih =>
      rw [Nat.succ_mul (i + 1), List.take_add, List.take_add,
        ih fun k hk ↦ h k (Nat.le_succ_of_le hk)]
      exact congrArg _ (h (i + 1) le_rfl)

/-- How a build cuts up the tokens. -/
structure CutsUp (size : ℕ) (tokenIds : List ℕ) (blocks : List PrefixBlock) : Prop where
  total : (blocks.map PrefixBlock.tokenCount).sum = tokenIds.length
  index : ∀ (i : ℕ) (block : PrefixBlock), blocks[i]? = some block → block.blockIndex = i
  full : ∀ (i : ℕ) (block : PrefixBlock), blocks[i]? = some block → i + 1 < blocks.length →
    block.tokenCount = size
  nonempty : ∀ (i : ℕ) (block : PrefixBlock), blocks[i]? = some block →
    1 ≤ block.tokenCount ∧ block.tokenCount ≤ size

theorem build_cuts_up (h : buildPrefixBlocks sha256 tokenIds settings = .ok blocks)
    (hpos : 0 < settings.blockSizeTokens) : CutsUp settings.blockSizeTokens tokenIds blocks := by
  have hhashes := build_hashes h
  have hcount (i : ℕ) (block : PrefixBlock) (hblock : blocks[i]? = some block) :
      i * settings.blockSizeTokens < tokenIds.length ∧ block.tokenCount =
        min settings.blockSizeTokens (tokenIds.length - i * settings.blockSizeTokens) := by
    obtain ⟨hi, -⟩ := List.getElem?_eq_some_iff.mp hblock
    obtain ⟨-, -, -, hcount⟩ := hhashes.content hblock
    refine ⟨hhashes.lt_length_iff.mp hi, ?_⟩
    rw [hcount, chunkTokens, List.length_take, List.length_drop]
  refine ⟨hhashes.sum_token_count, ?_, ?_, ?_⟩
  · intro i block hblock
    rw [hhashes.block_index hblock]
    omega
  · intro i block hblock hlast
    have hnext := hhashes.lt_length_iff.mp hlast
    rw [Nat.succ_mul] at hnext
    rw [(hcount i block hblock).2]
    omega
  · intro i block hblock
    obtain ⟨hstart, hblockCount⟩ := hcount i block hblock
    rw [hblockCount]
    omega

theorem items_short (h : settings.Hashable tokenIds)
    (hlength : ∀ message, (sha256 message).length = 32)
    (hbuild : buildPrefixBlocks sha256 tokenIds settings = .ok blocks) :
    ∀ item ∈ blocks.map (keyItem settings), item ∈ shortItems := by
  intro item hitem
  obtain ⟨block, hblock, rfl⟩ := List.mem_map.mp hitem
  obtain ⟨i, hi⟩ := List.getElem?_of_mem hblock
  obtain ⟨content, -, hcontent, -⟩ := (build_hashes hbuild).content hi
  refine ⟨h.model_short, ?_, ?_⟩
  · intro tenant htenant
    change tenant ∈ settings.keyTenant at htenant
    unfold BlockSettings.keyTenant at htenant
    split at htenant
    · cases htenant
      exact h.tenant_short
    · cases htenant
  · change block.contentHash.utf8ByteSize < 2 ^ 32
    rw [hcontent, hex_size, hlength]
    decide

theorem key_tenant_eq_iff (h : settings.Hashable tokenIds) (h' : settings'.Hashable tokenIds') :
    settings.keyTenant = settings'.keyTenant ↔ settings.cacheScope = settings'.cacheScope ∧
      (settings.cacheScope = .tenantIsolated → settings.tenantId = settings'.tenantId) := by
  unfold BlockSettings.keyTenant
  rcases h.scope with hscope | hscope <;> rcases h'.scope with hscope' | hscope' <;>
    simp [hscope, hscope']

/-- Two blocks of builds are made of the same item if and only if they hash the same tokens for
the same sharers. -/
theorem key_item_eq_iff (h : settings.Hashable tokenIds) (h' : settings'.Hashable tokenIds')
    (hbuild : buildPrefixBlocks sha256 tokenIds settings = .ok blocks)
    (hbuild' : buildPrefixBlocks sha256 tokenIds' settings' = .ok blocks')
    (hinj : Set.InjOn sha256
      (hashInputs sha256 settings tokenIds ∪ hashInputs sha256 settings' tokenIds'))
    {k : ℕ} {block block' : PrefixBlock} (hblock : blocks[k]? = some block)
    (hblock' : blocks'[k]? = some block') :
    keyItem settings block = keyItem settings' block' ↔
      settings.model = settings'.model ∧ settings.keyTenant = settings'.keyTenant ∧
        chunkTokens settings.blockSizeTokens tokenIds k =
          chunkTokens settings'.blockSizeTokens tokenIds' k := by
  have hhashes := build_hashes hbuild
  have hhashes' := build_hashes hbuild'
  obtain ⟨content, hcontent, hhash, -⟩ := hhashes.content hblock
  obtain ⟨content', hcontent', hhash', -⟩ := hhashes'.content hblock'
  have hk := hhashes.lt_length_iff.mp (List.getElem?_eq_some_iff.mp hblock).1
  have hk' := hhashes'.lt_length_iff.mp (List.getElem?_eq_some_iff.mp hblock').1
  have hfit : ∀ token ∈ chunkTokens settings.blockSizeTokens tokenIds k, token < 2 ^ 128 :=
    fun token htoken ↦ h.tokens_fit token (List.mem_of_mem_drop (List.mem_of_mem_take htoken))
  have hfit' : ∀ token ∈ chunkTokens settings'.blockSizeTokens tokenIds' k, token < 2 ^ 128 :=
    fun token htoken ↦ h'.tokens_fit token (List.mem_of_mem_drop (List.mem_of_mem_take htoken))
  have hchunk : block.contentHash = block'.contentHash ↔
      chunkTokens settings.blockSizeTokens tokenIds k =
        chunkTokens settings'.blockSizeTokens tokenIds' k := by
    constructor
    · intro heq
      rw [hhash, hhash'] at heq
      have hbytes : content = content' := hinj (.inl (.inr (.inl ⟨k, hk, hcontent⟩)))
        (.inr (.inr (.inl ⟨k, hk', hcontent'⟩))) (hex_injective heq)
      rw [hbytes, ← hcontent', token_bytes_ok hfit, token_bytes_ok hfit'] at hcontent
      exact token_bytes_inj hfit hfit' (Except.ok.inj hcontent)
    · intro heq
      rw [heq, hcontent'] at hcontent
      rw [hhash, hhash', Except.ok.inj hcontent]
  rw [keyItem, keyItem, KeyItem.mk.injEq, hchunk]

theorem map_item_getElem? {k : ℕ} {block : PrefixBlock} (hblock : blocks[k]? = some block) :
    (blocks.map (keyItem settings))[k]? = some (keyItem settings block) := by
  rw [List.getElem?_map, hblock]
  rfl

/-- Block keys identify prefixes: under a hash without collisions, two blocks have the same key
if and only if they end the same prefix of tokens for the same sharers. -/
theorem block_keys_identify_prefixes (h : settings.Hashable tokenIds)
    (h' : settings'.Hashable tokenIds')
    (hsize : settings.blockSizeTokens = settings'.blockSizeTokens)
    (hlength : ∀ message, (sha256 message).length = 32)
    (hinj : Set.InjOn sha256
      (hashInputs sha256 settings tokenIds ∪ hashInputs sha256 settings' tokenIds')) :
    ∃ blocks blocks', buildPrefixBlocks sha256 tokenIds settings = .ok blocks ∧
      buildPrefixBlocks sha256 tokenIds' settings' = .ok blocks' ∧
      CutsUp settings.blockSizeTokens tokenIds blocks ∧
      CutsUp settings'.blockSizeTokens tokenIds' blocks' ∧
      ∀ (i j : ℕ) (block block' : PrefixBlock), blocks[i]? = some block →
        blocks'[j]? = some block' → (block.blockKey = block'.blockKey ↔
          i = j ∧ settings.cacheScope = settings'.cacheScope ∧ settings.model = settings'.model ∧
          (settings.cacheScope = .tenantIsolated → settings.tenantId = settings'.tenantId) ∧
          tokenIds.take ((i + 1) * settings.blockSizeTokens) =
            tokenIds'.take ((i + 1) * settings.blockSizeTokens)) := by
  obtain ⟨blocks, hbuild⟩ := build_total hlength h
  obtain ⟨blocks', hbuild'⟩ := build_total hlength h'
  refine ⟨blocks, blocks', hbuild, hbuild', build_cuts_up hbuild h.size_pos,
    build_cuts_up hbuild' h'.size_pos, ?_⟩
  intro i j block block' hblock hblock'
  have hhashes := build_hashes hbuild
  have hhashes' := build_hashes hbuild'
  have hi := (List.getElem?_eq_some_iff.mp hblock).1
  have hj := (List.getElem?_eq_some_iff.mp hblock').1
  -- the key tells the items up to the block, and these tell the rest
  have hkeys : block.blockKey = block'.blockKey ↔
      (blocks.map (keyItem settings)).take (i + 1) =
        (blocks'.map (keyItem settings')).take (j + 1) := by
    rw [hhashes.block_key hblock, hhashes'.block_key hblock', hex_injective.eq_iff]
    constructor
    · refine digest_injective (key_link_parts hlength) ?_ ?_ (hinj.mono ?_)
      · exact fun item hitem ↦ items_short h hlength hbuild item (List.mem_of_mem_take hitem)
      · exact fun item hitem ↦ items_short h' hlength hbuild' item (List.mem_of_mem_take hitem)
      · rintro message (rfl | hmessage | hmessage)
        · exact .inl (.inl rfl)
        · exact .inl (.inr (.inr ⟨blocks, _, hbuild, hhashes.key_messages,
            inputs_prefix sha256 keyLink (List.take_prefix _ _) _ hmessage⟩))
        · exact .inr (.inr (.inr ⟨blocks', _, hbuild', hhashes'.key_messages,
            inputs_prefix sha256 keyLink (List.take_prefix _ _) _ hmessage⟩))
    · intro heq
      rw [heq]
  have hitem (k : ℕ) (hk : k ≤ i) (hk' : k ≤ j) :
      (blocks.map (keyItem settings))[k]? = (blocks'.map (keyItem settings'))[k]? ↔
        settings.model = settings'.model ∧ settings.keyTenant = settings'.keyTenant ∧
          chunkTokens settings.blockSizeTokens tokenIds k =
            chunkTokens settings.blockSizeTokens tokenIds' k := by
    have hb := List.getElem?_eq_getElem (hk.trans_lt hi)
    have hb' := List.getElem?_eq_getElem (hk'.trans_lt hj)
    rw [map_item_getElem? hb, map_item_getElem? hb', Option.some.injEq,
      key_item_eq_iff h h' hbuild hbuild' hinj hb hb', ← hsize]
  rw [hkeys]
  constructor
  · intro heq
    have hlengths := congrArg List.length heq
    rw [List.length_take, List.length_take, List.length_map, List.length_map] at hlengths
    obtain rfl : i = j := by omega
    have heach (k : ℕ) (hk : k ≤ i) := (hitem k hk hk).mp (by
      have hget := congrArg (·[k]?) heq
      simpa only [List.getElem?_take_of_lt (Nat.lt_succ_of_le hk)] using hget)
    obtain ⟨hmodel, htenant, -⟩ := heach 0 (Nat.zero_le _)
    obtain ⟨hscope, htenants⟩ := (key_tenant_eq_iff h h').mp htenant
    exact ⟨rfl, hscope, hmodel, htenants,
      (take_eq_iff_chunks _ i).mpr fun k hk ↦ (heach k hk).2.2⟩
  · rintro ⟨rfl, hscope, hmodel, htenants, htake⟩
    have htenant := (key_tenant_eq_iff h h').mpr ⟨hscope, htenants⟩
    have hchunks := (take_eq_iff_chunks _ i).mp htake
    refine List.ext_getElem? fun k ↦ ?_
    by_cases hk : k < i + 1
    · rw [List.getElem?_take_of_lt hk, List.getElem?_take_of_lt hk]
      have hle := Nat.le_of_lt_succ hk
      exact (hitem k hle hle).mpr ⟨hmodel, htenant, hchunks k hle⟩
    · rw [List.getElem?_take_eq_none (not_lt.mp hk), List.getElem?_take_eq_none (not_lt.mp hk)]

/-- The inputs of a build, in the order in which they are hashed for a kind. -/
def hashInputList (sha256 : List UInt8 → List UInt8) (settings : BlockSettings)
    (tokenIds : List ℕ) : List (List UInt8) :=
  let chunks := (List.range tokenIds.length).filter (· * settings.blockSizeTokens < tokenIds.length)
  let keys := do
    let blocks ← buildPrefixBlocks sha256 tokenIds settings
    keyMessages sha256 settings (noneHash sha256) blocks
  noneMessage :: (chunks.filterMap fun i ↦
      (tokenBytes (chunkTokens settings.blockSizeTokens tokenIds i)).toOption) ++
    keys.toOption.getD []

theorem hash_inputs_listed (hpos : 0 < settings.blockSizeTokens) :
    hashInputs sha256 settings tokenIds ⊆
      {message | message ∈ hashInputList sha256 settings tokenIds} := by
  rintro message (rfl | ⟨i, hi, hmessage⟩ | ⟨blocks, messages, hbuild, hmessages, hmem⟩)
  · exact List.mem_cons_self
  · have hlt : i < tokenIds.length := (Nat.le_mul_of_pos_right i hpos).trans_lt hi
    refine List.mem_append_left _ (List.mem_cons_of_mem _ (List.mem_filterMap.mpr ⟨i, ?_, ?_⟩))
    · exact List.mem_filter.mpr ⟨List.mem_range.mpr hlt, decide_eq_true hi⟩
    · rw [hmessage]
      rfl
  · refine List.mem_append_right _ ?_
    rw [hbuild, except_ok_bind, hmessages]
    exact hmem

/-- Different inputs with different digests. -/
theorem inj_of_distinct_digests {inputs : Set (List UInt8)} {messages : List (List UInt8)}
    (hinputs : inputs ⊆ {message | message ∈ messages})
    (h : (messages.dedup.map sha256).Nodup) : Set.InjOn sha256 inputs := by
  intro message hmessage message' hmessage' heq
  exact List.inj_on_of_nodup_map h (List.mem_dedup.mpr (hinputs hmessage))
    (List.mem_dedup.mpr (hinputs hmessage')) heq

end Identity

namespace Sample

def tenantTokens : BlockSettings :=
  { tokens with tenantId := "t", cacheScope := .tenantIsolated }

theorem tokens_hashable {tokenIds : List ℕ} (h : ∀ token ∈ tokenIds, token < 2 ^ 128) :
    tokens.Hashable tokenIds :=
  ⟨by decide, .inr rfl, by decide, by decide, h⟩

theorem tenant_tokens_hashable {tokenIds : List ℕ} (h : ∀ token ∈ tokenIds, token < 2 ^ 128) :
    tenantTokens.Hashable tokenIds :=
  ⟨by decide, .inl rfl, by decide, by decide, h⟩

/-- What is hashed for two prompts which part in their second block, in either scope. -/
def prompts : List (List UInt8) :=
  hashInputList Sha256.digest tokens [1, 2, 3] ++ hashInputList Sha256.digest tokens [1, 2, 4] ++
    hashInputList Sha256.digest tenantTokens [1, 2, 3]

theorem prompts_distinct : (prompts.dedup.map Sha256.digest).Nodup := by decide +kernel

end Sample

/-- The same tokens have different keys in the two scopes, and of two prompts which part in
their second block the first blocks share their key. -/
theorem block_keys_identify_prefixes_scopes :
    (∃ blocks blocks', buildPrefixBlocks Sha256.digest [1, 2, 3] Sample.tokens = .ok blocks ∧
      buildPrefixBlocks Sha256.digest [1, 2, 3] Sample.tenantTokens = .ok blocks' ∧
      ∀ (i j : ℕ) (block block' : PrefixBlock), blocks[i]? = some block →
        blocks'[j]? = some block' → block.blockKey ≠ block'.blockKey) ∧
    ∃ blocks blocks', buildPrefixBlocks Sha256.digest [1, 2, 3] Sample.tokens = .ok blocks ∧
      buildPrefixBlocks Sha256.digest [1, 2, 4] Sample.tokens = .ok blocks' ∧
      ∀ (i j : ℕ) (block block' : PrefixBlock), blocks[i]? = some block →
        blocks'[j]? = some block' → (block.blockKey = block'.blockKey ↔ i = 0 ∧ j = 0) := by
  have hfirst : hashInputs Sha256.digest Sample.tokens [1, 2, 3] ⊆ {m | m ∈ Sample.prompts} :=
    (hash_inputs_listed (by decide)).trans fun message hmessage ↦
      List.mem_append_left _ (List.mem_append_left _ hmessage)
  have hparted : hashInputs Sha256.digest Sample.tokens [1, 2, 4] ⊆ {m | m ∈ Sample.prompts} :=
    (hash_inputs_listed (by decide)).trans fun message hmessage ↦
      List.mem_append_left _ (List.mem_append_right _ hmessage)
  have htenant : hashInputs Sha256.digest Sample.tenantTokens [1, 2, 3] ⊆
      {m | m ∈ Sample.prompts} :=
    (hash_inputs_listed (by decide)).trans fun message hmessage ↦
      List.mem_append_right _ hmessage
  constructor
  · obtain ⟨blocks, blocks', hbuild, hbuild', -, -, hkeys⟩ := block_keys_identify_prefixes
      (Sample.tokens_hashable (by decide)) (Sample.tenant_tokens_hashable (by decide)) rfl
      Sha256.length_digest
      (inj_of_distinct_digests (Set.union_subset hfirst htenant) Sample.prompts_distinct)
    refine ⟨blocks, blocks', hbuild, hbuild', fun i j block block' hblock hblock' heq ↦ ?_⟩
    obtain ⟨-, hscope, -⟩ := (hkeys i j block block' hblock hblock').mp heq
    cases hscope
  · obtain ⟨blocks, blocks', hbuild, hbuild', -, -, hkeys⟩ := block_keys_identify_prefixes
      (Sample.tokens_hashable (by decide)) (Sample.tokens_hashable (by decide)) rfl
      Sha256.length_digest
      (inj_of_distinct_digests (Set.union_subset hfirst hparted) Sample.prompts_distinct)
    refine ⟨blocks, blocks', hbuild, hbuild', fun i j block block' hblock hblock' ↦ ?_⟩
    rw [hkeys i j block block' hblock hblock']
    constructor
    · rintro ⟨rfl, -, -, -, htake⟩
      cases i with
      | zero => exact ⟨rfl, rfl⟩
      | succ i =>
        have hall : 3 ≤ (i + 1 + 1) * Sample.tokens.blockSizeTokens := by
          change 3 ≤ (i + 1 + 1) * 2
          omega
        rw [List.take_of_length_le hall, List.take_of_length_le hall] at htake
        cases htake
    · rintro ⟨rfl, rfl⟩
      exact ⟨rfl, rfl, rfl, fun _ ↦ rfl, rfl⟩

end InferTwin
