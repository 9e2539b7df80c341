import InferTwin.Request.BuildContext
import InferTwin.Request.KeyEncoding
import InferTwin.Server.Progress
import InferTwin.Streaming.RequestCodec

namespace InferTwin

open Effect

/-- What is found under a key has that key. -/
theorem Dict.key_of_by_key {κ ν : Type} [DecidableEq κ] {keyOf : ν → κ} {items : List ν} {key : κ}
    {item : ν} (h : (Dict.byKey keyOf items).lookup key = some item) :
    item ∈ items ∧ keyOf item = key := by
  induction items using List.reverseRecOn with
  | nil => simp [Dict.byKey, Dict.ofPairs] at h
  | append_singleton items last ih =>
    unfold Dict.byKey at h ih
    rw [List.map_append, List.map_singleton, Dict.of_pairs_concat] at h
    rcases eq_or_ne key (keyOf last) with rfl | hne
    · rw [Finmap.lookup_insert, Option.some.injEq] at h
      subst h
      exact ⟨by simp, rfl⟩
    · rw [Finmap.lookup_insert_of_ne _ hne] at h
      obtain ⟨hmem, hkey⟩ := ih h
      exact ⟨List.mem_append_left _ hmem, hkey⟩

section Blocks

variable {sha256 : List UInt8 → List UInt8} {settings : BlockSettings} {tokenIds : List ℕ}
  {blocks : List PrefixBlock}

theorem hex_ne_empty {bytes : List UInt8} (h : bytes ≠ []) : hex bytes ≠ "" := by
  intro hempty
  have hsize := hex_size bytes
  rw [hempty, String.utf8ByteSize_empty] at hsize
  have hpos := List.length_pos_of_ne_nil h
  omega

theorem content_hash_ne_empty (hdigest : ∀ bytes, sha256 bytes ≠ []) {content : String}
    (h : contentHash sha256 tokenIds = .ok content) : content ≠ "" := by
  obtain ⟨bytes, -, h⟩ := except_bind_ok.mp h
  cases h
  exact hex_ne_empty (hdigest _)

theorem chain_hash_ne_nil (hdigest : ∀ bytes, sha256 bytes ≠ []) {parent key : List UInt8}
    {model tenantId content : String} {cacheScope : CacheScope}
    (h : chainHash sha256 parent model tenantId cacheScope content = .ok key) : key ≠ [] := by
  unfold chainHash at h
  obtain ⟨first, -, h⟩ := except_bind_ok.mp h
  cases cacheScope with
  | tenantIsolated =>
    obtain ⟨tenant, -, h⟩ := except_bind_ok.mp h
    obtain ⟨third, -, h⟩ := except_bind_ok.mp h
    cases h
    exact hdigest _
  | modelShared =>
    obtain ⟨tenant, -, h⟩ := except_bind_ok.mp h
    obtain ⟨third, -, h⟩ := except_bind_ok.mp h
    cases h
    exact hdigest _
  | other scope => cases h

/-- A block of a prompt can be written to a shard, and weighs what its tokens do. -/
theorem chain_blocks_weigh (hdigest : ∀ bytes, sha256 bytes ≠ [])
    {hpos : 0 < settings.blockSizeTokens} {parent : List UInt8} {blockIndex : ℕ}
    (h : chainBlocks sha256 settings hpos parent blockIndex tokenIds = .ok blocks) :
    ∀ block ∈ blocks, (block.blockKey ≠ "" ∧ block.contentHash ≠ "") ∧
      block.sizeBytes = block.tokenCount * settings.kvBytesPerToken.getD 0 := by
  induction hn : tokenIds.length using Nat.strong_induction_on
    generalizing tokenIds blocks parent blockIndex with
  | _ n ih =>
    subst hn
    cases tokenIds with
    | nil =>
      unfold chainBlocks at h
      cases h
      simp
    | cons token tokens =>
      unfold chainBlocks at h
      obtain ⟨content, hcontent, h⟩ := except_bind_ok.mp h
      obtain ⟨key, hkey, h⟩ := except_bind_ok.mp h
      obtain ⟨rest, hrest, h⟩ := except_bind_ok.mp h
      cases h
      have hlt : ((token :: tokens).drop settings.blockSizeTokens).length <
          (token :: tokens).length := by
        rw [List.length_drop, List.length_cons]
        omega
      refine List.forall_mem_cons.mpr ⟨⟨⟨?_, ?_⟩, rfl⟩, ih _ hlt hrest rfl⟩
      · exact hex_ne_empty (chain_hash_ne_nil hdigest hkey)
      · exact content_hash_ne_empty hdigest hcontent

theorem build_prefix_blocks_weigh (hdigest : ∀ bytes, sha256 bytes ≠ [])
    (h : buildPrefixBlocks sha256 tokenIds settings = .ok blocks) :
    ∀ block ∈ blocks, (block.blockKey ≠ "" ∧ block.contentHash ≠ "") ∧
      block.sizeBytes = block.tokenCount * settings.kvBytesPerToken.getD 0 := by
  unfold buildPrefixBlocks at h
  split_ifs at h
  exact chain_blocks_weigh hdigest h

end Blocks

/-- A computation that never reports a prompt that is too long. -/
def NeverTooLong {α : Type} (x : Except RequestBuildError α) : Prop :=
  ∀ error, x ≠ .error (.promptTooLong error)

namespace NeverTooLong

variable {α β ε : Type} {x : Except RequestBuildError α}

theorem ok (a : α) : NeverTooLong (.ok a) := by
  intro error h
  cases h

theorem bind {f : α → Except RequestBuildError β} (h : NeverTooLong x)
    (hf : ∀ a, NeverTooLong (f a)) : NeverTooLong (x >>= f) := by
  intro error hfail
  cases x with
  | ok a => exact hf a error hfail
  | error other =>
    cases hfail
    exact h error rfl

theorem mapError {wrap : ε → RequestBuildError} (y : Except ε α)
    (hwrap : ∀ e error, wrap e ≠ .promptTooLong error) : NeverTooLong (y.mapError wrap) := by
  intro error hfail
  cases y with
  | ok a => cases hfail
  | error e => exact hwrap e error (Except.error.inj hfail)

/-- So the report comes from what follows it. -/
theorem of_bind {f : α → Except RequestBuildError β} (h : NeverTooLong x)
    {error : PromptTooLongError} (hfail : x >>= f = .error (.promptTooLong error)) :
    ∃ a, x = .ok a ∧ f a = .error (.promptTooLong error) := by
  cases x with
  | ok a => exact ⟨a, rfl, hfail⟩
  | error other =>
    cases hfail
    exact absurd rfl (h error)

end NeverTooLong

section Parsing

theorem validate_message_plain (message : Json) (index : ℕ) :
    NeverTooLong (validateMessage message index) := by
  unfold validateMessage
  intro error h
  dsimp only at h
  split at h
  · split at h
    · split_ifs at h
      · cases h
      · split at h <;> cases h
    · cases h
  · cases h

theorem validate_messages_plain (messages : List Json) (index : ℕ) :
    NeverTooLong (validateMessages index messages) := by
  induction messages generalizing index with
  | nil => exact .ok _
  | cons message messages ih =>
    exact (validate_message_plain message index).bind fun _ ↦ (ih _).bind fun _ ↦ .ok _

theorem validate_tools_plain (tools : List Json) (index : ℕ) :
    NeverTooLong (validateTools index tools) := by
  induction tools generalizing index with
  | nil => exact .ok _
  | cons tool tools ih =>
    cases tool with
    | object fields => exact (ih _).bind fun _ ↦ .ok _
    | _ =>
      intro error h
      cases h

theorem parse_request_params_plain (loads : String → Except String Json) (rawJson : String) :
    NeverTooLong (parseRequestParams loads rawJson) := by
  refine (NeverTooLong.mapError _ (by intro e error h; cases h)).bind fun payload ↦ ?_
  intro error h
  split at h
  · split at h
    · split_ifs at h
      · split at h
        · obtain ⟨messages, -, h⟩ := (validate_messages_plain _ _).of_bind h
          split at h
          · obtain ⟨tools, -, h⟩ := (validate_tools_plain _ _).of_bind h
            cases h
          · cases h
        · cases h
      · cases h
    · cases h
  · cases h

end Parsing

section Encoding

variable {sha256 : List UInt8 → List UInt8} {services : TokenizerServices}
  {registry : TokenizerRegistry}

theorem encode_with_profile_plain (profile : TokenizerProfile) (request : ParsedRequest) :
    NeverTooLong (encodeWithProfile sha256 services profile request) := by
  unfold encodeWithProfile
  split_ifs
  · refine NeverTooLong.bind ?_ fun rendered ↦ .ok _
    unfold renderSimpleChatTemplate
    split
    · exact .mapError _ (by intro e error h; cases h)
    · exact .ok _
  · exact .mapError _ (by intro e error h; cases h)
  · intro error h
    cases h

theorem profile_for_name_plain (registry : TokenizerRegistry) (name : String) :
    NeverTooLong (registry.profileForName name) := by
  intro error h
  unfold TokenizerRegistry.profileForName at h
  split at h <;> cases h

theorem resolve_profile_plain (registry : TokenizerRegistry) (model : String) :
    NeverTooLong (registry.resolveProfile model) := by
  refine NeverTooLong.bind ?_ fun name ↦ ?_
  · intro error h
    unfold TokenizerRegistry.resolveModel at h
    split at h
    · cases h
    · split at h <;> cases h
  · intro error h
    split at h <;> cases h

theorem profile_for_name_mem {name : String} {profile : TokenizerProfile}
    (h : registry.profileForName name = .ok profile) : profile ∈ registry.profiles := by
  unfold TokenizerRegistry.profileForName at h
  split at h
  · rename_i found hlookup
    cases h
    exact (Dict.key_of_by_key hlookup).1
  · cases h

theorem resolve_profile_mem {model : String} {profile : TokenizerProfile}
    (h : registry.resolveProfile model = .ok profile) : profile ∈ registry.profiles := by
  obtain ⟨name, -, h⟩ := except_bind_ok.mp h
  split at h
  · rename_i found hlookup
    cases h
    exact (Dict.key_of_by_key hlookup).1
  · cases h

/-- The profile that `encode` takes. -/
def TokenizerRegistry.profileOf (registry : TokenizerRegistry) (request : ParsedRequest)
    (tokenizerProfile : Option String) : Except RequestBuildError TokenizerProfile :=
  match tokenizerProfile with
  | some name => registry.profileForName name
  | none => registry.resolveProfile request.model

theorem profile_of_plain (request : ParsedRequest) (tokenizerProfile : Option String) :
    NeverTooLong (registry.profileOf request tokenizerProfile) := by
  cases tokenizerProfile with
  | some name => exact profile_for_name_plain registry name
  | none => exact resolve_profile_plain registry request.model

theorem profile_of_mem {request : ParsedRequest} {tokenizerProfile : Option String}
    {profile : TokenizerProfile} (h : registry.profileOf request tokenizerProfile = .ok profile) :
    profile ∈ registry.profiles := by
  cases tokenizerProfile with
  | some name => exact profile_for_name_mem h
  | none => exact resolve_profile_mem h

/-- A prompt is tokenized in full, and then compared with the limit. -/
theorem encode_eq (request : ParsedRequest) (maxPromptTokens : Option ℕ)
    (tokenizerProfile : Option String) :
    registry.encode sha256 services request maxPromptTokens tokenizerProfile = (do
      let profile ← registry.profileOf request tokenizerProfile
      let tokenIds ← encodeWithProfile sha256 services profile request
      let result : TokenizationResult := {
        model := request.model
        tokenizerProfile := profile.profile
        promptTokenIds := tokenIds
        promptTokens := tokenIds.length
        kvBytesPerToken := profile.kvBytesPerToken }
      match maxPromptTokens with
      | some limit =>
        if tokenIds.length > limit then
          throw (.promptTooLong {
            model := request.model
            tokenizerProfile := profile.profile
            promptTokens := tokenIds.length
            maxPromptTokens := limit })
        else return result
      | none => return result) := by
  unfold TokenizerRegistry.encode TokenizerRegistry.profileOf
  cases tokenizerProfile <;> cases maxPromptTokens <;> rfl

theorem encode_ok {request : ParsedRequest} {maxPromptTokens : Option ℕ}
    {tokenizerProfile : Option String} {result : TokenizationResult}
    (h : registry.encode sha256 services request maxPromptTokens tokenizerProfile = .ok result) :
    ∃ profile ∈ registry.profiles, result.tokenizerProfile = profile.profile ∧
      result.kvBytesPerToken = profile.kvBytesPerToken ∧
      result.promptTokens = result.promptTokenIds.length ∧
      ∀ limit ∈ maxPromptTokens, result.promptTokens ≤ limit := by
  rw [encode_eq] at h
  obtain ⟨profile, hprofile, h⟩ := except_bind_ok.mp h
  obtain ⟨tokenIds, -, h⟩ := except_bind_ok.mp h
  refine ⟨profile, profile_of_mem hprofile, ?_⟩
  cases maxPromptTokens with
  | none =>
    cases h
    exact ⟨rfl, rfl, rfl, by simp⟩
  | some limit =>
    dsimp only at h
    split_ifs at h with hlong
    cases h
    refine ⟨rfl, rfl, rfl, fun other hother ↦ ?_⟩
    cases hother
    exact not_lt.mp hlong

theorem encode_too_long {request : ParsedRequest} {maxPromptTokens : Option ℕ}
    {tokenizerProfile : Option String} {error : PromptTooLongError}
    (h : registry.encode sha256 services request maxPromptTokens tokenizerProfile =
      .error (.promptTooLong error)) :
    maxPromptTokens = some error.maxPromptTokens ∧ error.maxPromptTokens < error.promptTokens := by
  rw [encode_eq] at h
  obtain ⟨profile, -, h⟩ := (profile_of_plain _ _).of_bind h
  obtain ⟨tokenIds, -, h⟩ := (encode_with_profile_plain _ _).of_bind h
  cases maxPromptTokens with
  | none => cases h
  | some limit =>
    dsimp only at h
    split_ifs at h with hlong
    · cases h
      exact ⟨rfl, hlong⟩
    · cases h

end Encoding

/-- What a row becomes: the request can be written to a shard and read back, the cache can
account for it, and its blocks are cut from a prompt within the limit. -/
structure SimulationRequest.BuiltIn (context : RequestBuildContext) (profile : TokenizerProfile)
    (record : TraceRecord) (request : SimulationRequest) : Prop
    extends request.Encodable, request.Accountable where
  request_id_eq : request.requestId = record.requestId
  tenant_id_eq : request.tenantId = record.tenantId
  instance_uuid_eq : request.instanceUuid = record.instanceUuid
  start_time_eq : request.startTimeMs = record.serviceStartTime.toMs
  limit : ∀ limit ∈ context.maxPromptTokens, request.promptTokens ≤ limit
  size_eq : request.effectiveBlockSize = some context.effectiveBlockSize
  size_pos : 0 < context.effectiveBlockSize
  tiled : Tiled context.effectiveBlockSize request.promptBlocks
  tokens_eq : blockTokens request.promptBlocks = request.promptTokens
  bytes : ∀ block ∈ request.promptBlocks,
    block.sizeBytes = block.tokenCount * profile.kvBytesPerToken.getD 0

section Building

variable {sha256 : List UInt8 → List UInt8} {services : TokenizerServices}
  {registry : TokenizerRegistry} {context : RequestBuildContext} {record : TraceRecord}
  {blockSizeTokens : ℕ} {cacheScope : String} {tokenizerProfile : Option String}

theorem calculate_block_conversion_ok {promptTokens : ℕ} {result : CacheBlockConversionResult}
    (h : context.calculateBlockConversion promptTokens = .ok result) :
    result.unsupportedReason = none := by
  obtain ⟨calculated, -, h⟩ := except_bind_ok.mp h
  split at h
  · cases h
  · rename_i hreason
    cases h
    exact hreason

theorem build_simulation_request_built (hdigest : ∀ bytes, sha256 bytes ≠ [])
    (hnamed : ∀ profile ∈ registry.profiles, profile.profile ≠ "") {request : SimulationRequest}
    (h : buildSimulationRequest sha256 services record registry blockSizeTokens cacheScope
      (some context) tokenizerProfile = .ok request) :
    ∃ profile ∈ registry.profiles, request.BuiltIn context profile record := by
  obtain ⟨found, hcontext, h⟩ := except_bind_ok.mp h
  cases hcontext
  obtain ⟨parsed, -, h⟩ := except_bind_ok.mp h
  obtain ⟨u, -, h⟩ := except_bind_ok.mp h
  obtain ⟨tokenization, hencode, h⟩ := except_bind_ok.mp h
  obtain ⟨conversion, hconversion, h⟩ := except_bind_ok.mp h
  obtain ⟨blocks, hblocks, h⟩ := except_bind_ok.mp h
  cases h
  obtain ⟨profile, hprofile, hname, hkv, htokens, hlimit⟩ := encode_ok hencode
  have hreason := calculate_block_conversion_ok hconversion
  have hbuilt := except_map_error_ok.mp hblocks
  have hweigh := build_prefix_blocks_weigh hdigest hbuilt
  obtain ⟨hpos, htiled, hsum⟩ := build_prefix_blocks_tiled hbuilt
  have hsupported : ∀ result ∈ some conversion, result.unsupportedReason = none := by
    intro result hresult
    cases hresult
    exact hreason
  refine ⟨profile, hprofile, ⟨record.request_id_nonempty, record.tenant_id_nonempty,
    record.instance_uuid_nonempty, parsed.model_nonempty, ?_, fun block hblock ↦
      (hweigh block hblock).1, ?_⟩, ⟨hsupported, ?_⟩, rfl, rfl, rfl, rfl, hlimit, rfl, hpos, htiled,
    ?_, fun block hblock ↦ ?_⟩
  · exact hname.trans_ne (hnamed profile hprofile)
  · intro result hresult reason hsome
    rw [hsupported result hresult] at hsome
    cases hsome
  · exact (hsum.trans htokens.symm).le
  · exact hsum.trans htokens.symm
  · rw [← hkv]
    exact (hweigh block hblock).2

theorem build_simulation_request_too_long {error : PromptTooLongError}
    (h : buildSimulationRequest sha256 services record registry blockSizeTokens cacheScope
      (some context) tokenizerProfile = .error (.promptTooLong error)) :
    context.maxPromptTokens = some error.maxPromptTokens ∧
      error.maxPromptTokens < error.promptTokens := by
  obtain ⟨parsed, -, h⟩ := (parse_request_params_plain _ _).of_bind h
  have hguard : NeverTooLong (context.validateRequestModel parsed.model) := by
    unfold RequestBuildContext.validateRequestModel
    split
    · exact .mapError _ (by intro e error h; cases h)
    · exact .ok _
  obtain ⟨u, -, h⟩ := hguard.of_bind h
  cases hencode : registry.encode sha256 services parsed context.maxPromptTokens
      tokenizerProfile with
  | error other =>
    rw [hencode] at h
    cases h
    exact encode_too_long hencode
  | ok tokenization =>
    rw [hencode, except_ok_bind] at h
    have hconversion : NeverTooLong
        (context.calculateBlockConversion tokenization.promptTokens) := by
      refine (NeverTooLong.mapError _ (by intro e error h; cases h)).bind fun result ↦ ?_
      intro error h
      split at h <;> cases h
    obtain ⟨conversion, -, h⟩ := hconversion.of_bind h
    obtain ⟨blocks, -, h⟩ :=
      (NeverTooLong.mapError _ (by intro e error h; cases h)).of_bind h
    cases h

end Building

end InferTwin
