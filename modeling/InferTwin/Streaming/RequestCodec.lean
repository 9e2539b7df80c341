import InferTwin.Foundation.Effect
import InferTwin.Foundation.Json
import InferTwin.Request.SimulationRequest

namespace InferTwin

open Effect

/-- The exceptions of the shard codec. `negative` is not one of the source: the counts of a
replay request are natural numbers here, and no encoder writes a negative one. -/
inductive CodecError
  | schemaVersion
  | nonEmptyString (key : String)
  | nonEmptyStringWhenProvided (key : String)
  | integer (key : String)
  | integerWhenProvided (key : String)
  | number (key : String)
  | list (key : String)
  | isoDatetime (key : String)
  | promptBlockMapping
  | conversionMapping
  | invalidJson (text : String)
  | lineMapping
  | floatOverflow
  | negative (key : String)
  deriving DecidableEq, Repr

def CodecError.message : CodecError → String
  | schemaVersion => "unsupported streaming request schema_version"
  | nonEmptyString key => key ++ " must be a non-empty string"
  | nonEmptyStringWhenProvided key => key ++ " must be a non-empty string when provided"
  | integer key => key ++ " must be an integer"
  | integerWhenProvided key => key ++ " must be an integer when provided"
  | number key => key ++ " must be a number"
  | list key => key ++ " must be a list"
  | isoDatetime key => key ++ " must be an ISO datetime"
  | promptBlockMapping => "prompt_blocks[] must be a mapping"
  | conversionMapping => "block_conversion_result must be a mapping or null"
  | invalidJson text => "invalid streaming request JSON: " ++ text
  | lineMapping => "streaming request line must decode to a mapping"
  | floatOverflow => "int too large to convert to float"
  | negative key => key ++ " is negative"

/-- Whether the exception is a `ValueError`; the conversion to a float raises an
`OverflowError`. -/
def CodecError.isValueError : CodecError → Bool
  | floatOverflow => false
  | _ => true

def STREAMING_REQUEST_SCHEMA_VERSION : String := "infertwin.streaming.request.v1"

/-- The JSON text and the ISO datetimes of the standard library. -/
structure JsonText where
  dumps : Json → String
  loads : String → Except String Json
  isoformat : Datetime → String
  fromisoformat : String → Option Datetime

/-- `float(value)`: the nearest number with 53 bits, the even one of two. None is too large for
a float. -/
def floatOfInt (value : ℤ) : Option ℚ :=
  let magnitude := value.natAbs
  let unit := 2 ^ (magnitude.log2 - 52)
  let units := magnitude / unit
  let rest := magnitude % unit
  let rounded := if rest * 2 > unit ∨ (rest * 2 = unit ∧ units % 2 = 1) then units + 1 else units
  if rounded * unit ≥ 2 ^ 1024 then none else some (value.sign * (rounded * unit : ℕ))

section Fields

variable (record : List (String × Json)) (key : String)

def requiredStr : Except CodecError String :=
  match Json.get record key with
  | some (.str value) => if value = "" then .error (.nonEmptyString key) else .ok value
  | _ => .error (.nonEmptyString key)

def optionalStr : Except CodecError (Option String) :=
  match Json.get record key with
  | none | some .null => .ok none
  | some (.str value) =>
    if value = "" then .error (.nonEmptyStringWhenProvided key) else .ok (some value)
  | _ => .error (.nonEmptyStringWhenProvided key)

def requiredInt : Except CodecError ℤ :=
  match Json.get record key with
  | some (.int value) => .ok value
  | _ => .error (.integer key)

def optionalInt : Except CodecError (Option ℤ) :=
  match Json.get record key with
  | none | some .null => .ok none
  | some (.int value) => .ok (some value)
  | _ => .error (.integerWhenProvided key)

def requiredNumber : Except CodecError ℚ :=
  match Json.get record key with
  | some (.int value) => match floatOfInt value with
    | some number => .ok number
    | none => .error .floatOverflow
  | some (.float value) => .ok value
  | _ => .error (.number key)

def requiredList : Except CodecError (List Json) :=
  match Json.get record key with
  | some (.list items) => .ok items
  | _ => .error (.list key)

end Fields

def optionalJson : Option ℤ → Json
  | none => .null
  | some value => .int value

def optionalStrJson : Option String → Json
  | none => .null
  | some value => .str value

/-! The records as Python has them: integers of any sign, as a decoder reads them. -/

namespace Coded

structure PrefixBlock where
  blockKey : String
  contentHash : String
  blockIndex : ℤ
  tokenCount : ℤ
  sizeBytes : ℤ
  deriving DecidableEq, Repr

structure CacheBlockConversionResult where
  requestedBlockSize : ℤ
  runtimeBlockSize : ℤ
  effectiveBlockSize : ℤ
  maxCacheHitLength : ℤ
  maxMatchableBlocks : ℤ
  matchedBlocks : ℤ
  speculativeDropBlocks : ℤ
  cachedBlocks : ℤ
  cachedTokens : ℤ
  unsupportedReason : Option String
  deriving DecidableEq, Repr

structure SimulationRequest where
  requestId : String
  tenantId : String
  instanceUuid : String
  model : String
  serviceStartTime : Datetime
  startTimeMs : ℚ
  tokenizerProfile : String
  promptTokens : ℤ
  promptBlocks : List PrefixBlock
  kvBytesPerToken : Option ℤ
  requestedBlockSize : Option ℤ
  runtimeBlockSize : Option ℤ
  effectiveBlockSize : Option ℤ
  blockConversionResult : Option CacheBlockConversionResult
  deriving DecidableEq, Repr

def encodePrefixBlock (block : PrefixBlock) : Json :=
  .dict [
    ("block_key", .str block.blockKey),
    ("content_hash", .str block.contentHash),
    ("block_index", .int block.blockIndex),
    ("token_count", .int block.tokenCount),
    ("size_bytes", .int block.sizeBytes)]

def decodePrefixBlock : Json → Except CodecError PrefixBlock
  | .object record => do
    return {
      blockKey := ← requiredStr record "block_key"
      contentHash := ← requiredStr record "content_hash"
      blockIndex := ← requiredInt record "block_index"
      tokenCount := ← requiredInt record "token_count"
      sizeBytes := ← requiredInt record "size_bytes" }
  | _ => .error .promptBlockMapping

def encodeBlockConversionResult : Option CacheBlockConversionResult → Json
  | none => .null
  | some result =>
    .dict [
      ("requested_block_size", .int result.requestedBlockSize),
      ("runtime_block_size", .int result.runtimeBlockSize),
      ("effective_block_size", .int result.effectiveBlockSize),
      ("max_cache_hit_length", .int result.maxCacheHitLength),
      ("max_matchable_blocks", .int result.maxMatchableBlocks),
      ("matched_blocks", .int result.matchedBlocks),
      ("speculative_drop_blocks", .int result.speculativeDropBlocks),
      ("cached_blocks", .int result.cachedBlocks),
      ("cached_tokens", .int result.cachedTokens),
      ("unsupported_reason", optionalStrJson result.unsupportedReason)]

def decodeBlockConversionResult :
    Option Json → Except CodecError (Option CacheBlockConversionResult)
  | none | some .null => .ok none
  | some (.object value) => do
    return some {
      requestedBlockSize := ← requiredInt value "requested_block_size"
      runtimeBlockSize := ← requiredInt value "runtime_block_size"
      effectiveBlockSize := ← requiredInt value "effective_block_size"
      maxCacheHitLength := ← requiredInt value "max_cache_hit_length"
      maxMatchableBlocks := ← requiredInt value "max_matchable_blocks"
      matchedBlocks := ← requiredInt value "matched_blocks"
      speculativeDropBlocks := ← requiredInt value "speculative_drop_blocks"
      cachedBlocks := ← requiredInt value "cached_blocks"
      cachedTokens := ← requiredInt value "cached_tokens"
      unsupportedReason := ← optionalStr value "unsupported_reason" }
  | _ => .error .conversionMapping

variable (text : JsonText)

/-- The fields of a shard record. -/
def requestFields (request : SimulationRequest) : List (String × Json) := [
  ("schema_version", .str STREAMING_REQUEST_SCHEMA_VERSION),
  ("request_id", .str request.requestId),
  ("tenant_id", .str request.tenantId),
  ("instance_uuid", .str request.instanceUuid),
  ("model", .str request.model),
  ("service_start_time", .str (text.isoformat request.serviceStartTime)),
  ("start_time_ms", .float request.startTimeMs),
  ("tokenizer_profile", .str request.tokenizerProfile),
  ("prompt_tokens", .int request.promptTokens),
  ("prompt_blocks", .list (request.promptBlocks.map encodePrefixBlock)),
  ("kv_bytes_per_token", optionalJson request.kvBytesPerToken),
  ("requested_block_size", optionalJson request.requestedBlockSize),
  ("runtime_block_size", optionalJson request.runtimeBlockSize),
  ("effective_block_size", optionalJson request.effectiveBlockSize),
  ("block_conversion_result", encodeBlockConversionResult request.blockConversionResult)]

def encodeSimulationRequest (request : SimulationRequest) : Json :=
  .dict (requestFields text request)

def decodeDatetime (record : List (String × Json)) (key : String) :
    Except CodecError Datetime := do
  match text.fromisoformat (← requiredStr record key) with
  | some value => return value
  | none => throw (.isoDatetime key)

def requireSchemaVersion (record : List (String × Json)) : Except CodecError Unit :=
  match Json.get record "schema_version" with
  | some (.str version) =>
    if version = STREAMING_REQUEST_SCHEMA_VERSION then .ok () else .error .schemaVersion
  | _ => .error .schemaVersion

def decodeSimulationRequest (record : List (String × Json)) :
    Except CodecError SimulationRequest := do
  requireSchemaVersion record
  return {
    requestId := ← requiredStr record "request_id"
    tenantId := ← requiredStr record "tenant_id"
    instanceUuid := ← requiredStr record "instance_uuid"
    model := ← requiredStr record "model"
    serviceStartTime := ← decodeDatetime text record "service_start_time"
    startTimeMs := ← requiredNumber record "start_time_ms"
    tokenizerProfile := ← requiredStr record "tokenizer_profile"
    promptTokens := ← requiredInt record "prompt_tokens"
    promptBlocks := ← (← requiredList record "prompt_blocks").mapM decodePrefixBlock
    kvBytesPerToken := ← optionalInt record "kv_bytes_per_token"
    requestedBlockSize := ← optionalInt record "requested_block_size"
    runtimeBlockSize := ← optionalInt record "runtime_block_size"
    effectiveBlockSize := ← optionalInt record "effective_block_size"
    blockConversionResult :=
      ← decodeBlockConversionResult (Json.get record "block_conversion_result") }

end Coded

section ReadBack

variable {record : List (String × Json)} {key : String}

theorem required_str_ok {value : String} (h : Json.get record key = some (.str value))
    (hne : value ≠ "") : requiredStr record key = .ok value := by
  simp only [requiredStr, h, if_neg hne]

theorem required_int_ok {value : ℤ} (h : Json.get record key = some (.int value)) :
    requiredInt record key = .ok value := by
  simp only [requiredInt, h]

theorem optional_int_ok {value : Option ℤ} (h : Json.get record key = some (optionalJson value)) :
    optionalInt record key = .ok value := by
  cases value <;> simp only [optionalInt, h, optionalJson]

theorem required_number_ok {value : ℚ} (h : Json.get record key = some (.float value)) :
    requiredNumber record key = .ok value := by
  simp only [requiredNumber, h]

theorem required_list_ok {items : List Json} (h : Json.get record key = some (.list items)) :
    requiredList record key = .ok items := by
  simp only [requiredList, h]

theorem optional_str_ok {value : Option String}
    (h : Json.get record key = some (optionalStrJson value)) (hne : ∀ v ∈ value, v ≠ "") :
    optionalStr record key = .ok value := by
  cases value with
  | none => simp only [optionalStr, h, optionalStrJson]
  | some value => simp only [optionalStr, h, optionalStrJson, if_neg (hne value rfl)]

end ReadBack

namespace Coded

/-- No text of a request is empty. -/
structure SimulationRequest.Encodable (request : SimulationRequest) : Prop where
  request_id : request.requestId ≠ ""
  tenant_id : request.tenantId ≠ ""
  instance_uuid : request.instanceUuid ≠ ""
  model : request.model ≠ ""
  tokenizer_profile : request.tokenizerProfile ≠ ""
  blocks : ∀ block ∈ request.promptBlocks, block.blockKey ≠ "" ∧ block.contentHash ≠ ""
  conversion : ∀ result ∈ request.blockConversionResult,
    ∀ reason ∈ result.unsupportedReason, reason ≠ ""

/-- A datetime can be read back from its ISO text. -/
def IsoRoundTrips (text : JsonText) (value : Datetime) : Prop :=
  text.isoformat value ≠ "" ∧ text.fromisoformat (text.isoformat value) = some value

theorem decode_prefix_block_encode {block : PrefixBlock} (hkey : block.blockKey ≠ "")
    (hhash : block.contentHash ≠ "") :
    decodePrefixBlock (encodePrefixBlock block) = .ok block := by
  unfold encodePrefixBlock Json.dict decodePrefixBlock
  dsimp only
  rw [required_str_ok (Json.get_dict (by simp) "block_key") hkey, except_ok_bind,
    required_str_ok (Json.get_dict (by simp) "content_hash") hhash, except_ok_bind,
    required_int_ok (Json.get_dict (by simp) "block_index"), except_ok_bind,
    required_int_ok (Json.get_dict (by simp) "token_count"), except_ok_bind,
    required_int_ok (Json.get_dict (by simp) "size_bytes"), except_ok_bind]
  rfl

theorem decode_block_conversion_encode {result : Option CacheBlockConversionResult}
    (h : ∀ r ∈ result, ∀ reason ∈ r.unsupportedReason, reason ≠ "") :
    decodeBlockConversionResult (some (encodeBlockConversionResult result)) = .ok result := by
  cases result with
  | none => rfl
  | some result =>
    unfold encodeBlockConversionResult Json.dict decodeBlockConversionResult
    dsimp only
    rw [required_int_ok (Json.get_dict (by simp) "requested_block_size"), except_ok_bind,
      required_int_ok (Json.get_dict (by simp) "runtime_block_size"), except_ok_bind,
      required_int_ok (Json.get_dict (by simp) "effective_block_size"), except_ok_bind,
      required_int_ok (Json.get_dict (by simp) "max_cache_hit_length"), except_ok_bind,
      required_int_ok (Json.get_dict (by simp) "max_matchable_blocks"), except_ok_bind,
      required_int_ok (Json.get_dict (by simp) "matched_blocks"), except_ok_bind,
      required_int_ok (Json.get_dict (by simp) "speculative_drop_blocks"), except_ok_bind,
      required_int_ok (Json.get_dict (by simp) "cached_blocks"), except_ok_bind,
      required_int_ok (Json.get_dict (by simp) "cached_tokens"), except_ok_bind,
      optional_str_ok (Json.get_dict (by simp) "unsupported_reason") (h result rfl),
      except_ok_bind]
    rfl

variable {text : JsonText} {request : SimulationRequest}

/-- Every field of a shard record is found under its key. -/
theorem get_request_fields (text : JsonText) (request : SimulationRequest) (key : String) :
    Json.get ((requestFields text request).insertionSort Json.byKey) key =
      (requestFields text request).lookup key :=
  Json.get_dict (by simp [requestFields]) key

/-- The record of a request is decoded to the request. -/
theorem decode_simulation_request_encode (hrequest : request.Encodable)
    (hiso : IsoRoundTrips text request.serviceStartTime) :
    decodeSimulationRequest text ((requestFields text request).insertionSort Json.byKey) =
      .ok request := by
  have hget := get_request_fields text request
  have hversion : requireSchemaVersion
      ((requestFields text request).insertionSort Json.byKey) = .ok () := by
    rw [requireSchemaVersion, hget "schema_version"]
    rfl
  have hdatetime : decodeDatetime text ((requestFields text request).insertionSort Json.byKey)
      "service_start_time" = .ok request.serviceStartTime := by
    rw [decodeDatetime, required_str_ok (hget "service_start_time") hiso.1, except_ok_bind, hiso.2]
    rfl
  have hblocks : (request.promptBlocks.map encodePrefixBlock).mapM decodePrefixBlock =
      .ok request.promptBlocks := by
    rw [List.mapM_map]
    refine (except_mapM_ok (g := id) fun block hblock ↦ ?_).trans
      (congrArg Except.ok (List.map_id _))
    exact decode_prefix_block_encode (hrequest.blocks block hblock).1 (hrequest.blocks block hblock).2
  have hconversion : decodeBlockConversionResult
      (Json.get ((requestFields text request).insertionSort Json.byKey)
        "block_conversion_result") = .ok request.blockConversionResult := by
    rw [hget "block_conversion_result"]
    exact decode_block_conversion_encode hrequest.conversion
  unfold decodeSimulationRequest
  rw [hversion, except_ok_bind, required_str_ok (hget "request_id") hrequest.request_id,
    except_ok_bind, required_str_ok (hget "tenant_id") hrequest.tenant_id, except_ok_bind,
    required_str_ok (hget "instance_uuid") hrequest.instance_uuid, except_ok_bind,
    required_str_ok (hget "model") hrequest.model, except_ok_bind, hdatetime, except_ok_bind,
    required_number_ok (hget "start_time_ms"), except_ok_bind,
    required_str_ok (hget "tokenizer_profile") hrequest.tokenizer_profile, except_ok_bind,
    required_int_ok (hget "prompt_tokens"), except_ok_bind,
    required_list_ok (hget "prompt_blocks"), except_ok_bind, hblocks, except_ok_bind,
    optional_int_ok (hget "kv_bytes_per_token"), except_ok_bind,
    optional_int_ok (hget "requested_block_size"), except_ok_bind,
    optional_int_ok (hget "runtime_block_size"), except_ok_bind,
    optional_int_ok (hget "effective_block_size"), except_ok_bind, hconversion, except_ok_bind]
  rfl

end Coded

/-! The requests of a replay, whose counts are natural numbers. -/

/-- An integer as a count. -/
def natural (key : String) (value : ℤ) : Except CodecError ℕ :=
  if value < 0 then .error (.negative key) else .ok value.toNat

def optionalNatural (key : String) : Option ℤ → Except CodecError (Option ℕ)
  | none => .ok none
  | some value => (natural key value).map some

def PrefixBlock.coded (block : PrefixBlock) : Coded.PrefixBlock where
  blockKey := block.blockKey
  contentHash := block.contentHash
  blockIndex := block.blockIndex
  tokenCount := block.tokenCount
  sizeBytes := block.sizeBytes

def Coded.PrefixBlock.natural (block : Coded.PrefixBlock) :
    Except CodecError InferTwin.PrefixBlock := do
  return {
    blockKey := block.blockKey
    contentHash := block.contentHash
    blockIndex := ← InferTwin.natural "block_index" block.blockIndex
    tokenCount := ← InferTwin.natural "token_count" block.tokenCount
    sizeBytes := ← InferTwin.natural "size_bytes" block.sizeBytes }

def CacheBlockConversionResult.coded (result : CacheBlockConversionResult) :
    Coded.CacheBlockConversionResult where
  requestedBlockSize := result.requestedBlockSize
  runtimeBlockSize := result.runtimeBlockSize
  effectiveBlockSize := result.effectiveBlockSize
  maxCacheHitLength := result.maxCacheHitLength
  maxMatchableBlocks := result.maxMatchableBlocks
  matchedBlocks := result.matchedBlocks
  speculativeDropBlocks := result.speculativeDropBlocks
  cachedBlocks := result.cachedBlocks
  cachedTokens := result.cachedTokens
  unsupportedReason := result.unsupportedReason

def Coded.CacheBlockConversionResult.natural (result : Coded.CacheBlockConversionResult) :
    Except CodecError InferTwin.CacheBlockConversionResult := do
  return {
    requestedBlockSize := ← InferTwin.natural "requested_block_size" result.requestedBlockSize
    runtimeBlockSize := ← InferTwin.natural "runtime_block_size" result.runtimeBlockSize
    effectiveBlockSize := ← InferTwin.natural "effective_block_size" result.effectiveBlockSize
    maxCacheHitLength := ← InferTwin.natural "max_cache_hit_length" result.maxCacheHitLength
    maxMatchableBlocks := ← InferTwin.natural "max_matchable_blocks" result.maxMatchableBlocks
    matchedBlocks := ← InferTwin.natural "matched_blocks" result.matchedBlocks
    speculativeDropBlocks :=
      ← InferTwin.natural "speculative_drop_blocks" result.speculativeDropBlocks
    cachedBlocks := ← InferTwin.natural "cached_blocks" result.cachedBlocks
    cachedTokens := ← InferTwin.natural "cached_tokens" result.cachedTokens
    unsupportedReason := result.unsupportedReason }

def SimulationRequest.coded (request : SimulationRequest) : Coded.SimulationRequest where
  requestId := request.requestId
  tenantId := request.tenantId
  instanceUuid := request.instanceUuid
  model := request.model
  serviceStartTime := request.serviceStartTime
  startTimeMs := request.startTimeMs
  tokenizerProfile := request.tokenizerProfile
  promptTokens := request.promptTokens
  promptBlocks := request.promptBlocks.map PrefixBlock.coded
  kvBytesPerToken := request.kvBytesPerToken.map Nat.cast
  requestedBlockSize := request.requestedBlockSize.map Nat.cast
  runtimeBlockSize := request.runtimeBlockSize.map Nat.cast
  effectiveBlockSize := request.effectiveBlockSize.map Nat.cast
  blockConversionResult := request.blockConversionResult.map CacheBlockConversionResult.coded

def Coded.SimulationRequest.natural (request : Coded.SimulationRequest) :
    Except CodecError InferTwin.SimulationRequest := do
  return {
    requestId := request.requestId
    tenantId := request.tenantId
    instanceUuid := request.instanceUuid
    model := request.model
    serviceStartTime := request.serviceStartTime
    startTimeMs := request.startTimeMs
    tokenizerProfile := request.tokenizerProfile
    promptTokens := ← InferTwin.natural "prompt_tokens" request.promptTokens
    promptBlocks := ← request.promptBlocks.mapM Coded.PrefixBlock.natural
    kvBytesPerToken := ← optionalNatural "kv_bytes_per_token" request.kvBytesPerToken
    requestedBlockSize := ← optionalNatural "requested_block_size" request.requestedBlockSize
    runtimeBlockSize := ← optionalNatural "runtime_block_size" request.runtimeBlockSize
    effectiveBlockSize := ← optionalNatural "effective_block_size" request.effectiveBlockSize
    blockConversionResult := ← match request.blockConversionResult with
      | none => .ok none
      | some result => result.natural.map some }

section Codec

variable (text : JsonText)

def encodeSimulationRequest (request : SimulationRequest) : Json :=
  Coded.encodeSimulationRequest text request.coded

def decodeSimulationRequest (record : List (String × Json)) :
    Except CodecError SimulationRequest := do
  (← Coded.decodeSimulationRequest text record).natural

def encodeSimulationRequestLine (request : SimulationRequest) : String :=
  text.dumps (encodeSimulationRequest text request)

def decodeSimulationRequestLine (line : String) : Except CodecError SimulationRequest :=
  match text.loads line with
  | .error message => .error (.invalidJson message)
  | .ok (.object record) => decodeSimulationRequest text record
  | .ok _ => .error .lineMapping

end Codec

section Requests

theorem natural_ok (key : String) (value : ℕ) : natural key value = .ok value := by
  simp [natural]

theorem optional_natural_ok (key : String) (value : Option ℕ) :
    optionalNatural key (value.map Nat.cast) = .ok value := by
  cases value with
  | none => rfl
  | some value =>
    rw [Option.map_some, optionalNatural, natural_ok]
    rfl

theorem PrefixBlock.natural_coded (block : PrefixBlock) : block.coded.natural = .ok block := by
  unfold Coded.PrefixBlock.natural PrefixBlock.coded
  simp only [natural_ok, except_ok_bind]
  rfl

theorem CacheBlockConversionResult.natural_coded (result : CacheBlockConversionResult) :
    result.coded.natural = .ok result := by
  unfold Coded.CacheBlockConversionResult.natural CacheBlockConversionResult.coded
  simp only [natural_ok, except_ok_bind]
  rfl

theorem SimulationRequest.natural_coded (request : SimulationRequest) :
    request.coded.natural = .ok request := by
  have hblocks : (request.promptBlocks.map PrefixBlock.coded).mapM Coded.PrefixBlock.natural =
      .ok request.promptBlocks := by
    rw [List.mapM_map]
    exact (except_mapM_ok (g := id) fun block _ ↦ block.natural_coded).trans
      (congrArg Except.ok (List.map_id _))
  unfold Coded.SimulationRequest.natural SimulationRequest.coded
  simp only [natural_ok, optional_natural_ok, except_ok_bind, hblocks]
  obtain ⟨_, _, _, _, _, _, _, _, _, _, _, _, _, conversion⟩ := request
  cases conversion with
  | none => rfl
  | some result =>
    simp only [Option.map_some, CacheBlockConversionResult.natural_coded]
    rfl

variable {text : JsonText} {request : SimulationRequest}

/-- What the builder of requests takes care of: no text of a request is empty. -/
structure SimulationRequest.Encodable (request : SimulationRequest) : Prop where
  request_id : request.requestId ≠ ""
  tenant_id : request.tenantId ≠ ""
  instance_uuid : request.instanceUuid ≠ ""
  model : request.model ≠ ""
  tokenizer_profile : request.tokenizerProfile ≠ ""
  blocks : ∀ block ∈ request.promptBlocks, block.blockKey ≠ "" ∧ block.contentHash ≠ ""
  conversion : ∀ result ∈ request.blockConversionResult,
    ∀ reason ∈ result.unsupportedReason, reason ≠ ""

theorem SimulationRequest.Encodable.coded (h : request.Encodable) : request.coded.Encodable where
  request_id := h.request_id
  tenant_id := h.tenant_id
  instance_uuid := h.instance_uuid
  model := h.model
  tokenizer_profile := h.tokenizer_profile
  blocks := List.forall_mem_map.mpr h.blocks
  conversion := by
    intro result hresult
    obtain ⟨result, hmem, rfl⟩ := Option.mem_map.mp hresult
    exact h.conversion result hmem

/-- The JSON text of a request and the ISO text of its start time can be read back; the JSON
text is a single line. -/
structure JsonText.RoundTrips (text : JsonText) (request : SimulationRequest) : Prop where
  one_line : '\n' ∉ (encodeSimulationRequestLine text request).toList
  loads_dumps : text.loads (encodeSimulationRequestLine text request ++ "\n") =
    .ok (encodeSimulationRequest text request)
  iso : Coded.IsoRoundTrips text request.serviceStartTime

/-- A line of a shard is read back as the request it was written for. -/
theorem decode_line_encode (hrequest : request.Encodable) (htext : text.RoundTrips request) :
    decodeSimulationRequestLine text (encodeSimulationRequestLine text request ++ "\n") =
      .ok request := by
  rw [decodeSimulationRequestLine, htext.loads_dumps]
  change decodeSimulationRequest text
    ((Coded.requestFields text request.coded).insertionSort Json.byKey) = .ok request
  rw [decodeSimulationRequest, Coded.decode_simulation_request_encode hrequest.coded htext.iso]
  exact request.natural_coded

end Requests

end InferTwin
