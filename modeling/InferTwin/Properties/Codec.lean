import InferTwin.Streaming.RequestCodec

namespace InferTwin.Coded

open Effect

/-! The types of the fields of a shard record. -/

section Typed

variable (record : List (String × Json)) (key : String)

def HasStr : Prop := ∃ value, Json.get record key = some (.str value) ∧ value ≠ ""

def HasInt : Prop := ∃ value, Json.get record key = some (.int value)

def HasNumber : Prop := HasInt record key ∨ ∃ value, Json.get record key = some (.float value)

/-- An optional field is missing or null. -/
def Absent : Prop := Json.get record key = none ∨ Json.get record key = some .null

def HasDatetime (text : JsonText) : Prop :=
  ∃ value, Json.get record key = some (.str value) ∧ value ≠ "" ∧
    (text.fromisoformat value).isSome

def HasVersion : Prop :=
  Json.get record "schema_version" = some (.str STREAMING_REQUEST_SCHEMA_VERSION)

end Typed

/-- An item of `prompt_blocks` with all its fields. -/
def BlockTyped (item : Json) : Prop :=
  ∃ record, item = .object record ∧ HasStr record "block_key" ∧ HasStr record "content_hash" ∧
    HasInt record "block_index" ∧ HasInt record "token_count" ∧ HasInt record "size_bytes"

/-- The counts of a conversion result, in the order of the record. -/
def conversionCounts : List String := [
  "requested_block_size", "runtime_block_size", "effective_block_size", "max_cache_hit_length",
  "max_matchable_blocks", "matched_blocks", "speculative_drop_blocks", "cached_blocks",
  "cached_tokens"]

def ConversionTyped (value : Json) : Prop :=
  ∃ record, value = .object record ∧ (∀ key ∈ conversionCounts, HasInt record key) ∧
    (Absent record "unsupported_reason" ∨ HasStr record "unsupported_reason")

/-- The fields that are checked before the start time. -/
structure HeadTyped (text : JsonText) (record : List (String × Json)) : Prop where
  version : HasVersion record
  request_id : HasStr record "request_id"
  tenant_id : HasStr record "tenant_id"
  instance_uuid : HasStr record "instance_uuid"
  model : HasStr record "model"
  service_start_time : HasDatetime record "service_start_time" text

/-- No field of the record is missing or wrongly typed, at any depth. -/
structure RequestTyped (text : JsonText) (record : List (String × Json)) : Prop
    extends HeadTyped text record where
  start_time_ms : HasNumber record "start_time_ms"
  tokenizer_profile : HasStr record "tokenizer_profile"
  prompt_tokens : HasInt record "prompt_tokens"
  prompt_blocks : ∃ items, Json.get record "prompt_blocks" = some (.list items) ∧
    ∀ item ∈ items, BlockTyped item
  optional_counts : ∀ key ∈ ["kv_bytes_per_token", "requested_block_size", "runtime_block_size",
    "effective_block_size"], Absent record key ∨ HasInt record key
  conversion : Absent record "block_conversion_result" ∨
    ∃ value, Json.get record "block_conversion_result" = some value ∧ ConversionTyped value

/-- The start time is an integer that no float can hold. -/
def OversizedStart (record : List (String × Json)) : Prop :=
  ∃ value, Json.get record "start_time_ms" = some (.int value) ∧ floatOfInt value = none

/-! What each field reader accepts. -/

section Readers

variable {record : List (String × Json)} {key : String}

theorem required_str_inv {value : String} (h : requiredStr record key = .ok value) :
    Json.get record key = some (.str value) ∧ value ≠ "" := by
  unfold requiredStr at h
  split at h
  · rename_i found hget
    split at h
    · cases h
    · rename_i hne
      cases h
      exact ⟨hget, hne⟩
  · cases h

theorem required_str_has {value : String} (h : requiredStr record key = .ok value) :
    HasStr record key := ⟨value, required_str_inv h⟩

theorem required_int_inv {value : ℤ} (h : requiredInt record key = .ok value) :
    Json.get record key = some (.int value) := by
  unfold requiredInt at h
  split at h
  · rename_i hget
    cases h
    exact hget
  · cases h

theorem required_int_has {value : ℤ} (h : requiredInt record key = .ok value) :
    HasInt record key := ⟨value, required_int_inv h⟩

theorem optional_int_has {value : Option ℤ} (h : optionalInt record key = .ok value) :
    Absent record key ∨ HasInt record key := by
  unfold optionalInt at h
  split at h
  · rename_i hget
    exact .inl (.inl hget)
  · rename_i hget
    exact .inl (.inr hget)
  · rename_i found hget
    exact .inr ⟨found, hget⟩
  · cases h

theorem optional_str_inv {value : Option String} (h : optionalStr record key = .ok value) :
    (Absent record key ∨ HasStr record key) ∧ ∀ v ∈ value, v ≠ "" := by
  unfold optionalStr at h
  split at h
  · rename_i hget
    cases h
    exact ⟨.inl (.inl hget), by simp⟩
  · rename_i hget
    cases h
    exact ⟨.inl (.inr hget), by simp⟩
  · rename_i found hget
    split at h
    · cases h
    · rename_i hne
      cases h
      exact ⟨.inr ⟨found, hget, hne⟩, by simpa using hne⟩
  · cases h

theorem required_list_inv {items : List Json} (h : requiredList record key = .ok items) :
    Json.get record key = some (.list items) := by
  unfold requiredList at h
  split at h
  · rename_i hget
    cases h
    exact hget
  · cases h

theorem required_number_has {value : ℚ} (h : requiredNumber record key = .ok value) :
    HasNumber record key := by
  unfold requiredNumber at h
  split at h
  · rename_i found hget
    exact .inl ⟨found, hget⟩
  · rename_i found hget
    exact .inr ⟨found, hget⟩
  · cases h

theorem require_schema_version_inv {u : Unit} (h : requireSchemaVersion record = .ok u) :
    HasVersion record := by
  unfold requireSchemaVersion at h
  split at h
  · rename_i version hget
    split at h
    · rename_i heq
      rw [HasVersion, hget, heq]
    · cases h
  · cases h

theorem decode_datetime_inv {text : JsonText} {value : Datetime}
    (h : decodeDatetime text record key = .ok value) :
    HasDatetime record key text ∧
      ∃ s, Json.get record key = some (.str s) ∧ text.fromisoformat s = some value := by
  obtain ⟨s, hs, h⟩ := except_bind_ok.mp h
  obtain ⟨hget, hne⟩ := required_str_inv hs
  split at h
  · rename_i found hfound
    cases h
    exact ⟨⟨s, hget, hne, by rw [hfound]; rfl⟩, s, hget, hfound⟩
  · cases h

end Readers

/-! What an accepted record holds. -/

section Accepted

theorem decode_prefix_block_inv {item : Json} {block : PrefixBlock}
    (h : decodePrefixBlock item = .ok block) :
    BlockTyped item ∧ block.blockKey ≠ "" ∧ block.contentHash ≠ "" := by
  cases item with
  | object record =>
    obtain ⟨key, hkey, h⟩ := except_bind_ok.mp h
    obtain ⟨hash, hhash, h⟩ := except_bind_ok.mp h
    obtain ⟨index, hindex, h⟩ := except_bind_ok.mp h
    obtain ⟨count, hcount, h⟩ := except_bind_ok.mp h
    obtain ⟨size, hsize, h⟩ := except_bind_ok.mp h
    cases h
    have htyped : BlockTyped (.object record) :=
      ⟨record, rfl, required_str_has hkey, required_str_has hhash, required_int_has hindex,
        required_int_has hcount, required_int_has hsize⟩
    exact ⟨htyped, (required_str_inv hkey).2, (required_str_inv hhash).2⟩
  | _ => cases h

theorem decode_conversion_object_inv {record : List (String × Json)}
    {result : Option CacheBlockConversionResult}
    (h : decodeBlockConversionResult (some (.object record)) = .ok result) :
    ConversionTyped (.object record) ∧
      ∀ r ∈ result, ∀ reason ∈ r.unsupportedReason, reason ≠ "" := by
  obtain ⟨requested, h₁, h⟩ := except_bind_ok.mp h
  obtain ⟨runtime, h₂, h⟩ := except_bind_ok.mp h
  obtain ⟨effective, h₃, h⟩ := except_bind_ok.mp h
  obtain ⟨hitLength, h₄, h⟩ := except_bind_ok.mp h
  obtain ⟨matchable, h₅, h⟩ := except_bind_ok.mp h
  obtain ⟨matched, h₆, h⟩ := except_bind_ok.mp h
  obtain ⟨drop, h₇, h⟩ := except_bind_ok.mp h
  obtain ⟨cachedBlocks, h₈, h⟩ := except_bind_ok.mp h
  obtain ⟨cachedTokens, h₉, h⟩ := except_bind_ok.mp h
  obtain ⟨reason, hreason, h⟩ := except_bind_ok.mp h
  cases h
  obtain ⟨htyped, hne⟩ := optional_str_inv hreason
  refine ⟨⟨record, rfl, ?_, htyped⟩, ?_⟩
  · simp only [conversionCounts, List.forall_mem_cons, List.not_mem_nil, false_imp_iff,
      implies_true, and_true]
    exact ⟨required_int_has h₁, required_int_has h₂, required_int_has h₃, required_int_has h₄,
      required_int_has h₅, required_int_has h₆, required_int_has h₇, required_int_has h₈,
      required_int_has h₉⟩
  · intro r hr
    cases hr
    exact hne

theorem decode_block_conversion_inv {value : Option Json}
    {result : Option CacheBlockConversionResult}
    (h : decodeBlockConversionResult value = .ok result) :
    ((value = none ∨ value = some .null) ∨ ∃ v, value = some v ∧ ConversionTyped v) ∧
      ∀ r ∈ result, ∀ reason ∈ r.unsupportedReason, reason ≠ "" := by
  match value, h with
  | none, h =>
    cases h
    exact ⟨.inl (.inl rfl), by simp⟩
  | some .null, h =>
    cases h
    exact ⟨.inl (.inr rfl), by simp⟩
  | some (.object record), h =>
    obtain ⟨htyped, hne⟩ := decode_conversion_object_inv h
    exact ⟨.inr ⟨_, rfl, htyped⟩, hne⟩

theorem mapM_decode_prefix_block_inv {items : List Json} {blocks : List PrefixBlock}
    (h : items.mapM decodePrefixBlock = .ok blocks) :
    (∀ item ∈ items, BlockTyped item) ∧
      ∀ block ∈ blocks, block.blockKey ≠ "" ∧ block.contentHash ≠ "" := by
  induction items generalizing blocks with
  | nil =>
    cases h
    simp
  | cons item items ih =>
    rw [List.mapM_cons] at h
    obtain ⟨block, hblock, h⟩ := except_bind_ok.mp h
    obtain ⟨rest, hrest, h⟩ := except_bind_ok.mp h
    cases h
    obtain ⟨htyped, hne⟩ := decode_prefix_block_inv hblock
    obtain ⟨htyped', hne'⟩ := ih hrest
    exact ⟨List.forall_mem_cons.mpr ⟨htyped, htyped'⟩, List.forall_mem_cons.mpr ⟨hne, hne'⟩⟩

variable {text : JsonText} {record : List (String × Json)} {request : SimulationRequest}

/-- An accepted record has all its fields, and the request it gives can be encoded. -/
theorem decode_simulation_request_inv (h : decodeSimulationRequest text record = .ok request) :
    RequestTyped text record ∧ request.Encodable ∧
      ∃ s, Json.get record "service_start_time" = some (.str s) ∧
        text.fromisoformat s = some request.serviceStartTime := by
  obtain ⟨_, hversion, h⟩ := except_bind_ok.mp h
  obtain ⟨requestId, hrequest, h⟩ := except_bind_ok.mp h
  obtain ⟨tenantId, htenant, h⟩ := except_bind_ok.mp h
  obtain ⟨instanceUuid, huuid, h⟩ := except_bind_ok.mp h
  obtain ⟨model, hmodel, h⟩ := except_bind_ok.mp h
  obtain ⟨serviceStart, hservice, h⟩ := except_bind_ok.mp h
  obtain ⟨startTime, hstart, h⟩ := except_bind_ok.mp h
  obtain ⟨tokenizer, htokenizer, h⟩ := except_bind_ok.mp h
  obtain ⟨promptTokens, htokens, h⟩ := except_bind_ok.mp h
  obtain ⟨items, hitems, h⟩ := except_bind_ok.mp h
  obtain ⟨blocks, hblocks, h⟩ := except_bind_ok.mp h
  obtain ⟨kvBytes, hkv, h⟩ := except_bind_ok.mp h
  obtain ⟨requested, hrequested, h⟩ := except_bind_ok.mp h
  obtain ⟨runtime, hruntime, h⟩ := except_bind_ok.mp h
  obtain ⟨effective, heffective, h⟩ := except_bind_ok.mp h
  obtain ⟨conversion, hconversion, h⟩ := except_bind_ok.mp h
  cases h
  obtain ⟨hdatetime, hiso⟩ := decode_datetime_inv hservice
  obtain ⟨hblocksTyped, hblocksNe⟩ := mapM_decode_prefix_block_inv hblocks
  obtain ⟨hconversionTyped, hreason⟩ := decode_block_conversion_inv hconversion
  refine ⟨?_, ?_, hiso⟩
  · exact {
      version := require_schema_version_inv hversion
      request_id := required_str_has hrequest
      tenant_id := required_str_has htenant
      instance_uuid := required_str_has huuid
      model := required_str_has hmodel
      service_start_time := hdatetime
      start_time_ms := required_number_has hstart
      tokenizer_profile := required_str_has htokenizer
      prompt_tokens := required_int_has htokens
      prompt_blocks := ⟨items, required_list_inv hitems, hblocksTyped⟩
      optional_counts := by
        simp only [List.forall_mem_cons, List.not_mem_nil, false_imp_iff, implies_true, and_true]
        exact ⟨optional_int_has hkv, optional_int_has hrequested, optional_int_has hruntime,
          optional_int_has heffective⟩
      conversion := hconversionTyped }
  · exact {
      request_id := (required_str_inv hrequest).2
      tenant_id := (required_str_inv htenant).2
      instance_uuid := (required_str_inv huuid).2
      model := (required_str_inv hmodel).2
      tokenizer_profile := (required_str_inv htokenizer).2
      blocks := hblocksNe
      conversion := hreason }

end Accepted

/-! The errors of the readers. -/

section Rejected

variable {α β : Type}

/-- Every error of a computation satisfies `P`. -/
def Raises (P : CodecError → Prop) (x : Except CodecError α) : Prop := ∀ e, x = .error e → P e

theorem raises_ok {P : CodecError → Prop} (a : α) : Raises P (.ok a : Except CodecError α) := by
  intro e h
  cases h

theorem raises_error {P : CodecError → Prop} {e : CodecError} (h : P e) :
    Raises P (.error e : Except CodecError α) := by
  intro e' h'
  cases h'
  exact h

theorem raises_mono {P Q : CodecError → Prop} {x : Except CodecError α} (h : Raises P x)
    (hPQ : ∀ e, P e → Q e) : Raises Q x := fun e he ↦ hPQ e (h e he)

theorem raises_bind {P : CodecError → Prop} {x : Except CodecError α}
    {f : α → Except CodecError β} (hx : Raises P x) (hf : ∀ a, x = .ok a → Raises P (f a)) :
    Raises P (x >>= f) := by
  cases h : x with
  | error e =>
    intro e' he'
    cases he'
    exact hx e h
  | ok a => exact hf a h

theorem raises_mapM {P : CodecError → Prop} {f : α → Except CodecError β} (hf : ∀ a, Raises P (f a))
    (items : List α) : Raises P (items.mapM f) := by
  induction items with
  | nil => exact raises_ok _
  | cons item items ih =>
    rw [List.mapM_cons]
    refine raises_bind (hf item) fun b _ ↦ ?_
    exact raises_bind ih fun bs _ ↦ raises_ok _

/-- The errors are `ValueError`s. -/
abbrev RaisesValueError (x : Except CodecError α) : Prop := Raises (·.isValueError = true) x

section Fields

variable (record : List (String × Json)) (key : String)

theorem required_str_raises : RaisesValueError (requiredStr record key) := by
  unfold requiredStr
  split
  · split
    · exact raises_error rfl
    · exact raises_ok _
  · exact raises_error rfl

theorem optional_str_raises : RaisesValueError (optionalStr record key) := by
  unfold optionalStr
  split
  · exact raises_ok _
  · exact raises_ok _
  · split
    · exact raises_error rfl
    · exact raises_ok _
  · exact raises_error rfl

theorem required_int_raises : RaisesValueError (requiredInt record key) := by
  unfold requiredInt
  split
  · exact raises_ok _
  · exact raises_error rfl

theorem optional_int_raises : RaisesValueError (optionalInt record key) := by
  unfold optionalInt
  split
  · exact raises_ok _
  · exact raises_ok _
  · exact raises_ok _
  · exact raises_error rfl

theorem required_list_raises : RaisesValueError (requiredList record key) := by
  unfold requiredList
  split
  · exact raises_ok _
  · exact raises_error rfl

/-- A number is rejected with a `ValueError`, or it is an integer too large for a float. -/
theorem required_number_raises :
    Raises (fun e ↦ e.isValueError = true ∨
      ∃ value, Json.get record key = some (.int value) ∧ floatOfInt value = none)
      (requiredNumber record key) := by
  unfold requiredNumber
  split
  · rename_i value hget
    split
    · exact raises_ok _
    · rename_i hnone
      exact raises_error (.inr ⟨value, hget, hnone⟩)
  · exact raises_ok _
  · exact raises_error (.inl rfl)

theorem require_schema_version_raises : RaisesValueError (requireSchemaVersion record) := by
  unfold requireSchemaVersion
  split
  · split
    · exact raises_ok _
    · exact raises_error rfl
  · exact raises_error rfl

theorem decode_datetime_raises (text : JsonText) :
    RaisesValueError (decodeDatetime text record key) := by
  refine raises_bind (required_str_raises record key) fun s _ ↦ ?_
  split
  · exact raises_ok _
  · exact raises_error rfl

end Fields

theorem decode_prefix_block_raises (item : Json) : RaisesValueError (decodePrefixBlock item) := by
  cases item with
  | object record =>
    refine raises_bind (required_str_raises _ _) fun _ _ ↦ ?_
    refine raises_bind (required_str_raises _ _) fun _ _ ↦ ?_
    refine raises_bind (required_int_raises _ _) fun _ _ ↦ ?_
    refine raises_bind (required_int_raises _ _) fun _ _ ↦ ?_
    exact raises_bind (required_int_raises _ _) fun _ _ ↦ raises_ok _
  | _ => exact raises_error rfl

theorem decode_block_conversion_raises (value : Option Json) :
    RaisesValueError (decodeBlockConversionResult value) := by
  match value with
  | none => exact raises_ok _
  | some .null => exact raises_ok _
  | some (.object record) =>
    refine raises_bind (required_int_raises _ _) fun _ _ ↦ ?_
    refine raises_bind (required_int_raises _ _) fun _ _ ↦ ?_
    refine raises_bind (required_int_raises _ _) fun _ _ ↦ ?_
    refine raises_bind (required_int_raises _ _) fun _ _ ↦ ?_
    refine raises_bind (required_int_raises _ _) fun _ _ ↦ ?_
    refine raises_bind (required_int_raises _ _) fun _ _ ↦ ?_
    refine raises_bind (required_int_raises _ _) fun _ _ ↦ ?_
    refine raises_bind (required_int_raises _ _) fun _ _ ↦ ?_
    refine raises_bind (required_int_raises _ _) fun _ _ ↦ ?_
    exact raises_bind (optional_str_raises _ _) fun _ _ ↦ raises_ok _
  | some (.bool _) => exact raises_error rfl
  | some (.int _) => exact raises_error rfl
  | some (.float _) => exact raises_error rfl
  | some (.str _) => exact raises_error rfl
  | some (.list _) => exact raises_error rfl

variable {text : JsonText} {record : List (String × Json)}

/-- A record is rejected with a `ValueError`, or its head is right and its start time is too
large for a float. -/
theorem decode_simulation_request_raises :
    Raises (fun e ↦ e.isValueError = true ∨ (HeadTyped text record ∧ OversizedStart record))
      (decodeSimulationRequest text record) := by
  have early {γ : Type} {x : Except CodecError γ} (h : RaisesValueError x) :
      Raises (fun e ↦ e.isValueError = true ∨ (HeadTyped text record ∧ OversizedStart record))
        x :=
    raises_mono h fun _ ↦ .inl
  refine raises_bind (early (require_schema_version_raises _)) fun _ hversion ↦ ?_
  refine raises_bind (early (required_str_raises _ _)) fun _ hrequest ↦ ?_
  refine raises_bind (early (required_str_raises _ _)) fun _ htenant ↦ ?_
  refine raises_bind (early (required_str_raises _ _)) fun _ huuid ↦ ?_
  refine raises_bind (early (required_str_raises _ _)) fun _ hmodel ↦ ?_
  refine raises_bind (early (decode_datetime_raises _ _ _)) fun _ hservice ↦ ?_
  have hhead : HeadTyped text record := {
    version := require_schema_version_inv hversion
    request_id := required_str_has hrequest
    tenant_id := required_str_has htenant
    instance_uuid := required_str_has huuid
    model := required_str_has hmodel
    service_start_time := (decode_datetime_inv hservice).1 }
  refine raises_bind ?_ fun _ _ ↦ ?_
  · exact raises_mono (required_number_raises _ _) fun _ ↦ Or.imp_right (And.intro hhead)
  -- the fields after the start time
  refine raises_bind (early (required_str_raises _ _)) fun _ _ ↦ ?_
  refine raises_bind (early (required_int_raises _ _)) fun _ _ ↦ ?_
  refine raises_bind (early (required_list_raises _ _)) fun items _ ↦ ?_
  refine raises_bind (early (raises_mapM decode_prefix_block_raises items)) fun _ _ ↦ ?_
  refine raises_bind (early (optional_int_raises _ _)) fun _ _ ↦ ?_
  refine raises_bind (early (optional_int_raises _ _)) fun _ _ ↦ ?_
  refine raises_bind (early (optional_int_raises _ _)) fun _ _ ↦ ?_
  refine raises_bind (early (optional_int_raises _ _)) fun _ _ ↦ ?_
  exact raises_bind (early (decode_block_conversion_raises _)) fun _ _ ↦ raises_ok _

theorem require_schema_version_ok (h : HasVersion record) : requireSchemaVersion record = .ok () := by
  unfold HasVersion at h
  simp only [requireSchemaVersion, h, if_true]

/-- Behind a right head a start time too large for a float raises an `OverflowError`. -/
theorem decode_simulation_request_overflow (hhead : HeadTyped text record)
    (hstart : OversizedStart record) :
    decodeSimulationRequest text record = .error .floatOverflow := by
  obtain ⟨requestId, hrequest, hrequestNe⟩ := hhead.request_id
  obtain ⟨tenantId, htenant, htenantNe⟩ := hhead.tenant_id
  obtain ⟨uuid, huuid, huuidNe⟩ := hhead.instance_uuid
  obtain ⟨model, hmodel, hmodelNe⟩ := hhead.model
  obtain ⟨iso, hiso, hisoNe, hsome⟩ := hhead.service_start_time
  obtain ⟨datetime, hdatetime⟩ := Option.isSome_iff_exists.mp hsome
  obtain ⟨start, hget, hnone⟩ := hstart
  have hservice : decodeDatetime text record "service_start_time" = .ok datetime := by
    rw [decodeDatetime, required_str_ok hiso hisoNe, except_ok_bind, hdatetime]
    rfl
  have hnumber : requiredNumber record "start_time_ms" = .error .floatOverflow := by
    simp only [requiredNumber, hget, hnone]
  rw [decodeSimulationRequest, require_schema_version_ok hhead.version, except_ok_bind,
    required_str_ok hrequest hrequestNe, except_ok_bind, required_str_ok htenant htenantNe,
    except_ok_bind, required_str_ok huuid huuidNe, except_ok_bind,
    required_str_ok hmodel hmodelNe, except_ok_bind, hservice, except_ok_bind, hnumber]
  rfl

end Rejected

/-! The round trip. -/

/-- A decoder reads a JSON value as a request. -/
def DecodesTo (text : JsonText) (record : Json) (request : SimulationRequest) : Prop :=
  ∃ fields, record = .object fields ∧ decodeSimulationRequest text fields = .ok request

section RoundTrip

variable {text : JsonText} {record : List (String × Json)} {request : SimulationRequest}

theorem encode_decodes_to (h : request.Encodable)
    (hiso : IsoRoundTrips text request.serviceStartTime) :
    DecodesTo text (encodeSimulationRequest text request) request :=
  ⟨_, rfl, decode_simulation_request_encode h hiso⟩

/-- A JSON value is decoded to one request at most. -/
theorem DecodesTo.unique {value : Json} {a b : SimulationRequest} (ha : DecodesTo text value a)
    (hb : DecodesTo text value b) : a = b := by
  obtain ⟨fields, rfl, ha⟩ := ha
  obtain ⟨fields', heq, hb⟩ := hb
  cases heq
  exact Except.ok.inj (ha.symm.trans hb)

/-- The datetimes that a request and a record name can be read back from their ISO texts. -/
def DatetimesRoundTrip (text : JsonText) (request : SimulationRequest)
    (record : List (String × Json)) : Prop :=
  IsoRoundTrips text request.serviceStartTime ∧
    ∀ s value, Json.get record "service_start_time" = some (.str s) →
      text.fromisoformat s = some value → IsoRoundTrips text value

/-- What the codec is for: a request survives the round trip; an accepted record is encoded
again as a record of the same request, and encoding that one is a fixed point; a record with a
field missing or wrongly typed is rejected with a `ValueError`. -/
structure CodecRoundTrips (text : JsonText) (request : SimulationRequest)
    (record : List (String × Json)) : Prop where
  request : request.Encodable → DecodesTo text (encodeSimulationRequest text request) request
  accepted : ∀ decoded, decodeSimulationRequest text record = .ok decoded →
    DecodesTo text (encodeSimulationRequest text decoded) decoded ∧
      ∀ again, DecodesTo text (encodeSimulationRequest text decoded) again →
        encodeSimulationRequest text again = encodeSimulationRequest text decoded
  rejected : ¬ RequestTyped text record →
    ∃ e, decodeSimulationRequest text record = .error e ∧ e.isValueError = true

/-- The codec round-trips, except on a record with a wrong field behind its head whose start
time is an integer too large for a float. -/
theorem codec_round_trips_iff (hiso : DatetimesRoundTrip text request record) :
    CodecRoundTrips text request record ↔
      (RequestTyped text record ∨ ¬ HeadTyped text record ∨ ¬ OversizedStart record) := by
  constructor
  · intro h
    by_contra hcond
    push Not at hcond
    obtain ⟨htyped, hhead, hstart⟩ := hcond
    obtain ⟨e, he, hvalue⟩ := h.rejected htyped
    rw [decode_simulation_request_overflow hhead hstart] at he
    cases he
    exact absurd hvalue (by decide)
  · intro hcond
    refine ⟨fun hrequest ↦ encode_decodes_to hrequest hiso.1, ?_, ?_⟩
    · intro decoded hdecoded
      obtain ⟨-, hencodable, s, hget, hs⟩ := decode_simulation_request_inv hdecoded
      have hdecodes := encode_decodes_to hencodable (hiso.2 s _ hget hs)
      exact ⟨hdecodes, fun again hagain ↦ by rw [hagain.unique hdecodes]⟩
    · intro htyped
      cases h : decodeSimulationRequest text record with
      | ok decoded => exact absurd (decode_simulation_request_inv h).1 htyped
      | error e =>
        refine ⟨e, rfl, ?_⟩
        rcases decode_simulation_request_raises e h with hvalue | ⟨hhead, hstart⟩
        · exact hvalue
        · rcases hcond with htyped' | hhead' | hstart'
          · exact absurd htyped' htyped
          · exact absurd hhead hhead'
          · exact absurd hstart hstart'

end RoundTrip

/-- The ISO text of the epoch; every other text is refused. -/
def epochText : JsonText where
  dumps _ := ""
  loads _ := .error ""
  isoformat _ := "1970-01-01T00:00:00"
  fromisoformat text :=
    if text = "1970-01-01T00:00:00" then some { microseconds := 0 } else none

def epochRequest : SimulationRequest where
  requestId := "1"
  tenantId := "t"
  instanceUuid := "a"
  model := "m"
  serviceStartTime := { microseconds := 0 }
  startTimeMs := 0
  tokenizerProfile := "p"
  promptTokens := 2
  promptBlocks := [{
    blockKey := "k"
    contentHash := "h"
    blockIndex := 0
    tokenCount := 2
    sizeBytes := 4 }]
  kvBytesPerToken := some 2
  requestedBlockSize := none
  runtimeBlockSize := none
  effectiveBlockSize := some 2
  blockConversionResult := none

theorem epoch_request_encodable : epochRequest.Encodable where
  request_id := by decide
  tenant_id := by decide
  instance_uuid := by decide
  model := by decide
  tokenizer_profile := by decide
  blocks := by decide
  conversion := by simp [epochRequest]

theorem epoch_round_trips : IsoRoundTrips epochText { microseconds := 0 } := ⟨by decide, rfl⟩

theorem epoch_datetimes (record : List (String × Json)) :
    DatetimesRoundTrip epochText epochRequest record := by
  refine ⟨epoch_round_trips, fun s value _ hvalue ↦ ?_⟩
  unfold epochText at hvalue
  dsimp only at hvalue
  split at hvalue
  · cases hvalue
    exact epoch_round_trips
  · cases hvalue

theorem codec_round_trips_iff_epoch :
    CodecRoundTrips epochText epochRequest
      ((requestFields epochText epochRequest).insertionSort Json.byKey) := by
  have hdecode := decode_simulation_request_encode epoch_request_encodable epoch_round_trips
  exact (codec_round_trips_iff (epoch_datetimes _)).mpr
    (.inl (decode_simulation_request_inv hdecode).1)

/-- A record without most of its fields, whose start time has 401 digits. -/
def oversizedRecord : List (String × Json) := [
  ("schema_version", .str STREAMING_REQUEST_SCHEMA_VERSION),
  ("request_id", .str "1"),
  ("tenant_id", .str "t"),
  ("instance_uuid", .str "a"),
  ("model", .str "m"),
  ("service_start_time", .str "1970-01-01T00:00:00"),
  ("start_time_ms", .int (10 ^ 400))]

theorem oversized_record_not_typed : ¬ RequestTyped epochText oversizedRecord := by
  intro h
  obtain ⟨value, hvalue, -⟩ := h.tokenizer_profile
  cases hvalue

theorem oversized_start : floatOfInt (10 ^ 400) = none := by decide +kernel

/-- The record is rejected with an `OverflowError`. -/
theorem oversized_record_overflows :
    DatetimesRoundTrip epochText epochRequest oversizedRecord ∧
      ¬ CodecRoundTrips epochText epochRequest oversizedRecord := by
  refine ⟨epoch_datetimes _, fun h ↦ ?_⟩
  obtain ⟨e, he, hvalue⟩ := h.rejected oversized_record_not_typed
  have hhead : HeadTyped epochText oversizedRecord := {
    version := rfl
    request_id := ⟨"1", rfl, by decide⟩
    tenant_id := ⟨"t", rfl, by decide⟩
    instance_uuid := ⟨"a", rfl, by decide⟩
    model := ⟨"m", rfl, by decide⟩
    service_start_time := ⟨"1970-01-01T00:00:00", rfl, by decide, rfl⟩ }
  rw [decode_simulation_request_overflow hhead ⟨10 ^ 400, rfl, oversized_start⟩] at he
  cases he
  exact absurd hvalue (by decide)

end InferTwin.Coded
