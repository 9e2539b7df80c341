import InferTwin.Foundation.Sha256
import InferTwin.Properties.RequestBuild
import InferTwin.Properties.SweepReturns

namespace InferTwin

open Effect

section Rows

variable {context : RequestBuildContext} {profile : TokenizerProfile} {record : TraceRecord}
  {records : List TraceRecord} {request : SimulationRequest} {text : JsonText}
  {buildRequest : TraceRecord → Except PromptTooLongError SimulationRequest}

theorem SimulationRequest.BuiltIn.builds (h : request.BuiltIn context profile record)
    (htext : text.RoundTrips request) : record.Builds text request :=
  ⟨h.request_id_eq, h.tenant_id_eq, h.instance_uuid_eq, h.start_time_eq, h.toEncodable, htext⟩

/-- A request that was built can be served, if it fits a batch. -/
theorem SimulationRequest.BuiltIn.sweepable (h : request.BuiltIn context profile record)
    {runner : StreamingCapacitySweepRunner} {bytesPerToken : ℕ}
    (hkv : profile.kvBytesPerToken.getD 0 = bytesPerToken)
    (hstart : 0 ≤ record.serviceStartTime.toMs)
    (hholds : ∀ config, runner.schedulerFor record.instanceUuid = .ok config →
      config.enableChunkedPrefill = true ∨
        ∃ limit ∈ context.maxPromptTokens, limit ≤ config.maxNumBatchedTokens) :
    request.Sweepable runner bytesPerToken where
  toAccountable := h.toAccountable
  start_nonneg := h.start_time_eq ▸ hstart
  bytes := hkv ▸ h.bytes
  block_size _ _ := by
    rw [h.size_eq]
    exact h.size_pos.ne'
  holds config hconfig := by
    rw [h.instance_uuid_eq] at hconfig
    refine (hholds config hconfig).imp_right ?_
    rintro ⟨limit, hlimit, hle⟩
    exact (h.limit limit hlimit).trans hle

theorem accepted_distinct
    (hbuild : ∀ record ∈ records, ∀ request, buildRequest record = .ok request →
      request.requestId = record.requestId)
    (hids : (records.map TraceRecord.requestId).Nodup) :
    ((acceptedRequests buildRequest records).map SimulationRequest.requestId).Nodup := by
  rw [List.Nodup, List.pairwise_map] at hids
  rw [List.Nodup, List.pairwise_map, acceptedRequests, List.pairwise_filterMap]
  refine hids.imp_of_mem fun {a b} ha hb hne request hrequest request' hrequest' ↦ ?_
  rw [hbuild a ha request (toOption_eq_some.mp hrequest),
    hbuild b hb request' (toOption_eq_some.mp hrequest')]
  exact hne

end Rows

/-- A trace whose rows are in order, have their own ids, and start after the epoch; no two of its
instances share a shard. -/
structure OrderedTrace (sha256 : List UInt8 → List UInt8) (shardRoot : String)
    (records : List TraceRecord) : Prop where
  sorted : records.Pairwise fun a b ↦ a.sortKey ≤ b.sortKey
  distinct : (records.map TraceRecord.requestId).Nodup
  start_nonneg : ∀ record ∈ records, 0 ≤ record.serviceStartTime.toMs
  paths : Set.InjOn (shardPath sha256 shardRoot) {i | ∃ record ∈ records, record.instanceUuid = i}

/-- The tokenizers of a resolver are named, and weigh a token alike. -/
structure StreamingRequestBuildResolver.Weighs (resolver : StreamingRequestBuildResolver)
    (bytesPerToken : ℕ) : Prop where
  named : ∀ profile ∈ resolver.settings.tokenizerRegistry.profiles, profile.profile ≠ ""
  bytes : ∀ profile ∈ resolver.settings.tokenizerRegistry.profiles,
    profile.kvBytesPerToken.getD 0 = bytesPerToken

section Sweeps

variable {sha256 : List UInt8 → List UInt8} {services : TokenizerServices} {text : JsonText}
  {resolver : StreamingRequestBuildResolver}
  {buildRequest : TraceRecord → Except PromptTooLongError SimulationRequest}
  {records : List TraceRecord} {turns fuel bytesPerToken : ℕ}
  {loadYaml : String → Except ConfigError Json} {config : List (String × Json)}
  {tracePath : String} {runner : StreamingCapacitySweepRunner}

/-- From the rows of a trace to the rows of its sweep. If each row has a request or a prompt that
is too long, it is accepted with a request within its limit or rejected with a prompt beyond it,
the shards are built, and only the settings of its instances can keep the sweep from its rows. -/
theorem tokenized_sweep_returns
    (hcreate : StreamingCapacitySweepRunner.create loadYaml config tracePath = .ok runner)
    (htrace : OrderedTrace sha256 runner.builder.shardRoot records)
    (hrows : ∀ record ∈ records, resolver.freshRequest sha256 services record =
      (buildRequest record).mapError .promptTooLong)
    (hdigest : ∀ bytes, sha256 bytes ≠ []) (hweighs : resolver.Weighs bytesPerToken)
    (hloads : runner.Loads bytesPerToken)
    (htext : ∀ request ∈ acceptedRequests buildRequest records, text.RoundTrips request)
    (hholds : ∀ record ∈ records, ∀ inputs config, resolver.freshInputs record = .ok inputs →
      runner.schedulerFor record.instanceUuid = .ok config →
        config.enableChunkedPrefill = true ∨
          ∃ limit ∈ inputs.buildContext.maxPromptTokens, limit ≤ config.maxNumBatchedTokens)
    (hturns : (acceptedRequests buildRequest records).length < turns)
    (hfuel : replayFuel (acceptedRequests buildRequest records) ≤ fuel) (disk : Disk) :
    (∀ record ∈ records, ∃ inputs, resolver.freshInputs record = .ok inputs ∧
      inputs.Yields resolver.settings.tokenizerRegistry record (buildRequest record)) ∧
    (∃ built contexts, resolver.build sha256 services text runner.builder records disk ∅ =
      .ok built contexts) ∧
    ((∃ result resolved, runner.run text .exact turns fuel sha256 buildRequest records disk {} =
        .ok result resolved) ↔
      ∀ capacity ∈ runner.sweepConfig.capacities,
        ∀ instanceUuid ∈ instancesOf (acceptedRequests buildRequest records),
          runner.Equips capacity instanceUuid) := by
  have hyields : ∀ record ∈ records, ∃ inputs, resolver.freshInputs record = .ok inputs ∧
      inputs.Yields resolver.settings.tokenizerRegistry record (buildRequest record) :=
    fun record hrecord ↦ StreamingRequestBuildResolver.fresh_request_yields hdigest hweighs.named
      (hrows record hrecord)
  have hbuilt : ∀ record ∈ records, ∀ request, buildRequest record = .ok request →
      ∃ inputs, resolver.freshInputs record = .ok inputs ∧
        ∃ profile ∈ resolver.settings.tokenizerRegistry.profiles,
          request.BuiltIn inputs.buildContext profile record := by
    intro record hrecord request hrequest
    obtain ⟨inputs, hinputs, hrow⟩ := hyields record hrecord
    rw [hrequest] at hrow
    exact ⟨inputs, hinputs, hrow⟩
  have hsweep : SweepTrace sha256 text runner.builder.shardRoot buildRequest records := by
    refine ⟨htrace.sorted, fun record hrecord request hrequest ↦ ?_, fun instanceUuid ↦ ?_,
      htrace.paths⟩
    · obtain ⟨inputs, -, profile, -, h⟩ := hbuilt record hrecord request hrequest
      exact h.builds (htext request (mem_accepted.mpr ⟨record, hrecord, hrequest⟩))
    · have hids := accepted_distinct (fun record hrecord request hrequest ↦ by
        obtain ⟨inputs, -, profile, -, h⟩ := hbuilt record hrecord request hrequest
        exact h.request_id_eq) htrace.distinct
      exact hids.sublist (List.filter_sublist.map _)
  have hr : ∀ request ∈ acceptedRequests buildRequest records,
      request.Sweepable runner bytesPerToken := by
    intro request hrequest
    obtain ⟨record, hrecord, hresult⟩ := mem_accepted.mp hrequest
    obtain ⟨inputs, hinputs, profile, hprofile, h⟩ := hbuilt record hrecord request hresult
    exact h.sweepable (hweighs.bytes profile hprofile) (htrace.start_nonneg record hrecord)
      fun config hconfig ↦ hholds record hrecord inputs config hinputs hconfig
  refine ⟨hyields, ?_, ?_⟩
  · obtain ⟨built, disk', hbuild, -⟩ := hsweep.build rfl hturns disk
    have hfresh := StreamingRequestBuildResolver.fresh_build_ok_iff.mpr
      ⟨buildRequest, hrows, hbuild⟩
    have hresolves : Resolves (Recalls resolver.contextOf)
        (resolver.build sha256 services text runner.builder records disk)
        (resolver.freshBuild sha256 services text runner.builder records disk) :=
      StreamingRequestBuildResolver.build_resolves resolver records disk
    rw [hfresh] at hresolves
    obtain ⟨contexts, hreturns, -⟩ := hresolves.returns (recalls_empty _)
    exact ⟨_, contexts, hreturns⟩
  · exact StreamingCapacitySweepRunner.run_returns_iff_equips (build_batch_latency_backend_shipped
      (build_resolver_global (StreamingCapacitySweepRunner.create_reads hcreate).2.1)) hsweep hr
      hloads hturns hfuel disk

namespace Sample

/-- The parameters of a row with one message. -/
def promptText : String :=
  "\x7b\"messages\":[\x7b\"content\":\"a\",\"role\":\"user\"\x7d],\"model\":\"model\"\x7d"

def promptRow : TraceRecord where
  requestId := "1"
  tenantId := "t"
  instanceUuid := "a"
  requestParams := promptText
  serviceStartTime := { microseconds := 0 }
  request_id_nonempty := by decide
  tenant_id_nonempty := by decide
  instance_uuid_nonempty := by decide

def promptServices : TokenizerServices where
  loads text :=
    if text = promptText then .ok (.object [
      ("messages", .list [.object [("content", .str "a"), ("role", .str "user")]]),
      ("model", .str "model")])
    else .error "Expecting value"
  dumps _ := ""
  readText _ := none
  renderTemplate _ _ _ := .error ""
  encodeHf _ _ := .error ""

def promptTokenizer : TokenizerProfile where
  profile := "profile"
  tokenizerType := "simple"
  root := "tokenizers"
  tokenizerPath := "tokenizers"
  chatTemplatePath := none
  includeTools := true
  modelAliases := ["model"]
  kvBytesPerToken := some 2

/-- The tokens of the words `<|user|>`, `a` and `<|assistant|>`. -/
def promptTokenIds : List ℕ :=
  [13143465144072582814, 14598278634844962250, 12971722791907052553]

def promptBlock : PrefixBlock where
  blockKey := "d5b8cb114e411ac38a72d804ac4256f9ef76fe46fd1a586c2dec24415b26fcbd"
  contentHash := "01efa3a1630d43cf64c9588de950786883b499e2cb7a9d3fd106ca96acbf4e03"
  blockIndex := 0
  tokenCount := 3
  sizeBytes := 6

def promptContext : RequestBuildContext where
  runSpec := none
  modelProfile := none
  deploymentProfile := none
  blockSizeResolution := {
    requestedBlockSize := 3, runtimeBlockSize := 3, effectiveBlockSize := 3
    prefillContextParallelSize := 1, decodeContextParallelSize := 1, cacheFamily := .fullAttention }
  maxPromptTokens := some 8

def promptResolver : StreamingRequestBuildResolver where
  settings := {
    tracePath := "trace.csv"
    tokenizerRegistry := { profiles := [promptTokenizer], distinct := by decide }
    blockSizeTokens := 3
    cacheScope := "tenant_isolated"
    buildContext := promptContext }
  runtimeResolver := none
  outputDir := "runs"

def promptRequest : SimulationRequest where
  requestId := "1"
  tenantId := "t"
  instanceUuid := "a"
  model := "model"
  serviceStartTime := { microseconds := 0 }
  startTimeMs := 0
  tokenizerProfile := "profile"
  promptTokens := 3
  promptBlocks := [promptBlock]
  kvBytesPerToken := some 2
  requestedBlockSize := some 3
  runtimeBlockSize := some 3
  effectiveBlockSize := some 3
  blockConversionResult := some {
    requestedBlockSize := 3, runtimeBlockSize := 3, effectiveBlockSize := 3
    maxCacheHitLength := 2, maxMatchableBlocks := 0, matchedBlocks := 0
    speculativeDropBlocks := 0, cachedBlocks := 0, cachedTokens := 0 }

theorem prompt_model_nonempty : "model" ≠ "" := by decide

def parsedPrompt : ParsedRequest where
  model := "model"
  messages := [{
    fields := [("content", .str "a"), ("role", .str "user")]
    role := "user"
    content := .str "a" }]
  tools := []
  model_nonempty := prompt_model_nonempty

theorem prompt_parsed : parseRequestParams promptServices.loads promptText = .ok parsedPrompt := rfl

theorem prompt_tokens :
    encodeWithProfile Sha256.digest promptServices promptTokenizer parsedPrompt =
      .ok promptTokenIds := by
  have hwords : encodeText Sha256.digest ("\n".intercalate ["<|" ++ "user" ++ "|>\n" ++ "a",
      "<|assistant|>"]) = promptTokenIds := by decide +kernel
  rw [← hwords]
  rfl

theorem prompt_blocks : buildPrefixBlocks Sha256.digest promptTokenIds {
    blockSizeTokens := 3, model := "model", tenantId := "t", kvBytesPerToken := some 2
    cacheScope := .tenantIsolated } = .ok [promptBlock] := by decide +kernel

theorem prompt_encoded :
    promptResolver.settings.tokenizerRegistry.encode Sha256.digest promptServices parsedPrompt
      (some 8) none = .ok {
        model := "model", tokenizerProfile := "profile", promptTokenIds
        promptTokens := 3, kvBytesPerToken := some 2 } := by
  have hprofile : promptResolver.settings.tokenizerRegistry.profileOf parsedPrompt none =
      .ok promptTokenizer := rfl
  rw [encode_eq, hprofile, except_ok_bind, prompt_tokens]
  rfl

theorem prompt_request : promptResolver.freshRequest Sha256.digest promptServices promptRow =
    .ok promptRequest := by
  have hinputs : promptResolver.freshInputs promptRow = .ok {
      blockSizeTokens := 3, buildContext := promptContext, tokenizerProfile := none } := rfl
  have hmodel : promptContext.validateRequestModel parsedPrompt.model = .ok () := rfl
  have hconversion : promptContext.calculateBlockConversion 3 = .ok {
      requestedBlockSize := 3, runtimeBlockSize := 3, effectiveBlockSize := 3
      maxCacheHitLength := 2, maxMatchableBlocks := 0, matchedBlocks := 0
      speculativeDropBlocks := 0, cachedBlocks := 0, cachedTokens := 0 } := rfl
  have hblocks : (buildPrefixBlocks Sha256.digest promptTokenIds {
      blockSizeTokens := 3, model := "model", tenantId := "t", kvBytesPerToken := some 2
      cacheScope := .tenantIsolated }).mapError RequestBuildError.hasher =
        .ok promptRequest.promptBlocks := except_map_error_ok.mpr prompt_blocks
  rw [StreamingRequestBuildResolver.freshRequest, hinputs, except_ok_bind, buildSimulationRequest]
  have hstart : promptRow.serviceStartTime.toMs = 0 := by decide +kernel
  refine except_bind_ok.mpr ⟨promptContext, rfl, except_bind_ok.mpr ⟨parsedPrompt, prompt_parsed,
    except_bind_ok.mpr ⟨(), hmodel, except_bind_ok.mpr ⟨_, prompt_encoded,
      except_bind_ok.mpr ⟨_, hconversion, except_bind_ok.mpr ⟨_, hblocks, ?_⟩⟩⟩⟩⟩⟩
  rw [hstart]
  rfl

/-- The line of the shard. -/
def promptLine : String :=
  "\x7b\"block_conversion_result\":\x7b\"cached_blocks\":0,\"cached_tokens\":0," ++
  "\"effective_block_size\":3,\"matched_blocks\":0,\"max_cache_hit_length\":2," ++
  "\"max_matchable_blocks\":0,\"requested_block_size\":3,\"runtime_block_size\":3," ++
  "\"speculative_drop_blocks\":0,\"unsupported_reason\":null\x7d," ++
  "\"effective_block_size\":3,\"instance_uuid\":\"a\",\"kv_bytes_per_token\":2," ++
  "\"model\":\"model\",\"prompt_blocks\":[\x7b\"block_index\":0,\"block_key\":" ++
  "\"d5b8cb114e411ac38a72d804ac4256f9ef76fe46fd1a586c2dec24415b26fcbd\",\"content_hash\":" ++
  "\"01efa3a1630d43cf64c9588de950786883b499e2cb7a9d3fd106ca96acbf4e03\",\"size_bytes\":6," ++
  "\"token_count\":3\x7d],\"prompt_tokens\":3," ++
  "\"request_id\":\"1\",\"requested_block_size\":3,\"runtime_block_size\":3," ++
  "\"schema_version\":\"infertwin.streaming.request.v1\"," ++
  "\"service_start_time\":\"1970-01-01T00:00:00\",\"start_time_ms\":0.0," ++
  "\"tenant_id\":\"t\",\"tokenizer_profile\":\"profile\"\x7d"

def promptJson : JsonText :=
  { isoText with
    dumps _ := promptLine
    loads line :=
      if line = promptLine ++ "\n" then .ok (encodeSimulationRequest isoText promptRequest)
      else .error "Expecting value" }

theorem prompt_line_one_line : '\n' ∉ promptLine.toList := by
  unfold promptLine
  simp only [String.toList_append, List.mem_append, not_or, and_assoc]
  refine ⟨?_, ?_, ?_, ?_, ?_, ?_, ?_, ?_, ?_, ?_, ?_, ?_, ?_⟩ <;> decide +kernel

theorem prompt_json_loads (line : String) : promptJson.loads line =
    if line = promptLine ++ "\n" then .ok (encodeSimulationRequest isoText promptRequest)
    else .error "Expecting value" := rfl

theorem prompt_round_trips : promptJson.RoundTrips promptRequest := by
  have hline : encodeSimulationRequestLine promptJson promptRequest = promptLine := by
    rw [encodeSimulationRequestLine, promptJson]
  refine ⟨?_, ?_, by decide, by decide⟩
  · rw [hline]
    exact prompt_line_one_line
  · rw [hline, prompt_json_loads, if_pos rfl]
    exact congrArg Except.ok (encode_congr rfl _)

theorem prompt_trace : OrderedTrace Sha256.digest "shards" [promptRow] where
  sorted := List.pairwise_singleton _ _
  distinct := List.nodup_singleton _
  start_nonneg := by
    intro record hrecord
    rw [List.mem_singleton.mp hrecord]
    decide +kernel
  paths := by
    rintro i ⟨record, hrecord, rfl⟩ j ⟨record', hrecord', rfl⟩ -
    rw [List.mem_singleton.mp hrecord, List.mem_singleton.mp hrecord']

end Sample

/-- One row, from its text to the rows of a sweep. -/
theorem tokenized_sweep_returns_prompt : ∃ streaming, StreamingCapacitySweepRunner.create
      Sample.noYaml (Sample.sweepSections "capacity_sweep_streaming") "trace.csv" =
        .ok streaming ∧
    (∃ built contexts, Sample.promptResolver.build Sha256.digest Sample.promptServices
      Sample.promptJson streaming.builder [Sample.promptRow] ∅ ∅ = .ok built contexts) ∧
    ∃ result resolved, streaming.run Sample.promptJson .exact 2 11 Sha256.digest
      (fun _ ↦ .ok Sample.promptRequest) [Sample.promptRow] ∅ {} = .ok result resolved := by
  obtain ⟨streaming, hcreate, hroot, huniform, hbudget⟩ := Sample.streaming_sweep_settings
  have hweighs : Sample.promptResolver.Weighs 2 := by
    refine ⟨fun profile hprofile ↦ ?_, fun profile hprofile ↦ ?_⟩ <;>
      rw [List.mem_singleton.mp hprofile] <;> decide
  have htrace : OrderedTrace Sha256.digest streaming.builder.shardRoot
      [Sample.promptRow] := hroot ▸ Sample.prompt_trace
  have hrows : ∀ record ∈ [Sample.promptRow],
      Sample.promptResolver.freshRequest Sha256.digest Sample.promptServices record =
        (Except.ok Sample.promptRequest : Except PromptTooLongError SimulationRequest).mapError
          .promptTooLong := by
    intro record hrecord
    rw [List.mem_singleton.mp hrecord]
    exact Sample.prompt_request
  have hdigest : ∀ bytes, Sha256.digest bytes ≠ [] := fun _ ↦ List.cons_ne_nil _ _
  have hone : ∀ request ∈ acceptedRequests (fun _ ↦ .ok Sample.promptRequest) [Sample.promptRow],
      request = Sample.promptRequest := fun request hrequest ↦ List.mem_singleton.mp hrequest
  have htext : ∀ request ∈ acceptedRequests (fun _ ↦ .ok Sample.promptRequest) [Sample.promptRow],
      Sample.promptJson.RoundTrips request :=
    fun request hrequest ↦ hone request hrequest ▸ Sample.prompt_round_trips
  have hholds : ∀ record ∈ [Sample.promptRow], ∀ inputs config,
      Sample.promptResolver.freshInputs record = .ok inputs →
        streaming.schedulerFor record.instanceUuid = .ok config →
          config.enableChunkedPrefill = true ∨
            ∃ limit ∈ inputs.buildContext.maxPromptTokens, limit ≤ config.maxNumBatchedTokens := by
    intro record hrecord inputs config hinputs hconfig
    cases hinputs
    cases (huniform.parts record.instance_uuid_nonempty 1).1.symm.trans hconfig
    exact .inr ⟨8, rfl, hbudget.ge⟩
  obtain ⟨-, hbuild, hreturns⟩ := tokenized_sweep_returns hcreate htrace hrows hdigest hweighs
    (.inl (by decide)) htext hholds (Nat.lt_succ_self 1)
    (by decide +kernel : replayFuel [Sample.promptRequest] ≤ 11) ∅
  refine ⟨streaming, hcreate, hbuild, hreturns.mpr fun capacity _ instanceUuid hmem ↦ ?_⟩
  obtain ⟨request, hrequest, rfl⟩ := mem_instancesOf.mp hmem
  refine huniform.equips ?_ capacity
  rw [hone request hrequest]
  decide

end Sweeps

end InferTwin
