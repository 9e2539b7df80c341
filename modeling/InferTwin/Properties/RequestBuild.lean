import InferTwin.Properties.Returns
import InferTwin.Properties.Shards
import InferTwin.Request.Built
import InferTwin.Streaming.BuildResolver

namespace InferTwin

open Effect

/-- Its model name leads back to a runtime profile. -/
theorem InstanceRuntimeResolver.runtime_profile_by_name {resolver : InstanceRuntimeResolver}
    {instanceUuid : String} {profile : ResolvedModelRuntimeProfile}
    (h : resolver.runtimeProfileFor instanceUuid = .ok profile) :
    resolver.modelRuntimeTable.profileFor profile.modelName = .ok profile := by
  have hfound : ∃ modelName, resolver.modelRuntimeTable.profileFor modelName = .ok profile := by
    unfold runtimeProfileFor at h
    split_ifs at h
    cases hitem : resolver.instanceProfile.instanceByUuid.lookup instanceUuid with
    | none =>
      rw [hitem] at h
      cases h
    | some item =>
      rw [hitem] at h
      cases hname : item.modelName with
      | none =>
        simp only [hname] at h
        cases h
      | some modelName =>
        simp only [hname] at h
        exact ⟨modelName, h⟩
  obtain ⟨modelName, hprofile⟩ := hfound
  have hkey : profile.modelName = modelName := by
    unfold ModelRuntimeTable.profileFor at hprofile
    cases hlookup : (Dict.byKey ResolvedModelRuntimeProfile.modelName
        resolver.modelRuntimeTable.profiles).lookup modelName with
    | none =>
      rw [hlookup] at hprofile
      cases hprofile
    | some found =>
      rw [hlookup] at hprofile
      cases hprofile
      exact (Dict.key_of_by_key hlookup).2
  rw [hkey, hprofile]

/-- What the inputs of a row can make of it: a request within their limit, or a prompt beyond
it. -/
def StreamingRequestBuildInputs.Yields (inputs : StreamingRequestBuildInputs)
    (registry : TokenizerRegistry) (record : TraceRecord) :
    Except PromptTooLongError SimulationRequest → Prop
  | .ok request =>
    ∃ profile ∈ registry.profiles, request.BuiltIn inputs.buildContext profile record
  | .error error => inputs.buildContext.maxPromptTokens = some error.maxPromptTokens ∧
    error.maxPromptTokens < error.promptTokens

namespace StreamingRequestBuildResolver

section Fresh

variable (resolver : StreamingRequestBuildResolver) (sha256 : List UInt8 → List UInt8)
  (services : TokenizerServices)

/-- The inputs of a row, every context made anew. -/
def freshInputs (record : TraceRecord) : Except RequestBuildError StreamingRequestBuildInputs :=
  match resolver.runtimeResolver with
  | none => .ok {
      blockSizeTokens := resolver.settings.blockSizeTokens
      buildContext := resolver.settings.buildContext
      tokenizerProfile := none }
  | some runtimeResolver => do
    let runtimeProfile ← (runtimeResolver.runtimeProfileFor record.instanceUuid).mapError .config
    let buildContext ← resolver.makeContext runtimeProfile
    return {
      blockSizeTokens := runtimeProfile.defaultCache.blockSizeTokens
      buildContext
      tokenizerProfile := some runtimeProfile.tokenizerProfile }

/-- The request of a row on its own. -/
def freshRequest (record : TraceRecord) : Except RequestBuildError SimulationRequest := do
  let inputs ← resolver.freshInputs record
  buildSimulationRequest sha256 services record resolver.settings.tokenizerRegistry
    inputs.blockSizeTokens resolver.settings.cacheScope (some inputs.buildContext)
    inputs.tokenizerProfile

variable (text : JsonText) (builder : StreamingRequestShardBuilder)

/-- A row of a build that keeps no contexts. -/
def freshRow (record : TraceRecord) (lineNumber : ℕ) (state : BuildState) :
    Except StreamingBuildError BuildState := do
  if builder.requireSortedTrace then
    (guardSortedTrace state.previousKey record.sortKey lineNumber).mapError .build
  let result ← rejectTooLong (resolver.freshRequest sha256 services record)
  (builder.buildRecord sha256 text (fun _ ↦ result) record lineNumber state).mapError .build

def freshRows : List TraceRecord → ℕ → BuildState → Except StreamingBuildError BuildState
  | [], _, state => .ok state
  | record :: records, lineNumber, state => do
    let state ← resolver.freshRow sha256 services text builder record lineNumber state
    freshRows records (lineNumber + 1) state

def freshBuild (records : List TraceRecord) (disk : Disk) :
    Except StreamingBuildError (StreamingBuildResult × Disk) := do
  let state ← resolver.freshRows sha256 services text builder records 2
    { shardStore := { shardRoot := builder.shardRoot, disk } }
  (finishBuild builder state).mapError .build

/-- The context of a model. -/
def contextOf (modelName : String) : Except RequestBuildError RequestBuildContext :=
  match resolver.runtimeResolver with
  | none => .error (.unknownModel modelName)
  | some runtimeResolver => do
    let profile ← (runtimeResolver.modelRuntimeTable.profileFor modelName).mapError .config
    resolver.makeContext profile

end Fresh

variable {resolver : StreamingRequestBuildResolver} {sha256 : List UInt8 → List UInt8}
  {services : TokenizerServices} {text : JsonText} {builder : StreamingRequestShardBuilder}
  {record : TraceRecord} {records : List TraceRecord}
  {buildRequest : TraceRecord → Except PromptTooLongError SimulationRequest}

theorem inputs_for_resolves (resolver : StreamingRequestBuildResolver) (record : TraceRecord) :
    Resolves (Recalls resolver.contextOf) (resolver.inputsFor record)
      (resolver.freshInputs record) := by
  unfold inputsFor freshInputs
  cases hruntime : resolver.runtimeResolver with
  | none => exact .pure _
  | some runtimeResolver =>
    refine (Resolves.check _).bind fun profile hprofile ↦ ?_
    have hname := InstanceRuntimeResolver.runtime_profile_by_name
      (except_map_error_ok.mp hprofile)
    have hcontext : resolver.contextOf profile.modelName = resolver.makeContext profile := by
      rw [contextOf, hruntime]
      simp only [hname]
      rfl
    have hremember := remember_resolves resolver.contextOf profile.modelName
    rw [hcontext] at hremember
    exact hremember.bind fun context _ ↦ .pure _

theorem request_for_resolves (resolver : StreamingRequestBuildResolver) (record : TraceRecord) :
    Resolves (Recalls resolver.contextOf) (resolver.requestFor sha256 services record)
      (resolver.freshRequest sha256 services record) :=
  (inputs_for_resolves resolver record).bind fun _ _ ↦ .check _

theorem attempt_row_resolves {P : ContextByModel → Prop}
    {request : EStateM RequestBuildError ContextByModel SimulationRequest}
    {answer : Except RequestBuildError SimulationRequest} (h : Resolves P request answer) :
    Resolves P (attemptRow request) (rejectTooLong answer) := by
  intro table htable
  obtain ⟨houtcome, hafter⟩ := h table htable
  unfold attemptRow
  rw [houtcome]
  cases rejectTooLong answer <;> exact ⟨rfl, hafter⟩

theorem build_row_resolves (resolver : StreamingRequestBuildResolver) (record : TraceRecord)
    (lineNumber : ℕ) (state : BuildState) :
    Resolves (Recalls resolver.contextOf)
      (resolver.buildRow sha256 services text builder record lineNumber state)
      (resolver.freshRow sha256 services text builder record lineNumber state) := by
  have hrequest : Resolves (Recalls resolver.contextOf)
      (resolver.requestFor sha256 services record)
      (resolver.freshRequest sha256 services record) := request_for_resolves resolver record
  have hrow := (attempt_row_resolves hrequest).bind
    fun result _ ↦ Resolves.check ((builder.buildRecord sha256 text (fun _ ↦ result) record
      lineNumber state).mapError StreamingBuildError.build)
  unfold buildRow freshRow
  cases hsorted : builder.requireSortedTrace with
  | false => exact hrow
  | true => exact (Resolves.check _).bind fun _ _ ↦ hrow

theorem build_rows_resolves (resolver : StreamingRequestBuildResolver) (records : List TraceRecord)
    (lineNumber : ℕ) (state : BuildState) :
    Resolves (Recalls resolver.contextOf)
      (resolver.buildRows sha256 services text builder records lineNumber state)
      (resolver.freshRows sha256 services text builder records lineNumber state) := by
  induction records generalizing lineNumber state with
  | nil => exact .pure _
  | cons record records ih =>
    unfold buildRows freshRows
    exact (build_row_resolves resolver record lineNumber state).bind fun state _ ↦ ih _ state

theorem build_resolves (resolver : StreamingRequestBuildResolver) (records : List TraceRecord)
    (disk : Disk) :
    Resolves (Recalls resolver.contextOf)
      (resolver.build sha256 services text builder records disk)
      (resolver.freshBuild sha256 services text builder records disk) :=
  (build_rows_resolves resolver records _ _).bind fun _ _ ↦ .check _

/-- The order of a row is checked once more where it is written. -/
theorem build_record_eq (lineNumber : ℕ) (state : BuildState) :
    builder.buildRecord sha256 text buildRequest record lineNumber state = (do
      if builder.requireSortedTrace then
        guardSortedTrace state.previousKey record.sortKey lineNumber
      builder.buildRecord sha256 text (fun _ ↦ buildRequest record) record lineNumber state) := by
  unfold StreamingRequestShardBuilder.buildRecord
  cases hsorted : builder.requireSortedTrace with
  | false => rfl
  | true =>
    cases hguard : guardSortedTrace state.previousKey record.sortKey lineNumber with
    | error error => simp only [hguard, ↓reduceIte]; rfl
    | ok u => simp only [hguard, ↓reduceIte]; rfl

theorem map_error_bind {α β ε ε' : Type} (x : Except ε α) (f : α → Except ε β) (wrap : ε → ε') :
    (x >>= f).mapError wrap = x.mapError wrap >>= fun a ↦ (f a).mapError wrap := by
  cases x <;> rfl

theorem reject_too_long_ok {answer : Except RequestBuildError SimulationRequest}
    {result : Except PromptTooLongError SimulationRequest} :
    rejectTooLong answer = .ok result ↔ answer = result.mapError .promptTooLong := by
  constructor
  · intro h
    cases answer with
    | ok request =>
      cases h
      rfl
    | error error =>
      cases error with
      | promptTooLong error =>
        cases h
        rfl
      | _ => cases h
  · rintro rfl
    cases result <;> rfl

/-- The rows of a build that returns each have a request, or a prompt that is too long. -/
theorem fresh_row_ok {lineNumber : ℕ} {state state' : BuildState}
    (h : resolver.freshRow sha256 services text builder record lineNumber state = .ok state') :
    ∃ result : Except PromptTooLongError SimulationRequest,
      resolver.freshRequest sha256 services record = result.mapError .promptTooLong := by
  have hresult : ∃ result, rejectTooLong (resolver.freshRequest sha256 services record) =
      .ok result := by
    unfold freshRow at h
    cases hsorted : builder.requireSortedTrace with
    | false =>
      simp only [hsorted, Bool.false_eq_true, ↓reduceIte] at h
      obtain ⟨result, hresult, -⟩ := except_bind_ok.mp h
      exact ⟨result, hresult⟩
    | true =>
      simp only [hsorted, ↓reduceIte] at h
      obtain ⟨u, -, h⟩ := except_bind_ok.mp h
      obtain ⟨result, hresult, -⟩ := except_bind_ok.mp h
      exact ⟨result, hresult⟩
  obtain ⟨result, hresult⟩ := hresult
  exact ⟨result, reject_too_long_ok.mp hresult⟩

theorem fresh_rows_ok {lineNumber : ℕ} {state state' : BuildState}
    (h : resolver.freshRows sha256 services text builder records lineNumber state = .ok state') :
    ∀ record ∈ records, ∃ result : Except PromptTooLongError SimulationRequest,
      resolver.freshRequest sha256 services record = result.mapError .promptTooLong := by
  induction records generalizing lineNumber state with
  | nil => simp
  | cons record records ih =>
    obtain ⟨next, hrow, hrows⟩ := except_bind_ok.mp h
    exact List.forall_mem_cons.mpr ⟨fresh_row_ok hrow, ih hrows⟩

/-- Where they do, the build is the one that is given these requests. -/
theorem fresh_row_eq
    (hfresh : resolver.freshRequest sha256 services record =
      (buildRequest record).mapError .promptTooLong) (lineNumber : ℕ) (state : BuildState) :
    resolver.freshRow sha256 services text builder record lineNumber state =
      (builder.buildRecord sha256 text buildRequest record lineNumber state).mapError .build := by
  have hresult := reject_too_long_ok.mpr hfresh
  rw [build_record_eq]
  unfold freshRow
  rw [hresult]
  cases hsorted : builder.requireSortedTrace with
  | false => rfl
  | true =>
    simp only [↓reduceIte]
    rw [map_error_bind]
    rfl

theorem fresh_rows_eq
    (hfresh : ∀ record ∈ records, resolver.freshRequest sha256 services record =
      (buildRequest record).mapError .promptTooLong) (lineNumber : ℕ) (state : BuildState) :
    resolver.freshRows sha256 services text builder records lineNumber state =
      (builder.buildRecords sha256 text buildRequest records lineNumber state).mapError .build := by
  induction records generalizing lineNumber state with
  | nil => rfl
  | cons record records ih =>
    obtain ⟨hrecord, hrecords⟩ := List.forall_mem_cons.mp hfresh
    unfold freshRows StreamingRequestShardBuilder.buildRecords
    rw [map_error_bind, fresh_row_eq hrecord]
    exact congrArg _ (funext fun state ↦ ih hrecords _ state)

/-- The loop of `build`, and what comes after it. -/
theorem build_eq (records : List TraceRecord) (disk : Disk) :
    builder.build sha256 text buildRequest records disk =
      builder.buildRecords sha256 text buildRequest records 2
        { shardStore := { shardRoot := builder.shardRoot, disk } } >>= finishBuild builder := rfl

theorem fresh_build_ok_iff {disk : Disk} {built : StreamingBuildResult × Disk} :
    resolver.freshBuild sha256 services text builder records disk = .ok built ↔
      ∃ buildRequest : TraceRecord → Except PromptTooLongError SimulationRequest,
        (∀ record ∈ records, resolver.freshRequest sha256 services record =
          (buildRequest record).mapError .promptTooLong) ∧
        builder.build sha256 text buildRequest records disk = .ok built := by
  have heq : ∀ buildRequest : TraceRecord → Except PromptTooLongError SimulationRequest,
      (∀ record ∈ records, resolver.freshRequest sha256 services record =
        (buildRequest record).mapError .promptTooLong) →
      resolver.freshBuild sha256 services text builder records disk =
        (builder.build sha256 text buildRequest records disk).mapError .build := by
    intro buildRequest hfresh
    rw [build_eq, map_error_bind, freshBuild, fresh_rows_eq hfresh]
  constructor
  · intro h
    obtain ⟨state, hrows, -⟩ := except_bind_ok.mp h
    have hresults := fresh_rows_ok hrows
    have : Nonempty (Except PromptTooLongError SimulationRequest) := ⟨.error ⟨"", "", 0, 0⟩⟩
    choose! buildRequest hfresh using hresults
    rw [heq buildRequest hfresh] at h
    exact ⟨buildRequest, hfresh, except_map_error_ok.mp h⟩
  · rintro ⟨buildRequest, hfresh, hbuilt⟩
    rw [heq buildRequest hfresh, hbuilt]
    rfl

section Rows

variable {error : PromptTooLongError} {request : SimulationRequest}

theorem deployment_max_model_len_plain (startupArgs : List (String × Json)) (keys : List String) :
    NeverTooLong (deploymentMaxModelLen startupArgs keys) := by
  induction keys with
  | nil => exact .ok _
  | cons key keys ih =>
    intro error h
    unfold deploymentMaxModelLen at h
    split at h
    · exact ih error h
    · split_ifs at h
      cases h
    · cases h

theorem make_context_plain (resolver : StreamingRequestBuildResolver)
    (profile : ResolvedModelRuntimeProfile) : NeverTooLong (resolver.makeContext profile) := by
  refine (NeverTooLong.mapError _ (by intro e error h; cases h)).bind fun _ ↦ ?_
  refine (NeverTooLong.mapError _ (by intro e error h; cases h)).bind fun resolution ↦ ?_
  intro error h
  split at h
  · cases h
  · obtain ⟨limit, -, h⟩ :=
      ((deployment_max_model_len_plain _ _).bind fun _ ↦ .ok _ : NeverTooLong
        (resolveMaxPromptTokens _ _ _)).of_bind h
    cases h

theorem fresh_inputs_plain (resolver : StreamingRequestBuildResolver) (record : TraceRecord) :
    NeverTooLong (resolver.freshInputs record) := by
  unfold freshInputs
  split
  · exact .ok _
  · exact (NeverTooLong.mapError _ (by intro e error h; cases h)).bind fun profile ↦
      (make_context_plain resolver profile).bind fun _ ↦ .ok _

theorem fresh_request_built (hdigest : ∀ bytes, sha256 bytes ≠ [])
    (hnamed : ∀ profile ∈ resolver.settings.tokenizerRegistry.profiles, profile.profile ≠ "")
    (h : resolver.freshRequest sha256 services record = .ok request) :
    ∃ inputs, resolver.freshInputs record = .ok inputs ∧
      ∃ profile ∈ resolver.settings.tokenizerRegistry.profiles,
        request.BuiltIn inputs.buildContext profile record := by
  obtain ⟨inputs, hinputs, h⟩ := except_bind_ok.mp h
  exact ⟨inputs, hinputs, build_simulation_request_built hdigest hnamed h⟩

theorem fresh_request_too_long
    (h : resolver.freshRequest sha256 services record = .error (.promptTooLong error)) :
    ∃ inputs, resolver.freshInputs record = .ok inputs ∧
      inputs.buildContext.maxPromptTokens = some error.maxPromptTokens ∧
      error.maxPromptTokens < error.promptTokens := by
  obtain ⟨inputs, hinputs, h⟩ := (fresh_inputs_plain resolver record).of_bind h
  exact ⟨inputs, hinputs, build_simulation_request_too_long h⟩

theorem fresh_request_yields (hdigest : ∀ bytes, sha256 bytes ≠ [])
    (hnamed : ∀ profile ∈ resolver.settings.tokenizerRegistry.profiles, profile.profile ≠ "")
    {result : Except PromptTooLongError SimulationRequest}
    (h : resolver.freshRequest sha256 services record = result.mapError .promptTooLong) :
    ∃ inputs, resolver.freshInputs record = .ok inputs ∧
      inputs.Yields resolver.settings.tokenizerRegistry record result := by
  cases result with
  | ok request => exact fresh_request_built hdigest hnamed h
  | error error => exact fresh_request_too_long h

end Rows

/-- The contexts that a streaming build keeps do not show: it has the outcome of a build that
makes the context of every row anew, exceptions included. That build returns if and only if each
row has a request or a prompt that is too long, and the shards of these requests can be built. -/
theorem streaming_build_resolves (resolver : StreamingRequestBuildResolver)
    (sha256 : List UInt8 → List UInt8) (services : TokenizerServices) (text : JsonText)
    (builder : StreamingRequestShardBuilder) (records : List TraceRecord) (disk : Disk) :
    outcome (resolver.build sha256 services text builder records disk ∅) =
        resolver.freshBuild sha256 services text builder records disk ∧
      ∀ built, resolver.freshBuild sha256 services text builder records disk = .ok built ↔
        ∃ buildRequest : TraceRecord → Except PromptTooLongError SimulationRequest,
          (∀ record ∈ records, resolver.freshRequest sha256 services record =
            (buildRequest record).mapError .promptTooLong) ∧
          builder.build sha256 text buildRequest records disk = .ok built :=
  ⟨(build_resolves resolver records disk ∅ (recalls_empty _)).1, fun _ ↦ fresh_build_ok_iff⟩

end StreamingRequestBuildResolver

end InferTwin
