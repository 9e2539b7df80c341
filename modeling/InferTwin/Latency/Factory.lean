import InferTwin.Config.Parsers
import InferTwin.Latency.Attribution

namespace InferTwin

open Config

/-- `FittedTTFTLatencyBackend(...)`, with its checks. -/
def FittedTTFTLatencyBackend.build (profile function : String)
    (interceptMs msPerUncachedToken : ℚ) (calibratedFrom modelName hardwareName : String) :
    Except ConfigError FittedTTFTLatencyBackend :=
  if function ≠ "token_linear_v1" then
    .error (.onlySupports "FittedTTFTLatencyBackend" "token_linear_v1")
  else if hintercept : interceptMs < 0 then .error (.negative "intercept_ms")
  else if hslope : msPerUncachedToken < 0 then .error (.negative "ms_per_uncached_token")
  else if modelName = "" then .error (.empty "model_name")
  else if hardwareName = "" then .error (.empty "hardware_name")
  else if profile = "" then .error (.empty "profile")
  else .ok {
    interceptMs
    msPerUncachedToken
    modelName
    hardwareName
    profile
    function
    calibratedFrom
    intercept_nonneg := nonneg_of_not_neg hintercept
    slope_nonneg := nonneg_of_not_neg hslope }

/-- `ServingLatencyProfile(...)` with the default queue, and its checks. -/
def ServingLatencyProfile.build (profile : String) (ttftBackend : BatchLatencyBackend)
    (kvLoadComponent : IterationLatencyComponent) (calibratedFrom : String)
    (calibrationWindowRequests : ℤ) : Except ConfigError ServingLatencyProfile :=
  if profile = "" then .error (.empty "profile")
  else if calibratedFrom = "" then .error (.empty "calibrated_from")
  else if calibrationWindowRequests ≤ 0 then
    .error (.notPositive "calibration_window_requests")
  else .ok {
    profile
    ttftBackend
    kvLoadComponent
    calibratedFrom
    calibrationWindowRequests := calibrationWindowRequests.toNat }

def FormulaLatencyBackend.build (iterationFixedOverheadMs iterationPrefillTokenMs
    iterationBatchOverheadMs iterationContextTokenMs : ℚ) (modelName hardwareName : String) :
    Except ConfigError FormulaLatencyBackend :=
  if hfixed : iterationFixedOverheadMs < 0 then .error (.negative "iteration_fixed_overhead_ms")
  else if hprefill : iterationPrefillTokenMs < 0 then
    .error (.negative "iteration_prefill_token_ms")
  else if hbatch : iterationBatchOverheadMs < 0 then
    .error (.negative "iteration_batch_overhead_ms")
  else if hcontext : iterationContextTokenMs < 0 then
    .error (.negative "iteration_context_token_ms")
  else .ok {
    iterationFixedOverheadMs
    iterationPrefillTokenMs
    iterationBatchOverheadMs
    iterationContextTokenMs
    modelName
    hardwareName
    fixed_nonneg := nonneg_of_not_neg hfixed
    prefill_nonneg := nonneg_of_not_neg hprefill
    batch_nonneg := nonneg_of_not_neg hbatch
    context_nonneg := nonneg_of_not_neg hcontext }

namespace LatencyFactory

section Readers

variable (config : List (String × Json)) (key : String)

def mapping : Except ConfigError (List (String × Json)) :=
  match getOrNull config key with
  | .object fields => .ok fields
  | _ => .error (.mappingRequired (key ++ " config"))

/-- The text of a key, which may be blank but not empty. -/
def requiredStr : Except ConfigError String :=
  match getOrNull config key with
  | .str text => if text = "" then .error (.profile (.nonEmptyString key)) else .ok text
  | _ => .error (.profile (.nonEmptyString key))

def requiredFloat : Except ConfigError ℚ :=
  match getOrNull config key with
  | .int number => .ok number
  | .float number => .ok number
  | _ => .error (.number key)

def optionalStr (default : String) : Except ConfigError String :=
  match getOr config key (.str default) with
  | .str text => if text = "" then .error (.profile (.nonEmptyString key)) else .ok text
  | _ => .error (.profile (.nonEmptyString key))

def optionalInt (default : ℤ) : Except ConfigError ℤ :=
  match getOr config key (.int default) with
  | .int number => .ok number
  | _ => .error (.integer key)

end Readers

def buildFittedTtftBackend (fittedConfig : List (String × Json))
    (modelName hardwareName : String) : Except ConfigError FittedTTFTLatencyBackend := do
  let profile ← requiredStr fittedConfig "profile"
  let function ← requiredStr fittedConfig "function"
  let interceptMs ← requiredFloat fittedConfig "intercept_ms"
  let msPerUncachedToken ← requiredFloat fittedConfig "ms_per_uncached_token"
  let calibratedFrom ← requiredStr fittedConfig "calibrated_from"
  FittedTTFTLatencyBackend.build profile function interceptMs msPerUncachedToken calibratedFrom
    modelName hardwareName

/-- `KVLoadLatencyProfile.from_mapping` followed by `build_kv_load_component`. -/
def buildKvLoad (data : Json) (fieldName : String) :
    Except ConfigError IterationLatencyComponent := do
  let profile ← (KVLoadLatencyProfile.fromMapping data fieldName).mapError .profile
  (buildKvLoadComponent profile).mapError .kvLoad

end LatencyFactory

open LatencyFactory

/-- The `serving_latency_profile` branch of `build_batch_latency_backend`. -/
def buildServingBackend (latencyConfig : List (String × Json)) (modelName hardwareName : String) :
    Except ConfigError ServingLatencyProfile := do
  let profileConfig ← mapping latencyConfig "serving_latency_profile"
  let ttftBackendName ← optionalStr profileConfig "ttft_backend" "fitted_ttft"
  if ttftBackendName ≠ "fitted_ttft" then
    .error (.onlySupports "serving_latency_profile.ttft_backend" "fitted_ttft")
  else do
    let fittedConfig ← mapping latencyConfig "fitted_ttft"
    let profile ← requiredStr profileConfig "profile"
    let calibratedFrom ← optionalStr profileConfig "calibrated_from" "manual_default"
    let calibrationWindowRequests ← optionalInt profileConfig "calibration_window_requests" 500
    let ttftBackend ← buildFittedTtftBackend fittedConfig modelName hardwareName
    let kvLoadComponent ← buildKvLoad (getOrNull profileConfig "kv_load")
      "latency.serving_latency_profile.kv_load"
    ServingLatencyProfile.build profile ttftBackend.toBackend kvLoadComponent calibratedFrom
      calibrationWindowRequests

/-- The `formula` branch of `build_batch_latency_backend`. -/
def buildFormulaBackend (latencyConfig : List (String × Json)) (modelName hardwareName : String) :
    Except ConfigError FormulaLatencyBackend := do
  let formulaConfig ← mapping latencyConfig "formula"
  let fixedOverheadMs ← requiredFloat formulaConfig "iteration_fixed_overhead_ms"
  let prefillTokenMs ← requiredFloat formulaConfig "iteration_prefill_token_ms"
  let batchOverheadMs ← requiredFloat formulaConfig "iteration_batch_overhead_ms"
  let contextTokenMs ← requiredFloat formulaConfig "iteration_context_token_ms"
  FormulaLatencyBackend.build fixedOverheadMs prefillTokenMs batchOverheadMs contextTokenMs
    modelName hardwareName

/-- Build a batch latency backend from the documented latency config. -/
def buildBatchLatencyBackend (config : List (String × Json)) :
    Except ConfigError BatchLatencyBackend := do
  let latencyConfig ← mapping config "latency"
  let backendName ← requiredStr latencyConfig "backend"
  let modelName ← requiredStr latencyConfig "model_name"
  let hardwareName ← requiredStr latencyConfig "hardware_name"
  if backendName = "fitted_ttft" then do
    let fittedConfig ← mapping latencyConfig "fitted_ttft"
    let backend ← buildFittedTtftBackend fittedConfig modelName hardwareName
    return backend.toBackend
  else if backendName = "serving_latency_profile" then do
    let backend ← buildServingBackend latencyConfig modelName hardwareName
    return backend.toBackend
  else if backendName = "formula" then do
    let backend ← buildFormulaBackend latencyConfig modelName hardwareName
    return backend.toBackend
  else .error (.unsupported "latency backend" backendName)

section Shipped

theorem build_kv_load_component_shipped {profile : KVLoadLatencyProfile}
    {component : IterationLatencyComponent} (h : buildKvLoadComponent profile = .ok component) :
    KvLoadComponent component := by
  unfold buildKvLoadComponent at h
  split_ifs at h
  cases hmode : profile.mode with
  | zero =>
    rw [hmode] at h
    obtain ⟨built, -, rfl⟩ := Effect.except_map_ok.mp h
    exact .zero_load built
  | tokenLinearV1 =>
    rw [hmode] at h
    obtain ⟨built, -, rfl⟩ := Effect.except_map_ok.mp h
    exact .token_linear built
  | byteLinearV1 =>
    rw [hmode] at h
    obtain ⟨built, -, rfl⟩ := Effect.except_map_ok.mp h
    exact .byte_linear built

theorem serving_profile_shipped {name calibratedFrom : String} {window : ℤ}
    {fitted : FittedTTFTLatencyBackend} {component : IterationLatencyComponent}
    (hcomponent : KvLoadComponent component) {profile : ServingLatencyProfile}
    (h : ServingLatencyProfile.build name fitted.toBackend component calibratedFrom window =
      .ok profile) : ServingBackend profile.toBackend := by
  unfold ServingLatencyProfile.build at h
  split_ifs at h
  cases h
  exact .profile _ (.fitted fitted) (.zero _) hcomponent

theorem build_serving_backend_shipped {latencyConfig : List (String × Json)}
    {modelName hardwareName : String} {profile : ServingLatencyProfile}
    (h : buildServingBackend latencyConfig modelName hardwareName = .ok profile) :
    ServingBackend profile.toBackend := by
  unfold buildServingBackend at h
  obtain ⟨profileConfig, -, h⟩ := Effect.except_bind_ok.mp h
  obtain ⟨ttftBackendName, -, h⟩ := Effect.except_bind_ok.mp h
  split_ifs at h
  obtain ⟨fittedConfig, -, h⟩ := Effect.except_bind_ok.mp h
  obtain ⟨name, -, h⟩ := Effect.except_bind_ok.mp h
  obtain ⟨calibratedFrom, -, h⟩ := Effect.except_bind_ok.mp h
  obtain ⟨window, -, h⟩ := Effect.except_bind_ok.mp h
  obtain ⟨fitted, -, h⟩ := Effect.except_bind_ok.mp h
  obtain ⟨component, hcomponent, h⟩ := Effect.except_bind_ok.mp h
  refine serving_profile_shipped ?_ h
  obtain ⟨kvLoad, -, hcomponent⟩ := Effect.except_bind_ok.mp hcomponent
  cases hbuilt : buildKvLoadComponent kvLoad with
  | error error =>
    rw [hbuilt] at hcomponent
    cases hcomponent
  | ok built =>
    rw [hbuilt] at hcomponent
    cases hcomponent
    exact build_kv_load_component_shipped hbuilt

/-- Every backend that a config can ask for is one of those the replay is proved for. -/
theorem build_batch_latency_backend_shipped {config : List (String × Json)}
    {backend : BatchLatencyBackend} (h : buildBatchLatencyBackend config = .ok backend) :
    ServingBackend backend := by
  unfold buildBatchLatencyBackend at h
  obtain ⟨latencyConfig, -, h⟩ := Effect.except_bind_ok.mp h
  obtain ⟨backendName, -, h⟩ := Effect.except_bind_ok.mp h
  obtain ⟨modelName, -, h⟩ := Effect.except_bind_ok.mp h
  obtain ⟨hardwareName, -, h⟩ := Effect.except_bind_ok.mp h
  split_ifs at h
  · obtain ⟨fittedConfig, -, h⟩ := Effect.except_bind_ok.mp h
    obtain ⟨fitted, -, h⟩ := Effect.except_bind_ok.mp h
    cases h
    exact .prefill (.fitted fitted)
  · obtain ⟨profile, hprofile, h⟩ := Effect.except_bind_ok.mp h
    cases h
    exact build_serving_backend_shipped hprofile
  · obtain ⟨formula, -, h⟩ := Effect.except_bind_ok.mp h
    cases h
    exact .prefill (.formula formula)

end Shipped

end InferTwin
