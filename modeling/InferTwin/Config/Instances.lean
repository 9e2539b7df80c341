import InferTwin.Config.Parsers

namespace InferTwin

open Config

/-- Deployment assignment for one fixed-routed instance. -/
structure InstanceDeployment where
  instanceUuid : String
  deployment : NonBlank
  modelName : Option NonBlank := none
  latencyProfile : Option NonBlank := none
  deriving DecidableEq

/-- Token-linear fitted TTFT hyperparameters. The parser lets one function through only. -/
structure FittedTTFTProfile where
  profile : NonBlank
  function : String
  interceptMs : ℚ≥0
  msPerUncachedToken : ℚ≥0
  calibratedFrom : NonBlank
  calibrationWindowRequests : ℕ+ := 500
  function_eq : function = "token_linear_v1"
  deriving DecidableEq

/-- Latency backend configuration assigned to fixed-routed instances. -/
structure InstanceLatencyProfile where
  name : String
  backend : String
  modelName : NonBlank
  hardwareName : NonBlank
  fittedTtft : FittedTTFTProfile
  kvLoad : KVLoadLatencyProfile := {}
  name_nonblank : isBlank name = false
  backend_eq : backend = "fitted_ttft"
  /-- The KV-load section is one that its parser returned. -/
  kv_load_parsed : ∃ data fieldName, KVLoadLatencyProfile.fromMapping data fieldName = .ok kvLoad

/-- Mapping from trace instance UUIDs to deployment profiles. -/
structure InstanceProfile where
  name : NonBlank
  instances : List InstanceDeployment
  latencyProfiles : List InstanceLatencyProfile
  uuids_nodup : (instances.map InstanceDeployment.instanceUuid).Nodup
  names_nodup : (latencyProfiles.map InstanceLatencyProfile.name).Nodup
  profiles_exist : ∀ item ∈ instances, ∀ name ∈ item.latencyProfile,
    name.val ∈ latencyProfiles.map InstanceLatencyProfile.name

namespace InstanceProfile

variable (profile : InstanceProfile)

def instanceByUuid : Dict String InstanceDeployment :=
  Dict.byKey InstanceDeployment.instanceUuid profile.instances

def latencyProfileByName : Dict String InstanceLatencyProfile :=
  Dict.byKey InstanceLatencyProfile.name profile.latencyProfiles

/-- `latency_profile_by_instance`: the instances that name a latency profile, with it. -/
def latencyProfileByInstance : Dict String InstanceLatencyProfile :=
  Dict.ofPairs (profile.instances.filterMap fun item ↦
    -- the name exists, as the parser has checked
    (item.latencyProfile.bind fun name ↦ profile.latencyProfileByName.lookup name.val).map
      fun latencyProfile ↦ (item.instanceUuid, latencyProfile))

end InstanceProfile

section Parsers

variable (data : Json) (fieldName : String)

def FittedTTFTProfile.fromMapping : Except ConfigError FittedTTFTProfile := do
  let mapping ← mappingOf data fieldName
  let function ← requiredStr mapping "function" fieldName
  if h : function.val = "token_linear_v1" then
    return {
      profile := ← requiredStr mapping "profile" fieldName
      function
      interceptMs := ← nonNegativeNumber (getOrNull mapping "intercept_ms")
        (fieldName ++ ".intercept_ms")
      msPerUncachedToken := ← nonNegativeNumber (getOrNull mapping "ms_per_uncached_token")
        (fieldName ++ ".ms_per_uncached_token")
      calibratedFrom := ← requiredStr mapping "calibrated_from" fieldName
      calibrationWindowRequests := ← positiveInt
        (getOr mapping "calibration_window_requests" (.int 500))
        (fieldName ++ ".calibration_window_requests")
      function_eq := h }
  else throw (.onlySupports (fieldName ++ ".function") "token_linear_v1")

/-- `KVLoadLatencyProfile.from_mapping`, with what it was read from. -/
def kvLoadOf : Except ConfigError {kvLoad : KVLoadLatencyProfile //
    ∃ data fieldName, KVLoadLatencyProfile.fromMapping data fieldName = .ok kvLoad} :=
  match h : KVLoadLatencyProfile.fromMapping data fieldName with
  | .ok kvLoad => .ok ⟨kvLoad, data, fieldName, h⟩
  | .error error => .error (.profile error)

def InstanceLatencyProfile.fromMapping (profileName : NonBlank) :
    Except ConfigError {profile : InstanceLatencyProfile // profile.name = profileName} := do
  let mapping ← mappingOf data fieldName
  let backend ← requiredStr mapping "backend" fieldName
  if h : backend.val = "fitted_ttft" then
    let name ← optionalStr (getOrNull mapping "name") (fieldName ++ ".name")
    if (name.getD profileName).val ≠ profileName.val then
      throw (.nameMismatch fieldName profileName)
    let modelName ← requiredStr mapping "model_name" fieldName
    let hardwareName ← requiredStr mapping "hardware_name" fieldName
    let fittedTtft ← FittedTTFTProfile.fromMapping (getOrNull mapping "fitted_ttft")
      (fieldName ++ ".fitted_ttft")
    let kvLoad ← kvLoadOf (getOrNull mapping "kv_load") (fieldName ++ ".kv_load")
    return ⟨{
      name := profileName
      backend
      modelName
      hardwareName
      fittedTtft
      kvLoad := kvLoad.val
      name_nonblank := profileName.property
      backend_eq := h
      kv_load_parsed := kvLoad.property }, rfl⟩
  else throw (.onlySupports (fieldName ++ ".backend") "fitted_ttft")

/-- `_parse_latency_profiles`, for one profile. -/
def parseLatencyProfile (profileName : String) (value : Json) : Except ConfigError
    {profile : InstanceLatencyProfile // profile.name = profileName ∧ True} := do
  if h : isBlank profileName = false then
    let profile ← InstanceLatencyProfile.fromMapping value (fieldName ++ "." ++ profileName)
      ⟨profileName, h⟩
    return ⟨profile.val, profile.property, trivial⟩
  else throw (.profile (.nonEmptyString (fieldName ++ ".key")))

def parseInstanceDeployment (latencyProfileNames : List String) (instanceUuid : String)
    (value : Json) : Except ConfigError {item : InstanceDeployment //
      item.instanceUuid = instanceUuid ∧ ∀ name ∈ item.latencyProfile,
        name.val ∈ latencyProfileNames} := do
  let _ ← nonBlank (.str instanceUuid) "instances.items key"
  let fieldName := "instances.items." ++ instanceUuid
  let mapping ← mappingOf value fieldName
  let latencyProfile ← optionalStr (getOrNull mapping "latency_profile")
    (fieldName ++ ".latency_profile")
  if h : ∀ name ∈ latencyProfile, name.val ∈ latencyProfileNames then
    let deployment ← requiredStr mapping "deployment" fieldName
    let modelName ← optionalStr (getOrNull mapping "model_name") (fieldName ++ ".model_name")
    return ⟨{ instanceUuid, deployment, modelName, latencyProfile }, rfl, h⟩
  else throw (.unknownLatencyProfile fieldName ((latencyProfile.map Subtype.val).getD ""))

def InstanceProfile.fromMapping : Except ConfigError InstanceProfile := do
  let mapping ← sectionOf data "instances"
  let rawProfiles ← optionalMappingOf (getOr mapping "latency_profiles" (.object []))
  let latencyProfiles ← parseItems InstanceLatencyProfile.name
    (parseLatencyProfile "instances.latency_profiles") (sortedItems rawProfiles)
  let rawInstances ← optionalMappingOf
    (getOr mapping "items" (getOr mapping "instances" (.object [])))
  let instances ← parseItems InstanceDeployment.instanceUuid
    (parseInstanceDeployment (latencyProfiles.val.map InstanceLatencyProfile.name))
    (sortedItems rawInstances)
  let name ← requiredStr mapping "name" "instances"
  return {
    name
    instances := instances.val
    latencyProfiles := latencyProfiles.val
    uuids_nodup := by
      rw [instances.property.1]
      exact sorted_items_nodup rawInstances
    names_nodup := by
      rw [latencyProfiles.property.1]
      exact sorted_items_nodup rawProfiles
    profiles_exist := instances.property.2 }

end Parsers

end InferTwin
