import InferTwin.Foundation.Dict
import InferTwin.Foundation.Text
import InferTwin.Latency.KvLoad
import Mathlib.Data.NNRat.Defs
import Mathlib.Data.PNat.Basic

namespace InferTwin

/-- The exceptions of the parsers of registries, profiles and instance tables, and of the
checks between them. -/
inductive ConfigError
  | profile (error : ProfileError)
  | mappingRequired (fieldName : String)
  | sequenceRequired
  | stringSequenceRequired (fieldName : String)
  | boolean (fieldName : String)
  | positiveInteger (fieldName : String)
  | nonNegativeInteger (fieldName : String)
  | onlySupports (fieldName option : String)
  | nameMismatch (fieldName profileName : String)
  | unknownLatencyProfile (fieldName latencyProfile : String)
  | missingModel (modelName : String)
  | modelProfileMismatch (entryName profileName : String)
  | tokenizerMismatch (entryName entryProfile modelProfile : String)
  | defaultLatencyMismatch (entryName latencyModel : String)
  | kvTransferUnsupported (entryName deploymentName : String)
  | deploymentPoolingDisabled (entryName feature : String)
  | ddrCapacityRequired (fieldName : String)
  | mustBeTrue (fieldName : String)
  | notSupported (fieldName : String)
  | poolingFeatureMissing (entryName deploymentName : String)
  | modelNameRequired (instanceUuid purpose : String)
  | latencyModelMismatch (instanceUuid modelName profileName profileModel : String)
  | tableMissingModel (modelName : String)
  | emptyInstanceUuid
  | instanceMissing (kind instanceUuid : String)
  | fallbackReserved (instanceUuid : String)
  | unsupported (what option : String)
  | negative (fieldName : String)
  | empty (fieldName : String)
  | notPositive (fieldName : String)
  | stringRequired (fieldName : String)
  | pathRequired (fieldName : String)
  | unsortedTraceUnsupported
  | number (fieldName : String)
  | integer (fieldName : String)
  | requiredFor (fieldName purpose : String)
  | pathsDiffer
  | reserved (fieldName : String)
  | kvLoad (error : KVLoadError)
  | sweepMode (allowedModes : List String)
  | sweepTargets
  | integersRequired (fieldName collection : String)
  | onlyPositiveIntegers (fieldName : String)
  | duplicateCapacities
  | eventCapacities (required flag : String)
  | eventCapacitiesSubset
  | cacheModes (allowed : List String)
  | ddrDefaultsMissing (instanceUuid : String)
  | ddrRequires (what instanceUuid : String)
  | keyError (key : String)
  | external (text : String)
  deriving DecidableEq, Repr

namespace ConfigError

def message : ConfigError → String
  | profile error => error.message
  | mappingRequired field => field ++ " must be a mapping"
  | sequenceRequired => "value must be a sequence"
  | stringSequenceRequired field => field ++ " must be a sequence of strings"
  | boolean field => field ++ " must be a boolean"
  | positiveInteger field => field ++ " must be a positive integer"
  | nonNegativeInteger field => field ++ " must be a non-negative integer"
  | onlySupports field option => field ++ " only supports " ++ option
  | nameMismatch field profileName =>
    field ++ ".name must match latency profile key " ++ reprText profileName
  | unknownLatencyProfile field latencyProfile =>
    field ++ ".latency_profile references unknown latency profile " ++ reprText latencyProfile
  | missingModel modelName => "model registry missing model " ++ reprText modelName
  | modelProfileMismatch entry profileName =>
    "model registry entry " ++ reprText entry ++ " references model profile " ++
      reprText profileName
  | tokenizerMismatch entry entryProfile modelProfile =>
    "model registry entry " ++ reprText entry ++ " tokenizer_profile " ++ reprText entryProfile ++
      " does not match ModelProfile tokenizer_profile " ++ reprText modelProfile
  | defaultLatencyMismatch entry latencyModel =>
    "model registry entry " ++ reprText entry ++ " default latency model_name " ++
      reprText latencyModel ++ " is not accepted by ModelProfile"
  | kvTransferUnsupported entry deployment =>
    "model registry entry " ++ reprText entry ++ " references deployment profile " ++
      reprText deployment ++
      " with kv_transfer enabled; external KV transfer is not supported in Step7"
  | deploymentPoolingDisabled entry feature =>
    "model registry entry " ++ reprText entry ++ " enables deployment " ++ feature ++
      " but default_cache.pooling.enabled is false"
  | ddrCapacityRequired field =>
    field ++ ".ddr_capacity_blocks is required when default_cache.pooling.enabled is true"
  | mustBeTrue field => field ++ " must be true in Step7"
  | notSupported field => field ++ " is not supported in Step7"
  | poolingFeatureMissing entry deployment =>
    "model registry entry " ++ reprText entry ++
      " enables default_cache.pooling but deployment profile " ++ reprText deployment ++
      " has cache_features.pooling=false"
  | modelNameRequired instanceUuid purpose =>
    "instances.items." ++ instanceUuid ++ ".model_name is required " ++ purpose
  | latencyModelMismatch instanceUuid modelName profileName profileModel =>
    "instance latency profile model mismatch for " ++ reprText instanceUuid ++
      ": instance model " ++ reprText modelName ++ ", latency profile " ++
      reprText profileName ++ " model " ++ reprText profileModel
  | tableMissingModel modelName => "model runtime table missing model " ++ reprText modelName
  | emptyInstanceUuid => "instance_uuid must be a non-empty string"
  | instanceMissing kind instanceUuid =>
    "instance " ++ kind ++ " profile missing for " ++ reprText instanceUuid ++
      "; add it to the instance profile table"
  | fallbackReserved instanceUuid =>
    "instance latency profile missing for " ++ reprText instanceUuid ++
      "; require_all_trace_instances=false is reserved but fallback semantics are not implemented"
  | unsupported what option => "unsupported " ++ what ++ ": " ++ option
  | negative field => field ++ " must be non-negative"
  | empty field => field ++ " must be non-empty"
  | notPositive field => field ++ " must be positive"
  | stringRequired field => field ++ " must be a string"
  | pathRequired field => field ++ " must be a non-empty path string"
  | unsortedTraceUnsupported =>
    "streaming.require_sorted_trace=false is not supported in InferTwin V1; " ++
      "sort trace by (service_start_time, instance_uuid, request_id) or add a " ++
      "future shard-sort stage."
  | number field => field ++ " must be a number"
  | integer field => field ++ " must be an integer"
  | requiredFor field purpose => field ++ " is required" ++ purpose
  | pathsDiffer =>
    "instance_runtime.profile_path and instance_latency.profile_path must match " ++
      "when both are configured"
  | reserved field => field ++ " is reserved but not implemented"
  | kvLoad error => error.message
  | sweepMode allowedModes =>
    "capacity sweep requires simulation.mode in: " ++ ", ".intercalate allowedModes
  | sweepTargets =>
    "capacity_sweep does not support targets; use hbm_capacity_blocks sweep " ++
      "and inspect capacity_sweep.csv."
  | integersRequired field collection =>
    field ++ " must be " ++ collection ++ " of positive integers"
  | onlyPositiveIntegers field => field ++ " must contain only positive integers"
  | duplicateCapacities => "sweep.hbm_capacity_blocks must not contain duplicate capacities"
  | eventCapacities required flag =>
    "output.cache_event_capacities must be " ++ required ++ " when output.cache_events is " ++ flag
  | eventCapacitiesSubset =>
    "output.cache_event_capacities must be a subset of sweep.hbm_capacity_blocks"
  | cacheModes allowed =>
    "streaming replay cache.mode must be one of: " ++ ", ".intercalate allowed
  | ddrDefaultsMissing instanceUuid =>
    "cache.mode=batch_aware_hbm_ddr_lru requires model registry and " ++
      "instance runtime defaults for instance " ++ reprText instanceUuid
  | ddrRequires what instanceUuid =>
    "cache.mode=batch_aware_hbm_ddr_lru " ++ what ++ " for instance " ++ reprText instanceUuid
  | keyError key => reprText key
  | external text => text

end ConfigError

/-- A text with more than white space in it. -/
abbrev NonBlank := {text : String // isBlank text = false}

namespace Config

/-- `str(Path(text))`: empty components and dots are dropped. -/
def pathText (text : String) : String :=
  let root :=
    if text.startsWith "//" ∧ ¬text.startsWith "///" then "//"
    else if text.startsWith "/" then "/"
    else ""
  let parts := (text.splitOn "/").filter fun part ↦ part ≠ "" ∧ part ≠ "."
  if root = "" ∧ parts = [] then "." else root ++ "/".intercalate parts

/-- `if condition: raise error`. -/
def refuseIf (condition : Prop) [Decidable condition] (error : ConfigError) :
    Except ConfigError Unit :=
  if condition then .error error else .ok ()

theorem refuse_if_ok {condition : Prop} [Decidable condition] {error : ConfigError} {u : Unit} :
    refuseIf condition error = .ok u ↔ ¬condition := by
  unfold refuseIf
  split_ifs with h <;> simp [h]

/-- The items of a mapping, in the order of their keys. -/
def sortedItems (mapping : List (String × Json)) : List (String × Json) :=
  (Dict.inOrder (mapping.map Prod.fst).toFinset).filterMap fun key ↦
    (Json.get mapping key).map fun value ↦ (key, value)

section Readers

variable (value : Json) (fieldName : String)

def mappingOf : Except ConfigError (List (String × Json)) :=
  match value with
  | .object fields => .ok fields
  | _ => .error (.mappingRequired fieldName)

/-- `mapping.get(key, default)`. -/
def getOr (mapping : List (String × Json)) (key : String) (value : Json) : Json :=
  (Json.get mapping key).getD value

/-- `mapping.get(key)`, null where there is none. -/
def getOrNull (mapping : List (String × Json)) (key : String) : Json := getOr mapping key .null

/-- `_optional_mapping`, of the typed profiles. -/
def optionalMappingOf : Except ConfigError (List (String × Json)) :=
  (optionalMapping value).mapError .profile

/-- `value or {}`, as a mapping. -/
def optionalSection : Except ConfigError (List (String × Json)) :=
  match value with
  | .null | .bool false | .int 0 | .float 0 | .str "" | .list [] => .ok []
  | _ => optionalMappingOf value

/-- `_section`: the named section of a document, or the document itself. -/
def sectionOf (sectionName : String) : Except ConfigError (List (String × Json)) := do
  let mapping ← mappingOf value sectionName
  match Json.get mapping sectionName with
  | some inner => mappingOf inner sectionName
  | none => return mapping

def requiredMapping (mapping : List (String × Json)) (key fieldName : String) :
    Except ConfigError (List (String × Json)) :=
  match Json.get mapping key with
  | none => .error (.requiredFor (fieldName ++ "." ++ key) "")
  | some value => mappingOf value (fieldName ++ "." ++ key)

def nonBlank : Except ConfigError NonBlank :=
  match value with
  | .str text =>
    if h : isBlank text = false then .ok ⟨text, h⟩
    else .error (.profile (.nonEmptyString fieldName))
  | _ => .error (.profile (.nonEmptyString fieldName))

def requiredStr (mapping : List (String × Json)) (key fieldName : String) :
    Except ConfigError NonBlank :=
  match Json.get mapping key with
  | none => .error (.requiredFor (fieldName ++ "." ++ key) "")
  | some value => nonBlank value (fieldName ++ "." ++ key)

/-- An absent value and a null are the same. -/
def optionalStr : Except ConfigError (Option NonBlank) :=
  match value with
  | .null => .ok none
  | _ => some <$> nonBlank value fieldName

def booleanOf : Except ConfigError Bool :=
  match value with
  | .bool flag => .ok flag
  | _ => .error (.boolean fieldName)

def positiveInt : Except ConfigError ℕ+ :=
  match value with
  | .int number =>
    if h : 0 < number then .ok ⟨number.toNat, Int.pos_iff_toNat_pos.mp h⟩
    else .error (.positiveInteger fieldName)
  | _ => .error (.positiveInteger fieldName)

def optionalPositiveInt : Except ConfigError (Option ℕ+) :=
  match value with
  | .null => .ok none
  | _ => some <$> positiveInt value fieldName

def nonNegativeInt : Except ConfigError ℕ :=
  match value with
  | .int number =>
    if number < 0 then .error (.nonNegativeInteger fieldName) else .ok number.toNat
  | _ => .error (.nonNegativeInteger fieldName)

def nonNegativeNumber : Except ConfigError ℚ≥0 :=
  let checked (number : ℚ) : Except ConfigError ℚ≥0 :=
    if h : number < 0 then .error (.profile (.nonNegativeNumber fieldName))
    else .ok ⟨number, nonneg_of_not_neg h⟩
  match value with
  | .int number => checked number
  | .float number => checked number
  | _ => .error (.profile (.nonNegativeNumber fieldName))

/-- A sequence of texts; null is the empty one. -/
def strTuple : Except ConfigError (List NonBlank) :=
  match value with
  | .null => .ok []
  | .list items => items.mapM fun item ↦ nonBlank item (fieldName ++ "[]")
  | _ => .error (.stringSequenceRequired fieldName)

end Readers

section Tables

variable {α : Type} (keyOf : α → String)

/-- Parse the items of a mapping one after the other, each under its key. -/
def parseItems {P : α → Prop}
    (parse : ∀ key : String, Json → Except ConfigError {item : α // keyOf item = key ∧ P item}) :
    ∀ items : List (String × Json), Except ConfigError
      {parsed : List α // parsed.map keyOf = items.map Prod.fst ∧ ∀ item ∈ parsed, P item}
  | [] => .ok ⟨[], rfl, nofun⟩
  | (key, value) :: items => do
    let item ← parse key value
    let rest ← parseItems parse items
    return ⟨item.val :: rest.val, congrArg₂ List.cons item.property.1 rest.property.1,
      List.forall_mem_cons.mpr ⟨item.property.2, rest.property.2⟩⟩

theorem sorted_items_nodup (mapping : List (String × Json)) :
    ((sortedItems mapping).map Prod.fst).Nodup := by
  have hkeys : ((sortedItems mapping).map Prod.fst).Sublist
      (Dict.inOrder (mapping.map Prod.fst).toFinset) := by
    unfold sortedItems
    generalize Dict.inOrder (mapping.map Prod.fst).toFinset = keys
    induction keys with
    | nil => exact .slnil
    | cons key keys ih =>
      cases hget : Json.get mapping key with
      | none =>
        rw [List.filterMap_cons_none (by rw [hget]; rfl)]
        exact ih.cons key
      | some value =>
        rw [List.filterMap_cons_some (by rw [hget]; rfl)]
        exact ih.cons_cons key
  exact (Dict.inOrder_nodup _).sublist hkeys

end Tables

end Config

end InferTwin
