import InferTwin.Foundation.Json

namespace InferTwin

/-- The exceptions of the profile parsers. -/
inductive ProfileError
  | notMapping
  | nonNegativeNumber (fieldName : String)
  | nonEmptyString (fieldName : String)
  | notOneOf (fieldName : String) (allowed : List String)
  | modeRequired (fieldName : String)
  | zeroModeCoefficients (fieldName : String)
  | onlyByteLinear (fieldName : String)
  | onlyTokenLinear (fieldName : String)
  deriving DecidableEq, Repr

def ProfileError.message : ProfileError → String
  | notMapping => "value must be a mapping"
  | nonNegativeNumber field => field ++ " must be a non-negative number"
  | nonEmptyString field => field ++ " must be a non-empty string"
  | notOneOf field allowed => field ++ " must be one of: " ++ ", ".intercalate allowed
  | modeRequired field => field ++ ".mode is required when KV load coefficients are non-zero"
  | zeroModeCoefficients field => field ++ " mode=zero requires DDR coefficients to be zero"
  | onlyByteLinear field => field ++ ".ddr_ms_per_byte is only valid for byte_linear_v1"
  | onlyTokenLinear field =>
    field ++ ".ddr_ms_per_cached_token is only valid for token_linear_v1"

/-- `str.isspace` of one character. -/
def isSpace (c : Char) : Bool :=
  (9 ≤ c.toNat && c.toNat ≤ 13) || (28 ≤ c.toNat && c.toNat ≤ 32) || c.toNat == 0x85 ||
    c.toNat == 0xA0 || c.toNat == 0x1680 || (0x2000 ≤ c.toNat && c.toNat ≤ 0x200A) ||
    c.toNat == 0x2028 || c.toNat == 0x2029 || c.toNat == 0x202F || c.toNat == 0x205F ||
    c.toNat == 0x3000

/-- `not text.strip()`. -/
def isBlank (text : String) : Bool := text.toList.all isSpace

section Parsers

variable (value : Json) (fieldName : String)

def nonEmptyStr : Except ProfileError String :=
  match value with
  | .str text => if isBlank text then .error (.nonEmptyString fieldName) else .ok text
  | _ => .error (.nonEmptyString fieldName)

/-- An absent value and a null are the same. -/
def optionalText : Except ProfileError (Option String) :=
  match value with
  | .null => .ok none
  | _ => some <$> nonEmptyStr value fieldName

/-- One of a few allowed values, each with its text. -/
def literal {α : Type} (text : α → String) (allowed : List α) : Except ProfileError α := do
  let parsed ← nonEmptyStr value fieldName
  match allowed.find? fun option ↦ text option = parsed with
  | some option => .ok option
  | none => .error (.notOneOf fieldName (allowed.map text))

def nonNegativeFloat : Except ProfileError ℚ :=
  match value with
  | .int number => if number < 0 then .error (.nonNegativeNumber fieldName) else .ok number
  | .float number => if number < 0 then .error (.nonNegativeNumber fieldName) else .ok number
  | _ => .error (.nonNegativeNumber fieldName)

def optionalMapping : Except ProfileError (List (String × Json)) :=
  match value with
  | .object fields => .ok fields
  | _ => .error .notMapping

end Parsers

inductive KVLoadMode
  | zero | tokenLinearV1 | byteLinearV1
  deriving DecidableEq, Repr

def KVLoadMode.value : KVLoadMode → String
  | zero => "zero"
  | tokenLinearV1 => "token_linear_v1"
  | byteLinearV1 => "byte_linear_v1"

/-- KV load latency hyperparameters for non-HBM cache hits. -/
structure KVLoadLatencyProfile where
  mode : KVLoadMode := .zero
  aggregation : String := "shared_link_sum"
  overlapMode : String := "none_v1"
  transferPath : String := "local_ddr_cpu"
  ddrFixedOverheadMs : ℚ := 0
  ddrMsPerCachedToken : ℚ := 0
  ddrMsPerByte : ℚ := 0
  remoteMsPerCachedToken : ℚ := 0
  calibratedFrom : String := "manual_default"
  deriving DecidableEq, Repr

def parseKvLoadMode (value : Json) (fieldName : String) (hasNonzeroCoefficients : Bool) :
    Except ProfileError KVLoadMode :=
  match value with
  | .null => if hasNonzeroCoefficients then .error (.modeRequired fieldName) else .ok .zero
  | _ => literal value (fieldName ++ ".mode") KVLoadMode.value [.zero, .tokenLinearV1, .byteLinearV1]

def validateKvLoadCoefficients (mode : KVLoadMode) (fieldName : String)
    (ddrFixedOverheadMs ddrMsPerCachedToken ddrMsPerByte : ℚ) : Except ProfileError Unit :=
  if mode = .zero then
    if ddrFixedOverheadMs > 0 ∨ ddrMsPerCachedToken > 0 ∨ ddrMsPerByte > 0 then
      .error (.zeroModeCoefficients fieldName)
    else .ok ()
  else if mode = .tokenLinearV1 ∧ ddrMsPerByte > 0 then .error (.onlyByteLinear fieldName)
  else if mode = .byteLinearV1 ∧ ddrMsPerCachedToken > 0 then .error (.onlyTokenLinear fieldName)
  else .ok ()

def KVLoadLatencyProfile.fromMapping (data : Json) (fieldName : String) :
    Except ProfileError KVLoadLatencyProfile := do
  let mapping ← optionalMapping (match data with | .null => .object [] | _ => data)
  let coefficient (key : String) : Except ProfileError ℚ :=
    nonNegativeFloat ((Json.get mapping key).getD (.float 0)) (fieldName ++ "." ++ key)
  let ddrFixedOverheadMs ← coefficient "ddr_fixed_overhead_ms"
  let ddrMsPerCachedToken ← coefficient "ddr_ms_per_cached_token"
  let ddrMsPerByte ← coefficient "ddr_ms_per_byte"
  let remoteMsPerCachedToken ← coefficient "remote_ms_per_cached_token"
  let mode ← parseKvLoadMode ((Json.get mapping "mode").getD .null) fieldName
    (ddrFixedOverheadMs > 0 || ddrMsPerCachedToken > 0 || ddrMsPerByte > 0 ||
      remoteMsPerCachedToken > 0)
  let aggregation ← literal ((Json.get mapping "aggregation").getD (.str "shared_link_sum"))
    (fieldName ++ ".aggregation") id ["shared_link_sum"]
  let overlapMode ← literal ((Json.get mapping "overlap_mode").getD (.str "none_v1"))
    (fieldName ++ ".overlap_mode") id ["none_v1"]
  let transferPath ← optionalText ((Json.get mapping "transfer_path").getD .null)
    (fieldName ++ ".transfer_path")
  let calibratedFrom ← optionalText ((Json.get mapping "calibrated_from").getD .null)
    (fieldName ++ ".calibrated_from")
  validateKvLoadCoefficients mode fieldName ddrFixedOverheadMs ddrMsPerCachedToken ddrMsPerByte
  return {
    mode
    aggregation
    overlapMode
    transferPath := transferPath.getD "local_ddr_cpu"
    ddrFixedOverheadMs
    ddrMsPerCachedToken
    ddrMsPerByte
    remoteMsPerCachedToken
    calibratedFrom := calibratedFrom.getD "manual_default" }

end InferTwin
