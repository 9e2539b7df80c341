import InferTwin.Foundation.Json
import Mathlib.Tactic.Linarith

namespace InferTwin

def CALIBRATION_EPSILON : ℚ := 1 / 10 ^ 12

/-- The exceptions of the calibration helpers. -/
inductive CalibrationError
  | noObservations
  | mixed (fieldName : String)
  | emptyString (fieldName : String)
  | noPositive (fieldName : String)
  | lengthMismatch
  | noXValues
  | equalXValues
  | zeroXValues
  | negativeOverhead
  | negativeSlope
  deriving DecidableEq, Repr

def CalibrationError.message : CalibrationError → String
  | noObservations => "observations must be non-empty"
  | mixed field => "all observations must share the same " ++ field
  | emptyString field => field ++ " must be a non-empty string"
  | noPositive field => "at least one observation must have positive " ++ field
  | lengthMismatch => "x_values and y_values must have the same length"
  | noXValues => "x_values must be non-empty"
  | equalXValues => "cannot fit slope when all calibration x values are equal"
  | zeroXValues => "cannot fit slope when all calibration x values are zero"
  | negativeOverhead => "fitted fixed overhead is negative"
  | negativeSlope => "fitted slope is negative"

/-- One offline KV-load latency observation, with the checks made when the source builds it. -/
structure KVLoadCalibrationObservation where
  source : String
  modelName : String
  hardwareName : String
  transferPath : String
  kvLoadTokens : ℕ
  kvLoadBytes : ℕ
  kvLoadRequestCount : ℕ
  batchSize : ℕ
  durationMs : ℚ
  note : String := ""
  source_nonempty : source ≠ ""
  model_nonempty : modelName ≠ ""
  hardware_nonempty : hardwareName ≠ ""
  path_nonempty : transferPath ≠ ""
  batch_pos : 0 < batchSize
  duration_nonneg : 0 ≤ durationMs

inductive CalibrationMode
  | tokenLinearV1 | byteLinearV1
  deriving DecidableEq, Repr

def CalibrationMode.value : CalibrationMode → String
  | tokenLinearV1 => "token_linear_v1"
  | byteLinearV1 => "byte_linear_v1"

/-- Fitted KV-load profile parameters for one mode. -/
structure KVLoadCalibrationFit where
  mode : CalibrationMode
  transferPath : String
  ddrFixedOverheadMs : ℚ
  calibratedFrom : String
  sampleCount : ℕ
  aggregation : String := "shared_link_sum"
  overlapMode : String := "none_v1"
  ddrMsPerCachedToken : ℚ := 0
  ddrMsPerByte : ℚ := 0
  aggregation_only : aggregation = "shared_link_sum" := by rfl
  overlap_only : overlapMode = "none_v1" := by rfl
  path_nonempty : transferPath ≠ ""
  from_nonempty : calibratedFrom ≠ ""
  overhead_nonneg : 0 ≤ ddrFixedOverheadMs
  token_nonneg : 0 ≤ ddrMsPerCachedToken
  byte_nonneg : 0 ≤ ddrMsPerByte
  sample_pos : 0 < sampleCount
  token_only : mode = .tokenLinearV1 → ddrMsPerByte = 0
  byte_only : mode = .byteLinearV1 → ddrMsPerCachedToken = 0

/-- The line that a fit returns. -/
structure FittedLine where
  intercept : ℚ
  slope : ℚ
  intercept_nonneg : 0 ≤ intercept
  slope_nonneg : 0 ≤ slope

/-- The loop over the observations, all of which are to share three names with the first. -/
def requireShared (first : KVLoadCalibrationObservation) :
    List KVLoadCalibrationObservation → Except CalibrationError Unit
  | [] => .ok ()
  | item :: items =>
    if item.modelName ≠ first.modelName then .error (.mixed "model_name")
    else if item.hardwareName ≠ first.hardwareName then .error (.mixed "hardware_name")
    else if item.transferPath ≠ first.transferPath then .error (.mixed "transfer_path")
    else requireShared first items

/-- The first of the observations, which are not empty. -/
def normalizeObservations :
    List KVLoadCalibrationObservation → Except CalibrationError KVLoadCalibrationObservation
  | [] => .error .noObservations
  | first :: rest => do
    requireShared first (first :: rest)
    return first

def requireNonEmpty (value fieldName : String) :
    Except CalibrationError {text : String // text ≠ ""} :=
  if h : value = "" then .error (.emptyString fieldName) else .ok ⟨value, h⟩

def requireAnyPositive (values : List ℕ) (fieldName : String) : Except CalibrationError Unit :=
  if values.any (0 < ·) then .ok () else .error (.noPositive fieldName)

def validateFitResult (intercept slope : ℚ) : Except CalibrationError FittedLine :=
  if intercept < -CALIBRATION_EPSILON then .error .negativeOverhead
  else if slope < -CALIBRATION_EPSILON then .error .negativeSlope
  else .ok {
    intercept := max intercept 0
    slope := max slope 0
    intercept_nonneg := le_max_right _ _
    slope_nonneg := le_max_right _ _ }

section Fit

variable (xValues yValues : List ℚ)

def meanOf (values : List ℚ) : ℚ := values.sum / values.length

def denominatorWithIntercept : ℚ :=
  let meanX := meanOf xValues
  (xValues.map fun xValue ↦ (xValue - meanX) ^ 2).sum

/-- Intercept and slope, before they are validated. -/
def lineWithIntercept : ℚ × ℚ :=
  let meanX := meanOf xValues
  let meanY := meanOf yValues
  let numerator := (List.zipWith (fun xValue yValue ↦ (xValue - meanX) * (yValue - meanY))
    xValues yValues).sum
  let slope := numerator / denominatorWithIntercept xValues
  (meanY - slope * meanX, slope)

def fitWithIntercept : Except CalibrationError FittedLine :=
  if denominatorWithIntercept xValues ≤ CALIBRATION_EPSILON then .error .equalXValues
  else
    let (intercept, slope) := lineWithIntercept xValues yValues
    validateFitResult intercept slope

def denominatorThroughOrigin : ℚ := (xValues.map fun xValue ↦ xValue * xValue).sum

def lineThroughOrigin : ℚ × ℚ :=
  let numerator := (List.zipWith (fun xValue yValue ↦ xValue * yValue) xValues yValues).sum
  (0, numerator / denominatorThroughOrigin xValues)

def fitThroughOrigin : Except CalibrationError FittedLine :=
  if denominatorThroughOrigin xValues ≤ CALIBRATION_EPSILON then .error .zeroXValues
  else
    let (intercept, slope) := lineThroughOrigin xValues yValues
    validateFitResult intercept slope

def linearFit (fitIntercept : Bool) : Except CalibrationError FittedLine :=
  if xValues.length ≠ yValues.length then .error .lengthMismatch
  else if xValues = [] then .error .noXValues
  else if fitIntercept then fitWithIntercept xValues yValues
  else fitThroughOrigin xValues yValues

end Fit

/-- The coefficient that a mode leaves out. -/
theorem unset_nonneg : (0 : ℚ) ≤ 0 := le_rfl

namespace CalibrationMode

/-- What the latency of an observation is fitted against. -/
def amount : CalibrationMode → KVLoadCalibrationObservation → ℕ
  | tokenLinearV1 => KVLoadCalibrationObservation.kvLoadTokens
  | byteLinearV1 => KVLoadCalibrationObservation.kvLoadBytes

def amountField : CalibrationMode → String
  | tokenLinearV1 => "kv_load_tokens"
  | byteLinearV1 => "kv_load_bytes"

/-- The parameters of a mode for a fitted line. -/
def fitOfLine (mode : CalibrationMode) {transferPath calibratedFrom : String}
    (path_nonempty : transferPath ≠ "") (from_nonempty : calibratedFrom ≠ "")
    {sampleCount : ℕ} (sample_pos : 0 < sampleCount) (line : FittedLine) : KVLoadCalibrationFit :=
  match mode with
  | tokenLinearV1 => {
      mode := tokenLinearV1
      transferPath
      ddrFixedOverheadMs := line.intercept
      ddrMsPerCachedToken := line.slope
      calibratedFrom
      sampleCount
      path_nonempty
      from_nonempty
      overhead_nonneg := line.intercept_nonneg
      token_nonneg := line.slope_nonneg
      byte_nonneg := unset_nonneg
      sample_pos
      token_only := fun _ ↦ rfl
      byte_only := by simp }
  | byteLinearV1 => {
      mode := byteLinearV1
      transferPath
      ddrFixedOverheadMs := line.intercept
      ddrMsPerByte := line.slope
      calibratedFrom
      sampleCount
      path_nonempty
      from_nonempty
      overhead_nonneg := line.intercept_nonneg
      token_nonneg := unset_nonneg
      byte_nonneg := line.slope_nonneg
      sample_pos
      token_only := by simp
      byte_only := fun _ ↦ rfl }

end CalibrationMode

theorem normalize_length {observations : List KVLoadCalibrationObservation}
    {first : KVLoadCalibrationObservation} (h : normalizeObservations observations = .ok first) :
    0 < observations.length := by
  cases observations with
  | nil => cases h
  | cons item items => exact Nat.succ_pos _

/-- The two fitting functions differ in the amount that they fit and in the coefficient that
they set. -/
def fitLinearV1 (mode : CalibrationMode) (observations : List KVLoadCalibrationObservation)
    (calibratedFrom : String) (fitIntercept : Bool) :
    Except CalibrationError KVLoadCalibrationFit :=
  match hnormalized : normalizeObservations observations with
  | .error failure => .error failure
  | .ok first => do
    let calibratedText ← requireNonEmpty calibratedFrom "calibrated_from"
    requireAnyPositive (observations.map mode.amount) mode.amountField
    let line ← linearFit (observations.map fun item ↦ (mode.amount item : ℚ))
      (observations.map KVLoadCalibrationObservation.durationMs) fitIntercept
    return mode.fitOfLine first.path_nonempty calibratedText.property
      (normalize_length hnormalized) line

/-- Fit `duration_ms = overhead + tokens * ms_per_token`. -/
def fitTokenLinearV1 (observations : List KVLoadCalibrationObservation) (calibratedFrom : String)
    (fitIntercept : Bool := true) : Except CalibrationError KVLoadCalibrationFit :=
  fitLinearV1 .tokenLinearV1 observations calibratedFrom fitIntercept

/-- Fit `duration_ms = overhead + bytes * ms_per_byte`. -/
def fitByteLinearV1 (observations : List KVLoadCalibrationObservation) (calibratedFrom : String)
    (fitIntercept : Bool := true) : Except CalibrationError KVLoadCalibrationFit :=
  fitLinearV1 .byteLinearV1 observations calibratedFrom fitIntercept

/-- The entries of the mapping of a fit. -/
def profileEntries (fit : KVLoadCalibrationFit) : List (String × Json) := [
    ("mode", .str fit.mode.value),
    ("aggregation", .str fit.aggregation),
    ("overlap_mode", .str fit.overlapMode),
    ("transfer_path", .str fit.transferPath),
    ("ddr_fixed_overhead_ms", .float fit.ddrFixedOverheadMs),
    ("calibrated_from", .str fit.calibratedFrom)] ++
  match fit.mode with
  | .tokenLinearV1 => [("ddr_ms_per_cached_token", .float fit.ddrMsPerCachedToken)]
  | .byteLinearV1 => [("ddr_ms_per_byte", .float fit.ddrMsPerByte)]

/-- Convert a calibration fit into the mapping of a KV-load profile. -/
def toKvLoadProfileMapping (fit : KVLoadCalibrationFit) : Json := .dict (profileEntries fit)

end InferTwin
