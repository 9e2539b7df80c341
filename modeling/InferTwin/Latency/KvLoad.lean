import InferTwin.Config.Profiles
import InferTwin.Latency.Backends

namespace InferTwin

/-- The exceptions of the constructors of the KV-load components. -/
inductive KVLoadError
  | aggregation
  | overlapMode
  | emptyTransferPath
  | emptyCalibratedFrom
  | negative (fieldName : String)
  | remoteReserved
  deriving DecidableEq, Repr

def KVLoadError.message : KVLoadError → String
  | aggregation => "KV load aggregation only supports shared_link_sum"
  | overlapMode => "KV load overlap_mode only supports none_v1"
  | emptyTransferPath => "transfer_path must be non-empty"
  | emptyCalibratedFrom => "calibrated_from must be non-empty"
  | negative field => field ++ " must be non-negative"
  | remoteReserved => "remote_ms_per_cached_token is reserved for future remote KV load"

def validateCommon (settings : KVLoadSettings) : Except KVLoadError Unit :=
  if settings.aggregation ≠ "shared_link_sum" then .error .aggregation
  else if settings.overlapMode ≠ "none_v1" then .error .overlapMode
  else if settings.transferPath = "" then .error .emptyTransferPath
  else if settings.calibratedFrom = "" then .error .emptyCalibratedFrom
  else .ok ()

def ZeroKVLoadLatencyComponent.build (settings : KVLoadSettings) :
    Except KVLoadError ZeroKVLoadLatencyComponent := do
  validateCommon settings
  return { toKVLoadSettings := settings }

def TokenLinearKVLoadLatencyComponent.build (settings : KVLoadSettings)
    (ddrFixedOverheadMs ddrMsPerCachedToken : ℚ) :
    Except KVLoadError TokenLinearKVLoadLatencyComponent := do
  validateCommon settings
  if hoverhead : ddrFixedOverheadMs < 0 then .error (.negative "ddr_fixed_overhead_ms")
  else if hslope : ddrMsPerCachedToken < 0 then .error (.negative "ddr_ms_per_cached_token")
  else .ok {
    toKVLoadSettings := settings
    ddrFixedOverheadMs
    ddrMsPerCachedToken
    overhead_nonneg := nonneg_of_not_neg hoverhead
    slope_nonneg := nonneg_of_not_neg hslope }

def ByteLinearKVLoadLatencyComponent.build (settings : KVLoadSettings)
    (ddrFixedOverheadMs ddrMsPerByte : ℚ) :
    Except KVLoadError ByteLinearKVLoadLatencyComponent := do
  validateCommon settings
  if hoverhead : ddrFixedOverheadMs < 0 then .error (.negative "ddr_fixed_overhead_ms")
  else if hslope : ddrMsPerByte < 0 then .error (.negative "ddr_ms_per_byte")
  else .ok {
    toKVLoadSettings := settings
    ddrFixedOverheadMs
    ddrMsPerByte
    overhead_nonneg := nonneg_of_not_neg hoverhead
    slope_nonneg := nonneg_of_not_neg hslope }

def KVLoadLatencyProfile.settings (profile : KVLoadLatencyProfile) : KVLoadSettings where
  aggregation := profile.aggregation
  overlapMode := profile.overlapMode
  transferPath := profile.transferPath
  calibratedFrom := profile.calibratedFrom

/-- Build a KV-load latency component from a typed profile. -/
def buildKvLoadComponent (profile : KVLoadLatencyProfile) :
    Except KVLoadError IterationLatencyComponent :=
  if profile.remoteMsPerCachedToken > 0 then .error .remoteReserved
  else
    match profile.mode with
    | .zero => (ZeroKVLoadLatencyComponent.build profile.settings).map
        ZeroKVLoadLatencyComponent.toComponent
    | .tokenLinearV1 => (TokenLinearKVLoadLatencyComponent.build profile.settings
        profile.ddrFixedOverheadMs profile.ddrMsPerCachedToken).map
          TokenLinearKVLoadLatencyComponent.toComponent
    | .byteLinearV1 => (ByteLinearKVLoadLatencyComponent.build profile.settings
        profile.ddrFixedOverheadMs profile.ddrMsPerByte).map
          ByteLinearKVLoadLatencyComponent.toComponent

end InferTwin
