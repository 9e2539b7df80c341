import InferTwin.Latency.Schema
import Mathlib.Tactic.Positivity

namespace InferTwin

structure FormulaLatencyBackend where
  iterationFixedOverheadMs : ℚ := 1 / 5
  iterationPrefillTokenMs : ℚ := 1 / 100
  iterationBatchOverheadMs : ℚ := 3 / 100
  iterationContextTokenMs : ℚ := 0
  modelName : String := "unknown"
  hardwareName : String := "unknown"
  name : String := "formula"
  fixed_nonneg : 0 ≤ iterationFixedOverheadMs
  prefill_nonneg : 0 ≤ iterationPrefillTokenMs
  batch_nonneg : 0 ≤ iterationBatchOverheadMs
  context_nonneg : 0 ≤ iterationContextTokenMs

def FormulaLatencyBackend.estimateIteration (backend : FormulaLatencyBackend)
    (shape : BatchShape) : LatencyResult where
  durationMs := backend.iterationFixedOverheadMs
    + shape.scheduledPrefillTokens * backend.iterationPrefillTokenMs
    + shape.batchSize * backend.iterationBatchOverheadMs
    + shape.totalContextTokens * backend.iterationContextTokenMs
  backend := backend.name
  shapeKey := ShapeKey.fromShape backend.name backend.modelName backend.hardwareName shape
  details := [
    ("batch_size", .num shape.batchSize),
    ("scheduled_prefill_tokens", .num shape.scheduledPrefillTokens),
    ("scheduled_decode_tokens", .num shape.scheduledDecodeTokens),
    ("max_query_len", .num shape.maxQueryLen),
    ("total_context_tokens", .num shape.totalContextTokens)]
  duration_nonneg := by
    have h₁ := backend.fixed_nonneg
    have h₂ := backend.prefill_nonneg
    have h₃ := backend.batch_nonneg
    have h₄ := backend.context_nonneg
    positivity

def FormulaLatencyBackend.toBackend (backend : FormulaLatencyBackend) : BatchLatencyBackend where
  name := backend.name
  modelName := backend.modelName
  hardwareName := backend.hardwareName
  estimateIteration shape := .ok (backend.estimateIteration shape)

structure FittedTTFTLatencyBackend where
  interceptMs : ℚ
  msPerUncachedToken : ℚ
  modelName : String
  hardwareName : String
  profile : String
  function : String := "token_linear_v1"
  calibratedFrom : String := "manual_default"
  name : String := "fitted_ttft"
  intercept_nonneg : 0 ≤ interceptMs
  slope_nonneg : 0 ≤ msPerUncachedToken

def FittedTTFTLatencyBackend.estimateIteration (backend : FittedTTFTLatencyBackend)
    (shape : BatchShape) : LatencyResult where
  durationMs := backend.interceptMs + backend.msPerUncachedToken * shape.scheduledPrefillTokens
  backend := backend.name
  shapeKey := ShapeKey.fromShape backend.name backend.modelName backend.hardwareName shape
  details := [
    ("profile", .str backend.profile),
    ("function", .str backend.function),
    ("calibrated_from", .str backend.calibratedFrom),
    ("intercept_ms", .num backend.interceptMs),
    ("ms_per_uncached_token", .num backend.msPerUncachedToken),
    ("scheduled_prefill_tokens", .num shape.scheduledPrefillTokens)]
  duration_nonneg := by
    have h₁ := backend.intercept_nonneg
    have h₂ := backend.slope_nonneg
    positivity

def FittedTTFTLatencyBackend.toBackend (backend : FittedTTFTLatencyBackend) :
    BatchLatencyBackend where
  name := backend.name
  modelName := backend.modelName
  hardwareName := backend.hardwareName
  estimateIteration shape := .ok (backend.estimateIteration shape)

/-- Duration of one component of a serving latency profile. -/
structure LatencyComponentResult where
  name : String
  durationMs : ℚ
  modeled : Bool
  details : Details := []
  duration_nonneg : 0 ≤ durationMs

structure IterationLatencyComponent where
  name : String
  estimateIteration : BatchShape → Except BackendError LatencyComponentResult

structure ZeroLatencyComponent where
  name : String
  reason : String

def ZeroLatencyComponent.toComponent (component : ZeroLatencyComponent) :
    IterationLatencyComponent where
  name := component.name
  estimateIteration _ := .ok {
    name := component.name
    durationMs := 0
    modeled := false
    details := [("reason", .str component.reason)]
    duration_nonneg := le_rfl }

structure StaticLatencyComponent where
  name : String
  durationMs : ℚ
  source : String := "static"
  duration_nonneg : 0 ≤ durationMs

def StaticLatencyComponent.toComponent (component : StaticLatencyComponent) :
    IterationLatencyComponent where
  name := component.name
  estimateIteration _ := .ok {
    name := component.name
    durationMs := component.durationMs
    modeled := true
    details := [("source", .str component.source)]
    duration_nonneg := component.duration_nonneg }

/-- What the three KV-load components have in common. -/
structure KVLoadSettings where
  aggregation : String := "shared_link_sum"
  overlapMode : String := "none_v1"
  transferPath : String := "local_ddr_cpu"
  calibratedFrom : String := "manual_default"

def loadActive (shape : BatchShape) : Bool :=
  shape.kvLoadRequestCount > 0 || shape.kvLoadTokens > 0 || shape.kvLoadBytes > 0

def KVLoadSettings.baseDetails (settings : KVLoadSettings) (mode : String) (shape : BatchShape) :
    Details := [
  ("mode", .str mode),
  ("aggregation", .str settings.aggregation),
  ("overlap_mode", .str settings.overlapMode),
  ("transfer_path", .str settings.transferPath),
  ("calibrated_from", .str settings.calibratedFrom),
  ("kv_load_tokens", .num shape.kvLoadTokens),
  ("kv_load_bytes", .num shape.kvLoadBytes),
  ("kv_load_request_count", .num shape.kvLoadRequestCount),
  ("load_active", .bool (loadActive shape))]

structure ZeroKVLoadLatencyComponent extends KVLoadSettings where
  name : String := "kv_load"

def ZeroKVLoadLatencyComponent.toComponent (component : ZeroKVLoadLatencyComponent) :
    IterationLatencyComponent where
  name := component.name
  estimateIteration shape := .ok {
    name := component.name
    durationMs := 0
    modeled := false
    details := component.baseDetails "zero" shape ++
      [("reason", .str "kv_load_latency_disabled_by_profile")]
    duration_nonneg := le_rfl }

/-- `overhead + amount * slope` on an iteration that loads, zero otherwise. -/
def linearLoadMs (overheadMs slopeMs : ℚ) (active : Bool) (amount : ℕ) : ℚ :=
  if active then overheadMs + amount * slopeMs else 0

theorem linear_load_nonneg {overheadMs slopeMs : ℚ} (ho : 0 ≤ overheadMs) (hs : 0 ≤ slopeMs)
    (active : Bool) (amount : ℕ) : 0 ≤ linearLoadMs overheadMs slopeMs active amount := by
  unfold linearLoadMs
  split_ifs <;> positivity

structure TokenLinearKVLoadLatencyComponent extends KVLoadSettings where
  ddrFixedOverheadMs : ℚ := 0
  ddrMsPerCachedToken : ℚ := 0
  name : String := "kv_load"
  overhead_nonneg : 0 ≤ ddrFixedOverheadMs
  slope_nonneg : 0 ≤ ddrMsPerCachedToken

def TokenLinearKVLoadLatencyComponent.toComponent (component : TokenLinearKVLoadLatencyComponent) :
    IterationLatencyComponent where
  name := component.name
  estimateIteration shape := .ok {
    name := component.name
    durationMs := linearLoadMs component.ddrFixedOverheadMs component.ddrMsPerCachedToken
      (loadActive shape) shape.kvLoadTokens
    modeled := true
    details := component.baseDetails "token_linear_v1" shape ++
      [("ddr_fixed_overhead_ms", .num component.ddrFixedOverheadMs),
        ("ddr_ms_per_cached_token", .num component.ddrMsPerCachedToken)]
    duration_nonneg := linear_load_nonneg component.overhead_nonneg component.slope_nonneg _ _ }

structure ByteLinearKVLoadLatencyComponent extends KVLoadSettings where
  ddrFixedOverheadMs : ℚ := 0
  ddrMsPerByte : ℚ := 0
  name : String := "kv_load"
  overhead_nonneg : 0 ≤ ddrFixedOverheadMs
  slope_nonneg : 0 ≤ ddrMsPerByte

def ByteLinearKVLoadLatencyComponent.toComponent (component : ByteLinearKVLoadLatencyComponent) :
    IterationLatencyComponent where
  name := component.name
  estimateIteration shape :=
    if loadActive shape ∧ shape.kvLoadTokens > 0 ∧ shape.kvLoadBytes = 0 then
      .error .byteLinearNeedsBytes
    else .ok {
      name := component.name
      durationMs := linearLoadMs component.ddrFixedOverheadMs component.ddrMsPerByte
        (loadActive shape) shape.kvLoadBytes
      modeled := true
      details := component.baseDetails "byte_linear_v1" shape ++
        [("ddr_fixed_overhead_ms", .num component.ddrFixedOverheadMs),
          ("ddr_ms_per_byte", .num component.ddrMsPerByte)]
      duration_nonneg := linear_load_nonneg component.overhead_nonneg component.slope_nonneg _ _ }

def prefixedDetails (label : String) (details : Details) : Details :=
  details.map fun entry ↦ (label ++ "_" ++ entry.1, entry.2)

/-- Serving latency dimensions composed for batch-aware replay. -/
structure ServingLatencyProfile where
  profile : String
  ttftBackend : BatchLatencyBackend
  kvLoadComponent : IterationLatencyComponent := ZeroLatencyComponent.toComponent
    { name := "kv_load", reason := "kv_load_latency_disabled_by_profile" }
  queueComponent : IterationLatencyComponent := ZeroLatencyComponent.toComponent
    { name := "queue", reason := "machine_side_queue_not_modeled_in_current_replay" }
  calibratedFrom : String := "manual_default"
  calibrationWindowRequests : ℕ := 500
  decodeMode : String := "not_modeled_in_current_replay"
  name : String := "serving_latency_profile"

namespace ServingLatencyProfile

/-- Backend name, duration and details of the TTFT dimension. An iteration that only
loads KV blocks runs no prefill, so the TTFT backend is not asked. -/
structure TtftEstimate where
  backend : String
  durationMs : ℚ
  details : Details
  duration_nonneg : 0 ≤ durationMs

def estimateTtft (profile : ServingLatencyProfile) (shape : BatchShape) :
    Except BackendError TtftEstimate :=
  if shape.scheduledPrefillTokens = 0 ∧ shape.kvLoadRequestCount > 0 then
    .ok {
      backend := profile.ttftBackend.name
      durationMs := 0
      details := [("reason", .str "load_only_kv_load"), ("scheduled_prefill_tokens", .num 0)]
      duration_nonneg := le_rfl }
  else do
    let ttft ← profile.ttftBackend.estimateIteration shape
    return {
      backend := ttft.backend
      durationMs := ttft.durationMs
      details := ttft.details
      duration_nonneg := ttft.duration_nonneg }

def estimateIteration (profile : ServingLatencyProfile) (shape : BatchShape) :
    Except BackendError LatencyResult := do
  let ttft ← profile.estimateTtft shape
  let queue ← profile.queueComponent.estimateIteration shape
  let kvLoad ← profile.kvLoadComponent.estimateIteration shape
  return {
    durationMs := queue.durationMs + ttft.durationMs + kvLoad.durationMs
    backend := profile.name
    shapeKey := ShapeKey.fromShape profile.name profile.ttftBackend.modelName
      profile.ttftBackend.hardwareName shape
    details := [
      ("profile", .str profile.profile),
      ("calibrated_from", .str profile.calibratedFrom),
      ("calibration_window_requests", .num profile.calibrationWindowRequests),
      ("ttft_backend", .str ttft.backend),
      ("ttft_ms", .num ttft.durationMs),
      ("queue_component", .str queue.name),
      ("queue_ms", .num queue.durationMs),
      ("queue_modeled", .bool queue.modeled),
      ("kv_load_component", .str kvLoad.name),
      ("kv_load_ms", .num kvLoad.durationMs),
      ("kv_load_modeled", .bool kvLoad.modeled),
      ("decode_mode", .str profile.decodeMode),
      ("tpot_mode", .str "not_modeled_in_current_replay")] ++
      prefixedDetails "ttft" ttft.details ++
      prefixedDetails "queue" queue.details ++
      prefixedDetails "kv_load" kvLoad.details
    duration_nonneg := by
      have h₁ := queue.duration_nonneg
      have h₂ := ttft.duration_nonneg
      have h₃ := kvLoad.duration_nonneg
      positivity }

def toBackend (profile : ServingLatencyProfile) : BatchLatencyBackend where
  name := profile.name
  modelName := profile.ttftBackend.modelName
  hardwareName := profile.ttftBackend.hardwareName
  estimateIteration := profile.estimateIteration

end ServingLatencyProfile

end InferTwin
