import InferTwin.Scheduler.RequestState

namespace InferTwin

/-- Closed TTFT decomposition for one completed request. -/
structure RequestTTFTComposition where
  timelineMode : TimelineMode
  ttftGranularity : TtftGranularity
  observedTtftMs : ℚ
  ttftMs : ℚ
  schedulerWaitMs : ℚ
  computeWaitMs : ℚ
  kvLoadWaitMs : ℚ
  uncachedPrefillComputeMs : ℚ
  unattributedTtftMs : ℚ
  chunkCount : ℕ
  loadEventCount : ℕ
  deriving DecidableEq, Repr

/-- The non-negativity checks made when a composition is built, in their order. -/
def RequestTTFTComposition.validate (composition : RequestTTFTComposition) :
    Except ReplayError RequestTTFTComposition :=
  if composition.observedTtftMs < 0 then .error (.negativeCompositionField "observed_ttft_ms")
  else if composition.ttftMs < 0 then .error (.negativeCompositionField "ttft_ms")
  else if composition.schedulerWaitMs < 0 then
    .error (.negativeCompositionField "scheduler_wait_ms")
  else if composition.computeWaitMs < 0 then .error (.negativeCompositionField "compute_wait_ms")
  else if composition.kvLoadWaitMs < 0 then .error (.negativeCompositionField "kv_load_wait_ms")
  else if composition.uncachedPrefillComputeMs < 0 then
    .error (.negativeCompositionField "uncached_prefill_compute_ms")
  else if composition.unattributedTtftMs < 0 then
    .error (.negativeCompositionField "unattributed_ttft_ms")
  else .ok composition

namespace RequestTTFTComposer

/-- The default tolerance, `1e-9` milliseconds. -/
def epsilonMs : ℚ := 1 / 1000000000

def composeLegacy (request : SimulationRequest) (state : RequestState)
    (finishTimeMs firstScheduledTimeMs : ℚ) : Except ReplayError RequestTTFTComposition :=
  RequestTTFTComposition.validate {
    timelineMode := .legacy
    ttftGranularity := .iteration
    observedTtftMs := finishTimeMs - request.startTimeMs
    ttftMs := finishTimeMs - request.startTimeMs
    schedulerWaitMs := firstScheduledTimeMs - request.startTimeMs
    computeWaitMs := 0
    kvLoadWaitMs := 0
    uncachedPrefillComputeMs := state.prefillComputeMs
    unattributedTtftMs := 0
    chunkCount := 0
    loadEventCount := 0 }

/-- Observed TTFT not explained by the recorded waits and compute. -/
def residualMs (request : SimulationRequest) (state : RequestState) (finishTimeMs : ℚ) : ℚ :=
  finishTimeMs - request.startTimeMs -
    (state.computeWaitMs + state.kvLoadWaitMs + state.prefillComputeMs + state.unattributedTtftMs)

def composeProgressive (request : SimulationRequest) (state : RequestState) (finishTimeMs : ℚ) :
    Except ReplayError RequestTTFTComposition :=
  let observedTtftMs := finishTimeMs - request.startTimeMs
  let schedulerWaitMs := state.computeWaitMs + state.kvLoadWaitMs
  let residual := residualMs request state finishTimeMs
  if residual < -epsilonMs then
    .error (.negativeResidual request.requestId observedTtftMs state.computeWaitMs
      state.kvLoadWaitMs state.prefillComputeMs state.unattributedTtftMs)
  else
    let residual := if |residual| ≤ epsilonMs then 0 else residual
    let unattributedTtftMs := state.unattributedTtftMs + residual
    RequestTTFTComposition.validate {
      timelineMode := .progressive
      ttftGranularity := .chunk
      observedTtftMs
      ttftMs := schedulerWaitMs + state.prefillComputeMs + unattributedTtftMs
      schedulerWaitMs
      computeWaitMs := state.computeWaitMs
      kvLoadWaitMs := state.kvLoadWaitMs
      uncachedPrefillComputeMs := state.prefillComputeMs
      unattributedTtftMs
      chunkCount := state.chunkCount
      loadEventCount := state.loadEventCount }

def compose (request : SimulationRequest) (state : RequestState)
    (finishTimeMs firstScheduledTimeMs : ℚ) : Except ReplayError RequestTTFTComposition :=
  if finishTimeMs < request.startTimeMs then
    .error (.composeFinishBeforeArrival request.requestId)
  else if firstScheduledTimeMs < request.startTimeMs then
    .error (.composeFirstScheduledBeforeArrival request.requestId)
  else
    match state.timelineMode with
    | .legacy => composeLegacy request state finishTimeMs firstScheduledTimeMs
    | .progressive => composeProgressive request state finishTimeMs

end RequestTTFTComposer

end InferTwin
