import InferTwin.Replay.EventLoop
import InferTwin.Streaming.Source

namespace InferTwin

open Effect

variable {C K σ : Type}

structure StreamingReplayStats where
  emittedRequestCount : ℕ
  emittedIterationCount : ℕ
  maxActiveRequests : ℕ
  finalActiveRequests : ℕ
  deriving DecidableEq, Repr

/-- `peek` inside a replay. -/
def RequestSource.peekIn (source : RequestSource σ) (s : σ) :
    Except ReplayError (Option SimulationRequest × σ) :=
  (source.peek s).mapError .source

/-- `pop` inside a replay. -/
def RequestSource.popIn (source : RequestSource σ) (s : σ) :
    Except ReplayError (SimulationRequest × σ) :=
  (source.pop s).mapError .source

def requireInstance (instanceUuid expected : String) : Except ReplayError Unit :=
  if instanceUuid ≠ expected then .error (.foreignRequest expected instanceUuid) else .ok ()

/-- Hand the collected request metrics to the sink, and forget the requests they close. -/
def emitRequestMetrics (locals : Locals) : Locals :=
  locals.requestMetrics.foldl (fun locals metric ↦ { locals with
    statesById := locals.statesById.erase metric.requestId
    requestsById := locals.requestsById.erase metric.requestId
    lookupById := locals.lookupById.erase metric.requestId }) { locals with requestMetrics := [] }

/-- The state of the streaming loop between two passes. The metric lists of `locals` are
those of the current pass; `emittedRequests` and `emittedIterations` is what the metric
sink has been given. -/
structure StreamState (σ : Type) where
  source : σ
  nowMs : ℚ
  iterationId : ℕ := 0
  arrivalSeq : ℕ := 0
  maxActiveRequests : ℕ := 0
  locals : Locals
  emittedRequests : List BatchAwareRequestMetrics := []
  emittedIterations : List IterationMetrics := []

/-- Hand the metrics of one phase of the pass to the sink. -/
def StreamState.emit (state : StreamState σ) (locals : Locals) : StreamState σ :=
  { state with
    emittedRequests := state.emittedRequests ++ locals.requestMetrics
    emittedIterations := state.emittedIterations ++ locals.iterationMetrics
    locals := { emitRequestMetrics locals with iterationMetrics := [] } }

structure StreamResult where
  stats : StreamingReplayStats
  requestMetrics : List BatchAwareRequestMetrics
  iterationMetrics : List IterationMetrics
  deriving DecidableEq

namespace Engine

variable (engine : Engine C K) (requestSource : RequestSource σ)

/-- `_move_arrivals_from_source`, for at most so many turns of its loop. -/
def moveArrivalsFromSource (instanceUuid : String) (nowMs : ℚ) :
    ℕ → σ → ℕ → Locals → Except ReplayError (σ × ℕ × Locals)
  | 0, _, _, _ => .error .outOfFuel
  | turns + 1, source, arrivalSeq, locals => do
    let (next, source) ← requestSource.peekIn source
    match next with
    | none => return (source, arrivalSeq, locals)
    | some request =>
      if request.startTimeMs > nowMs then return (source, arrivalSeq, locals)
      else
        let (request, source) ← requestSource.popIn source
        requireInstance request.instanceUuid instanceUuid
        if request.requestId ∈ locals.statesById then
          throw (.duplicateActiveRequest request.requestId)
        let locals ← engine.admitArrival nowMs request arrivalSeq locals
        moveArrivalsFromSource instanceUuid nowMs turns source (arrivalSeq + 1) locals

/-- Nothing is active: look for the start time of the next request. -/
def nextStart (instanceUuid : String) (source : σ) : Except ReplayError (Option ℚ × σ) := do
  let (next, source) ← requestSource.peekIn source
  match next with
  | none => return (none, source)
  | some request =>
    requireInstance request.instanceUuid instanceUuid
    return (some request.startTimeMs, source)

/-- The body of the loop of `run_instance_stream`, once the arrivals have been moved. -/
def streamArrived (instanceUuid : String) (state : StreamState σ) :
    Replay C K (Flow (StreamState σ)) := do
  if state.locals.waiting = [] ∧ state.locals.running = [] then
    match ← check (nextStart requestSource instanceUuid state.source) with
    | (none, source) => return .stop { state with source }
    | (some startTimeMs, source) => return .proceed { state with source, nowMs := startTimeMs }
  else
    let (_, locals) ← engine.prepareSchedulerFrontier state.nowMs state.locals
    let state := state.emit locals
    engine.drainCacheEvents
    if state.locals.waiting = [] ∧ state.locals.running = [] then
      match ← check (nextStart requestSource instanceUuid state.source) with
      | (none, source) => return .stop { state with source }
      | (some startTimeMs, source) =>
        return .proceed { state with source, nowMs := max state.nowMs startTimeMs }
    else
      -- the metrics go out before the cache events are drained; neither touches the other
      let (finishMs, locals) ←
        engine.runIteration instanceUuid state.nowMs state.iterationId state.locals
      return .proceed { state.emit locals with
        nowMs := finishMs, iterationId := state.iterationId + 1 }

/-- The body of the loop of `run_instance_stream`. -/
def streamBody (instanceUuid : String) (turns : ℕ) (state : StreamState σ) :
    Replay C K (Flow (StreamState σ)) := do
  let (source, arrivalSeq, locals) ← check (engine.moveArrivalsFromSource requestSource
    instanceUuid state.nowMs turns state.source state.arrivalSeq state.locals)
  engine.streamArrived requestSource instanceUuid { state with
    source, arrivalSeq, locals
    maxActiveRequests := max state.maxActiveRequests locals.statesById.len }

/-- The loop of `run_instance_stream`, for at most `fuel` passes. -/
def streamLoop (instanceUuid : String) (turns : ℕ) : ℕ → StreamState σ → Replay C K (StreamState σ)
  | 0, _ => throw .outOfFuel
  | fuel + 1, state => do
    let (next, source) ← check (requestSource.peekIn state.source)
    let state := { state with source }
    if next = none ∧ state.locals.waiting = [] ∧ state.locals.running = [] then return state
    else
      match ← engine.streamBody requestSource instanceUuid turns state with
      | .stop state => return state
      | .proceed state => streamLoop instanceUuid turns fuel state

def runInstanceStream (instanceUuid : String) (turns fuel : ℕ) (source : σ) :
    Replay C K StreamResult := do
  let (next, source) ← check (requestSource.peekIn source)
  match next with
  | none => return {
      stats := {
        emittedRequestCount := 0, emittedIterationCount := 0
        maxActiveRequests := 0, finalActiveRequests := 0 }
      requestMetrics := []
      iterationMetrics := [] }
  | some request =>
    let queue ← check (SharedLinkFIFOTransferQueue.create instanceUuid)
    let state ← engine.streamLoop requestSource instanceUuid turns fuel {
      source, nowMs := request.startTimeMs, locals := { transferQueue := queue } }
    engine.drainCacheEvents
    return {
      stats := {
        emittedRequestCount := state.emittedRequests.length
        emittedIterationCount := state.emittedIterations.length
        maxActiveRequests := state.maxActiveRequests
        finalActiveRequests := state.locals.statesById.len }
      requestMetrics := state.emittedRequests
      iterationMetrics := state.emittedIterations }

end Engine

end InferTwin
