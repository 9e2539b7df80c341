import InferTwin.Replay.Engine

namespace InferTwin

open Effect

variable {C K : Type}

/-- The local variables of an instance replay that its helpers share. -/
structure Locals where
  heap : Heap := fun _ ↦ default
  waiting : List ℕ := []
  running : List ℕ := []
  statesById : Dict String ℕ := ∅
  requestsById : Dict String SimulationRequest := ∅
  lookupById : Dict String LookupMetrics := ∅
  requestMetrics : List BatchAwareRequestMetrics := []
  iterationMetrics : List IterationMetrics := []
  transferQueue : SharedLinkFIFOTransferQueue

/-- What the frontier scan has counted against the budgets of the coming batch. The plan
lists whom it counted, with how many tokens; the source keeps the two totals only. -/
structure FrontierPlan where
  tokenBudget : ℕ
  plannedSlices : ℕ := 0
  plan : List (ℕ × ℕ) := []

def FrontierPlan.count (frontier : FrontierPlan) (ref plannedTokens : ℕ) : FrontierPlan where
  tokenBudget := frontier.tokenBudget - plannedTokens
  plannedSlices := frontier.plannedSlices + 1
  plan := frontier.plan ++ [(ref, plannedTokens)]

namespace Engine

variable (engine : Engine C K)

/-- Register a new request object under the next arrival number. -/
def admitArrival (nowMs : ℚ) (request : SimulationRequest) (arrivalSeq : ℕ) (locals : Locals) :
    Except ReplayError Locals := do
  let state ← stateFromRequest request arrivalSeq engine.timelineMode
  let state ← recordInitialComputeWait state nowMs
  return { locals with
    heap := Function.update locals.heap arrivalSeq state
    waiting := locals.waiting ++ [arrivalSeq]
    statesById := locals.statesById.insert state.requestId arrivalSeq
    requestsById := locals.requestsById.insert state.requestId request }

/-- Move the requests that have arrived into the waiting queue. The list is what remains
of `pending` from `pendingIndex` on. -/
def moveArrivals (nowMs : ℚ) : List SimulationRequest → ℕ → Locals →
    Except ReplayError (List SimulationRequest × ℕ × Locals)
  | [], pendingIndex, locals => .ok ([], pendingIndex, locals)
  | request :: pending, pendingIndex, locals =>
    if request.startTimeMs ≤ nowMs then do
      let locals ← engine.admitArrival nowMs request pendingIndex locals
      moveArrivals nowMs pending (pendingIndex + 1) locals
    else .ok (request :: pending, pendingIndex, locals)

def ensureLookup (nowMs : ℚ) (ref : ℕ) (request : SimulationRequest) (locals : Locals) :
    Replay C K Locals := do
  if (locals.heap ref).cacheLookupDone then return locals
  else
    let (state, metrics) ← engine.lookupRequest nowMs (locals.heap ref) request
    return { locals with
      lookupById := locals.lookupById.insert (locals.heap ref).requestId metrics
      heap := Function.update locals.heap ref state }

def prepareRunning (nowMs : ℚ) : List ℕ → Locals → Replay C K Locals
  | [], locals => pure locals
  | ref :: refs, locals => do
    let request ← check (locals.requestsById.getItem (locals.heap ref).requestId)
    let locals ← engine.ensureLookup nowMs ref request locals
    prepareRunning nowMs refs locals

def finishZeroMissRequest (nowMs : ℚ) (ref : ℕ) (request : SimulationRequest)
    (lookup : LookupMetrics) (locals : Locals) : Except ReplayError Locals :=
  if (locals.heap ref).status = .finished then .ok locals
  else do
    let state := finishZeroMiss nowMs (locals.heap ref)
    let metric ← buildRequestMetrics request state lookup
    return { locals with
      heap := Function.update locals.heap ref state
      requestMetrics := locals.requestMetrics ++ [metric] }

def finishZeroMissRequests (nowMs : ℚ) : List ℕ → Locals → Except ReplayError Locals
  | [], locals => .ok locals
  | ref :: refs, locals => do
    if (← (locals.heap ref).remainingPrefillTokens) ≠ 0 then
      finishZeroMissRequests nowMs refs locals
    else if ← (locals.heap ref).hasPendingKvLoad then
      finishZeroMissRequests nowMs refs locals
    else
      let request ← locals.requestsById.getItem (locals.heap ref).requestId
      let lookup ← locals.lookupById.getItem (locals.heap ref).requestId
      let locals ← finishZeroMissRequest nowMs ref request lookup locals
      finishZeroMissRequests nowMs refs locals

/-- The frontier's loop over the running requests. The flag tells that the budgets are
used up, in which case the source returns from the whole scan. -/
def planRunning (heap : Heap) : List ℕ → FrontierPlan →
    Except ReplayError (Bool × FrontierPlan)
  | [], frontier => .ok (false, frontier)
  | ref :: refs, frontier =>
    if (heap ref).status ≠ .running then planRunning heap refs frontier
    else do
      let plannedTokens ←
        plannedPrefillTokens engine.config (heap ref) frontier.tokenBudget
      if plannedTokens = 0 then
        if (← (heap ref).remainingPrefillTokens) = 0 then
          if ← (heap ref).hasPendingKvLoad then
            let frontier := frontier.count ref 0
            if frontier.plannedSlices ≥ engine.config.maxNumSeqs then return (true, frontier)
            else planRunning heap refs frontier
          else planRunning heap refs frontier
        else planRunning heap refs frontier
      else
        let frontier := frontier.count ref plannedTokens
        if frontier.tokenBudget = 0 ∨ frontier.plannedSlices ≥ engine.config.maxNumSeqs then
          return (true, frontier)
        else planRunning heap refs frontier

/-- The frontier's scan of the waiting queue from `index` on. The list is what remains of
the queue there. -/
def scanWaiting (nowMs : ℚ) : ℕ → List ℕ → FrontierPlan → Locals →
    Replay C K (FrontierPlan × Locals)
  | _, [], frontier, locals => pure (frontier, locals)
  | index, ref :: refs, frontier, locals =>
    if frontier.plannedSlices ≥ engine.config.maxNumSeqs then pure (frontier, locals)
    else do
      let request ← check (locals.requestsById.getItem (locals.heap ref).requestId)
      let locals ← engine.ensureLookup nowMs ref request locals
      let remaining ← check (locals.heap ref).remainingPrefillTokens
      if remaining = 0 then
        let pendingKvLoad ← check (locals.heap ref).hasPendingKvLoad
        if pendingKvLoad then
          scanWaiting nowMs (index + 1) refs (frontier.count ref 0) locals
        else
          let locals := { locals with waiting := locals.waiting.eraseIdx index }
          let request ← check (locals.requestsById.getItem (locals.heap ref).requestId)
          let lookup ← check (locals.lookupById.getItem (locals.heap ref).requestId)
          let locals ← check (finishZeroMissRequest nowMs ref request lookup locals)
          scanWaiting nowMs index refs frontier locals
      else if frontier.tokenBudget = 0 then pure (frontier, locals)
      else
        let plannedTokens ← check
          (plannedPrefillTokens engine.config (locals.heap ref) frontier.tokenBudget)
        if plannedTokens = 0 then pure (frontier, locals)
        else scanWaiting nowMs (index + 1) refs (frontier.count ref plannedTokens) locals

def prepareWaitingFrontier (nowMs : ℚ) (running : List ℕ) (locals : Locals) :
    Replay C K (FrontierPlan × Locals) := do
  let (done, frontier) ← check (engine.planRunning locals.heap running
    { tokenBudget := engine.config.maxNumBatchedTokens })
  if done then return (frontier, locals)
  else engine.scanWaiting nowMs 0 locals.waiting frontier locals

/-- Look up and plan everything the coming batch may hold. -/
def prepareSchedulerFrontier (nowMs : ℚ) (locals : Locals) :
    Replay C K (FrontierPlan × Locals) := do
  let locals ← engine.prepareRunning nowMs locals.running locals
  let locals ← check (finishZeroMissRequests nowMs locals.running locals)
  let activeRunning := locals.running.filter fun ref ↦ (locals.heap ref).status ≠ .finished
  let (frontier, locals) ← engine.prepareWaitingFrontier nowMs activeRunning locals
  return (frontier, { locals with running := activeRunning })

/-- The slice loop of `_apply_schedule_result`. -/
def applySlices (startTimeMs finishMs : ℚ)
    (contributions : Dict String IterationLatencyBreakdown) :
    List ScheduledSlice → IterationTotals → List SliceRecord → Locals →
      Replay C K (IterationTotals × List SliceRecord × Locals)
  | [], totals, records, locals => pure (totals, records, locals)
  | slice :: slices, totals, records, locals => do
    let ref ← check (locals.statesById.getItem slice.requestId)
    let state := locals.heap ref
    let lookup ← check (locals.lookupById.getItem state.requestId)
    let contribution ← check (contributions.getItem slice.requestId)
    let (progress, metric) ← engine.applySlice startTimeMs finishMs slice contribution state
      lookup (locals.requestsById.getItem state.requestId) locals.transferQueue totals
    applySlices startTimeMs finishMs contributions slices progress.totals
      (records ++ [progress.record]) { locals with
        heap := Function.update locals.heap ref progress.state
        transferQueue := progress.queue
        requestMetrics := locals.requestMetrics ++ metric.toList }

def applyScheduleResult (shape : BatchShape) (latency : LatencyResult) (finishMs : ℚ)
    (computeWait : ComputeWaitAccounting) (locals : Locals) : Replay C K Locals := do
  let contributions ← check (splitIterationLatencyContributions shape latency)
  let (totals, records, locals) ← engine.applySlices shape.startTimeMs finishMs contributions
    shape.requestSlices {} [] locals
  let metric ← check
    (buildIterationMetrics shape latency finishMs engine.timelineMode computeWait totals)
  record (.iteration {
    shape
    durationMs := latency.durationMs
    finishTimeMs := finishMs
    linkFreeMs := locals.transferQueue.nextAvailableTimeMs
    slices := records })
  return { locals with iterationMetrics := locals.iterationMetrics ++ [metric] }

/-- One iteration, from the scheduler's call to the new clock value. -/
def runIteration (instanceUuid : String) (nowMs : ℚ) (iterationId : ℕ) (locals : Locals) :
    Replay C K (ℚ × Locals) := do
  let (shape, admission) ← check (schedule engine.config instanceUuid iterationId nowMs
    locals.waiting locals.running locals.heap)
  if shape.batchSize = 0 then throw .emptyBatch
  let latency ← engine.estimateLatency shape
  let finishMs := engine.clock.add nowMs latency.durationMs
  let (computeWait, heap) ← check (recordIterationComputeWait admission.waiting
    admission.running (shape.requestSlices.map ScheduledSlice.requestId) latency.durationMs
    engine.timelineMode admission.heap)
  let locals ← engine.applyScheduleResult shape latency finishMs computeWait { locals with
    heap, waiting := admission.waiting, running := admission.running }
  engine.drainCacheEvents
  return (finishMs, { locals with
    running := locals.running.filter fun ref ↦ (locals.heap ref).status ≠ .finished })

end Engine

/-- How a pass through the body of a replay loop ends: at its foot (or a `continue`), or
with `break`. -/
inductive Flow (σ : Type)
  | proceed (state : σ)
  | stop (state : σ)

/-- Two passes end the same way, in related states. -/
inductive FlowAgrees {σ τ : Type} (R : σ → τ → Prop) : Flow σ → Flow τ → Prop
  | proceed {state : σ} {session : τ} (h : R state session) :
      FlowAgrees R (.proceed state) (.proceed session)
  | stop {state : σ} {session : τ} (h : R state session) :
      FlowAgrees R (.stop state) (.stop session)

/-- The state of the list loop between two passes. -/
structure LoopState where
  pending : List SimulationRequest
  pendingIndex : ℕ := 0
  nowMs : ℚ
  iterationId : ℕ := 0
  locals : Locals

namespace Engine

variable (engine : Engine C K)

/-- The body of the loop of `_run_instance`. -/
def loopBody (instanceUuid : String) (state : LoopState) : Replay C K (Flow LoopState) := do
  let (pending, pendingIndex, locals) ←
    check (engine.moveArrivals state.nowMs state.pending state.pendingIndex state.locals)
  if locals.waiting = [] ∧ locals.running = [] then
    match pending with
    | [] => throw .indexOutOfRange
    | request :: _ =>
      return .proceed { state with pending, pendingIndex, locals, nowMs := request.startTimeMs }
  else
    let (_, locals) ← engine.prepareSchedulerFrontier state.nowMs locals
    engine.drainCacheEvents
    if locals.waiting = [] ∧ locals.running = [] then
      match pending with
      | [] => return .stop { state with pending, pendingIndex, locals }
      | request :: _ =>
        return .proceed { state with
          pending, pendingIndex, locals, nowMs := max state.nowMs request.startTimeMs }
    else
      let (finishMs, locals) ←
        engine.runIteration instanceUuid state.nowMs state.iterationId locals
      return .proceed {
        pending, pendingIndex, locals, nowMs := finishMs, iterationId := state.iterationId + 1 }

/-- The loop of `_run_instance`, for at most `fuel` passes. -/
def runLoop (instanceUuid : String) : ℕ → LoopState → Replay C K LoopState
  | 0, _ => throw .outOfFuel
  | fuel + 1, state =>
    if state.pending = [] ∧ state.locals.waiting = [] ∧ state.locals.running = [] then
      pure state
    else do
      match ← engine.loopBody instanceUuid state with
      | .stop state => return state
      | .proceed state => runLoop instanceUuid fuel state

end Engine

/-- The metrics of one instance, in the order they were appended. -/
structure InstanceResult where
  requestMetrics : List BatchAwareRequestMetrics := []
  iterationMetrics : List IterationMetrics := []
  deriving DecidableEq

namespace Engine

variable (engine : Engine C K)

/-- The state in which the list loop starts on sorted requests. -/
def initialLoopState (queue : SharedLinkFIFOTransferQueue) (request : SimulationRequest)
    (requests : List SimulationRequest) : LoopState where
  pending := request :: requests
  nowMs := request.startTimeMs
  locals := { transferQueue := queue }

def runInstance (instanceUuid : String) (fuel : ℕ) (requests : List SimulationRequest) :
    Replay C K InstanceResult := do
  match SimulationRequest.sorted requests with
  | [] => return {}
  | request :: pending =>
    let queue ← check (SharedLinkFIFOTransferQueue.create instanceUuid)
    let state ← engine.runLoop instanceUuid fuel (initialLoopState queue request pending)
    engine.drainCacheEvents
    return {
      requestMetrics := state.locals.requestMetrics
      iterationMetrics := state.locals.iterationMetrics }

end Engine

end InferTwin
