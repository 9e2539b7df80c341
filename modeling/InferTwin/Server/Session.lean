import InferTwin.Replay.EventLoop

namespace InferTwin

open Effect

variable {C K : Type}

/-- A request that has arrived: its state, its lookup once there was one, and the time
the clock had lost when it came. -/
structure Entry where
  request : SimulationRequest
  state : RequestState
  lostMs : ℚ
  lookup : Option LookupMetrics := none

namespace Entry

def id (entry : Entry) : String := entry.state.requestId

def seq (entry : Entry) : ℕ := entry.state.arrivalSeq

end Entry

/-- What one iteration gave a request. -/
structure Service where
  slice : ScheduledSlice
  durationMs : ℚ
  record : SliceRecord

/-- A request that was looked up, with the services it has received so far. -/
structure Job where
  request : SimulationRequest
  state : RequestState
  lostMs : ℚ
  lookup : LookupMetrics
  services : List Service := []

namespace Job

def entry (job : Job) : Entry where
  request := job.request
  state := job.state
  lostMs := job.lostMs
  lookup := some job.lookup

def id (job : Job) : String := job.state.requestId

def seq (job : Job) : ℕ := job.state.arrivalSeq

@[simp] theorem entry_id (job : Job) : job.entry.id = job.id := rfl

@[simp] theorem entry_seq (job : Job) : job.entry.seq = job.seq := rfl

end Job

/-- A request that was served, with the metric emitted for it. -/
abbrev Completion := Job × BatchAwareRequestMetrics

/-- An instance replay as a queueing system: requests to come, a waiting line, requests
in service, and what has been emitted. Requests are values here; there is no heap and
there are no dictionaries. `lostMs` is by how much the clock lags behind the durations. -/
structure Session where
  pending : List SimulationRequest
  arrivals : ℕ := 0
  nowMs : ℚ
  lostMs : ℚ := 0
  iterationId : ℕ := 0
  waiting : List Entry := []
  running : List Job := []
  completed : List Completion := []
  iterationMetrics : List IterationMetrics := []
  transferQueue : SharedLinkFIFOTransferQueue

namespace Session

/-- The requests that have arrived and are not finished. -/
def active (session : Session) : List Entry := session.running.map Job.entry ++ session.waiting

def Idle (session : Session) : Prop := session.waiting = [] ∧ session.running = []

instance (session : Session) : Decidable session.Idle :=
  inferInstanceAs (Decidable (_ ∧ _))

end Session

/-- A request that sat out an iteration of the given length. -/
def RequestState.sitOut (timelineMode : TimelineMode) (durationMs : ℚ) (state : RequestState) :
    RequestState :=
  match timelineMode with
  | .legacy => state
  | .progressive => { state with computeWaitMs := state.computeWaitMs + durationMs }

def Entry.sitOut (timelineMode : TimelineMode) (durationMs : ℚ) (entry : Entry) : Entry :=
  { entry with state := entry.state.sitOut timelineMode durationMs }

def Job.sitOut (timelineMode : TimelineMode) (durationMs : ℚ) (job : Job) : Job :=
  { job with state := job.state.sitOut timelineMode durationMs }

@[simp] theorem RequestState.sitOut_request_id (timelineMode : TimelineMode) (durationMs : ℚ)
    (state : RequestState) : (state.sitOut timelineMode durationMs).requestId = state.requestId := by
  cases timelineMode <;> rfl

@[simp] theorem RequestState.sitOut_seq (timelineMode : TimelineMode) (durationMs : ℚ)
    (state : RequestState) :
    (state.sitOut timelineMode durationMs).arrivalSeq = state.arrivalSeq := by
  cases timelineMode <;> rfl

@[simp] theorem Entry.sitOut_id (timelineMode : TimelineMode) (durationMs : ℚ) (entry : Entry) :
    (entry.sitOut timelineMode durationMs).id = entry.id := RequestState.sitOut_request_id ..

@[simp] theorem Entry.sitOut_seq (timelineMode : TimelineMode) (durationMs : ℚ) (entry : Entry) :
    (entry.sitOut timelineMode durationMs).seq = entry.seq := RequestState.sitOut_seq ..

@[simp] theorem Job.sitOut_id (timelineMode : TimelineMode) (durationMs : ℚ) (job : Job) :
    (job.sitOut timelineMode durationMs).id = job.id := RequestState.sitOut_request_id ..

@[simp] theorem Job.sitOut_seq (timelineMode : TimelineMode) (durationMs : ℚ) (job : Job) :
    (job.sitOut timelineMode durationMs).seq = job.seq := RequestState.sitOut_seq ..

@[simp] theorem Job.sitOut_remaining (timelineMode : TimelineMode) (durationMs : ℚ) (job : Job) :
    (job.sitOut timelineMode durationMs).state.remaining = job.state.remaining := by
  cases timelineMode <;> rfl

def Entry.arrive (timelineMode : TimelineMode) (nowMs lostMs : ℚ) (request : SimulationRequest)
    (seq : ℕ) : Except ReplayError Entry := do
  let state ← stateFromRequest request seq timelineMode
  let state ← recordInitialComputeWait state nowMs
  return { request, state, lostMs }

/-- The requests that have arrived by now, and those still to come. -/
def arrivals (timelineMode : TimelineMode) (nowMs lostMs : ℚ) : ℕ → List SimulationRequest →
    Except ReplayError (List Entry × List SimulationRequest)
  | _, [] => .ok ([], [])
  | seq, request :: pending =>
    if request.startTimeMs ≤ nowMs then do
      let entry ← Entry.arrive timelineMode nowMs lostMs request seq
      let rest ← arrivals timelineMode nowMs lostMs (seq + 1) pending
      return (entry :: rest.1, rest.2)
    else .ok ([], request :: pending)

/-- Finish a request that has nothing to compute and nothing to load. -/
def Job.complete (nowMs : ℚ) (job : Job) : Except ReplayError Completion := do
  let job := { job with state := finishZeroMiss nowMs job.state }
  let metric ← buildRequestMetrics job.request job.state job.lookup
  return (job, metric)

/-- Admit a request into service. -/
def Job.enter (nowMs : ℚ) (job : Job) : Job :=
  { job with state := { job.state with
    status := .running
    firstScheduledTimeMs := some (job.state.firstScheduledTimeMs.getD nowMs) } }

/-- The running requests that the coming batch reaches, each with its tokens, and those
it does not reach. -/
def serve (config : SchedulerConfig) : ℕ → ℕ → List Job → List (Job × ℕ) × List Job
  | _, _, [] => ([], [])
  | tokenBudget, seats, job :: jobs =>
    if tokenBudget = 0 ∨ seats = 0 then ([], job :: jobs)
    else
      let tokens := config.grant job.state.remaining tokenBudget
      let rest := serve config (tokenBudget - tokens) (seats - 1) jobs
      ((job, tokens) :: rest.1, rest.2)

/-- Who of the waiting line is admitted, who finishes at once, and who stays. -/
structure Scan where
  admitted : List (Job × ℕ) := []
  completed : List Completion := []
  waiting : List Entry := []

/-- All that a batch is built from, and what its preparation has finished. -/
structure Frontier extends Scan where
  granted : List (Job × ℕ)
  idle : List Job

/-- Nobody is left on the frontier: all were finished while the batch was prepared. -/
def Frontier.Empty (frontier : Frontier) : Prop :=
  frontier.waiting = [] ∧ frontier.admitted = [] ∧ frontier.granted = [] ∧ frontier.idle = []

instance (frontier : Frontier) : Decidable frontier.Empty :=
  inferInstanceAs (Decidable (_ ∧ _ ∧ _ ∧ _))

/-- What is left of a session when nobody is left on its frontier. -/
def Session.emptied (session : Session) (frontier : Frontier) (nowMs : ℚ) : Session :=
  { session with
    nowMs
    waiting := []
    running := []
    completed := session.completed ++ frontier.completed }

/-- The admitted requests as they enter service. -/
def Frontier.entering (frontier : Frontier) (nowMs : ℚ) : List (Job × ℕ) :=
  frontier.admitted.map fun admitted ↦ (admitted.1.enter nowMs, admitted.2)

def grantedTokens (jobs : List (Job × ℕ)) : ℕ := (jobs.map Prod.snd).sum

/-- Build the slices of a batch, in order. -/
def sliceAll : List (Job × ℕ) → Except ReplayError (List (Job × ScheduledSlice))
  | [] => .ok []
  | (job, tokens) :: jobs => do
    let (slice, state) ← sliceFor job.state tokens
    let rest ← sliceAll jobs
    return ({ job with state }, slice) :: rest

/-- The requests in service during an iteration, in their order, with their slices. -/
def batchOf (granted : List (Job × ScheduledSlice)) (idle : List Job)
    (admitted : List (Job × ScheduledSlice)) : List (Job × Option ScheduledSlice) :=
  granted.map (fun served ↦ (served.1, some served.2)) ++ idle.map (fun job ↦ (job, none)) ++
    admitted.map (fun served ↦ (served.1, some served.2))

/-- The shape of a batch. It starts now, and the clock is never negative. -/
def batchShape (instanceUuid : String) (session : Session) (slices : List ScheduledSlice) :
    Except ReplayError BatchShape :=
  if h : session.nowMs < 0 then .error .negativeShapeStart
  else .ok {
    instanceUuid
    iterationId := session.iterationId
    startTimeMs := session.nowMs
    requestSlices := slices
    start_nonneg := nonneg_of_not_neg h }

/-- The facts about an iteration that all its slices share. -/
structure IterationFacts where
  shape : BatchShape
  breakdown : IterationLatencyBreakdown
  durationMs : ℚ
  finishMs : ℚ

/-- What serving a batch has done. -/
structure Applied where
  running : List Job := []
  completed : List Completion := []
  records : List SliceRecord := []
  transferQueue : SharedLinkFIFOTransferQueue
  totals : IterationTotals

namespace Engine

variable (engine : Engine C K)

/-- Look a waiting request up, unless that was done before. -/
def look (nowMs : ℚ) (entry : Entry) : Replay C K Job :=
  match entry.lookup with
  | some lookup => pure {
      request := entry.request, state := entry.state, lostMs := entry.lostMs, lookup }
  | none => do
    let (state, lookup) ← engine.lookupRequest nowMs entry.state entry.request
    return { request := entry.request, state, lostMs := entry.lostMs, lookup }

/-- Walk down the waiting line while there are seats, until a request does not fit. -/
def scan (nowMs : ℚ) : ℕ → ℕ → List Entry → Replay C K Scan
  | _, _, [] => pure {}
  | tokenBudget, seats, entry :: entries => do
    if seats = 0 then return { waiting := entry :: entries }
    let job ← engine.look nowMs entry
    if job.state.remaining = 0 then
      if job.state.pendingLoad ≠ (0, 0) then
        let rest ← scan nowMs tokenBudget (seats - 1) entries
        return { rest with admitted := (job, 0) :: rest.admitted }
      else
        let completion ← check (job.complete nowMs)
        let rest ← scan nowMs tokenBudget seats entries
        return { rest with completed := completion :: rest.completed }
    else
      let tokens := engine.config.grant job.state.remaining tokenBudget
      if tokens = 0 then return { waiting := job.entry :: entries }
      let rest ← scan nowMs (tokenBudget - tokens) (seats - 1) entries
      return { rest with admitted := (job, tokens) :: rest.admitted }

/-- Serve the running requests first; the waiting line is scanned if tokens are left. -/
def frontier (session : Session) : Replay C K Frontier := do
  let served := serve engine.config engine.config.maxNumBatchedTokens engine.config.maxNumSeqs
    session.running
  let tokenBudget := engine.config.maxNumBatchedTokens - grantedTokens served.1
  if tokenBudget = 0 then
    return { granted := served.1, idle := served.2, waiting := session.waiting }
  let scan ← engine.scan session.nowMs tokenBudget (engine.config.maxNumSeqs - served.1.length)
    session.waiting
  return { scan with granted := served.1, idle := served.2 }

/-- Apply the slices of a batch to their requests. A request without a slice sits it out. -/
def applyBatch (facts : IterationFacts) : List (Job × Option ScheduledSlice) →
    SharedLinkFIFOTransferQueue → IterationTotals → Replay C K Applied
  | [], transferQueue, totals => pure { transferQueue, totals }
  | (job, none) :: batch, transferQueue, totals => do
    let applied ← applyBatch facts batch transferQueue totals
    return { applied with
      running := job.sitOut engine.timelineMode facts.durationMs :: applied.running }
  | (job, some slice) :: batch, transferQueue, totals => do
    let (progress, metric) ← engine.applySlice facts.shape.startTimeMs facts.finishMs slice
      (sliceContribution facts.breakdown facts.shape slice) job.state job.lookup
      (.ok job.request) transferQueue totals
    let served := { job with
      state := progress.state
      services := job.services ++
        [{ slice, durationMs := facts.durationMs, record := progress.record }] }
    let applied ← applyBatch facts batch progress.queue progress.totals
    let applied := { applied with records := progress.record :: applied.records }
    match metric with
    | some metric => return { applied with completed := (served, metric) :: applied.completed }
    | none => return { applied with running := served :: applied.running }

/-- The requests that sit an iteration out, and their wait. -/
def sittingOut (durationMs : ℚ) (requests : ℕ) : ComputeWaitAccounting :=
  match engine.timelineMode with
  | .legacy => {}
  | .progressive => {
    waitingForComputeCount := requests
    computeWaitMs := requests * durationMs }

/-- One iteration: a batch of the requests on the frontier is run. -/
def iterate (instanceUuid : String) (session : Session) (frontier : Frontier) :
    Replay C K Session := do
  let granted ← check (sliceAll frontier.granted)
  let admitted ← check (sliceAll (frontier.entering session.nowMs))
  let shape ← check (batchShape instanceUuid session ((granted ++ admitted).map Prod.snd))
  if shape.batchSize = 0 then throw .emptyBatch
  let latency ← engine.estimateLatency shape
  let finishMs := engine.clock.add session.nowMs latency.durationMs
  let breakdown ← check (latencyBreakdownFromResult latency)
  let applied ← engine.applyBatch { shape, breakdown, durationMs := latency.durationMs, finishMs }
    (batchOf granted frontier.idle admitted) session.transferQueue {}
  let metric ← check (buildIterationMetrics shape latency finishMs engine.timelineMode
    (engine.sittingOut latency.durationMs (frontier.waiting.length + frontier.idle.length))
    applied.totals)
  record (.iteration {
    shape
    durationMs := latency.durationMs
    finishTimeMs := finishMs
    linkFreeMs := applied.transferQueue.nextAvailableTimeMs
    slices := applied.records })
  engine.drainCacheEvents
  return { session with
    nowMs := finishMs
    lostMs := session.lostMs + (session.nowMs + latency.durationMs - finishMs)
    iterationId := session.iterationId + 1
    waiting := frontier.waiting.map (Entry.sitOut engine.timelineMode latency.durationMs)
    running := applied.running
    completed := session.completed ++ frontier.completed ++ applied.completed
    iterationMetrics := session.iterationMetrics ++ [metric]
    transferQueue := applied.transferQueue }

/-- The requests that have come by now join the waiting line. -/
def receive (session : Session) : Except ReplayError Session := do
  let (entries, pending) ←
    arrivals engine.timelineMode session.nowMs session.lostMs session.arrivals session.pending
  return { session with
    pending
    arrivals := session.arrivals + entries.length
    waiting := session.waiting ++ entries }

/-- One pass of the queueing system. -/
def pass (instanceUuid : String) (session : Session) : Replay C K (Flow Session) := do
  let session ← check (engine.receive session)
  if session.Idle then
    match session.pending with
    | [] => return .stop session
    | request :: _ => return .proceed { session with nowMs := request.startTimeMs }
  else
    let frontier ← engine.frontier session
    engine.drainCacheEvents
    if frontier.Empty then
      match session.pending with
      | [] => return .stop (session.emptied frontier session.nowMs)
      | request :: _ =>
        return .proceed (session.emptied frontier (max session.nowMs request.startTimeMs))
    else
      return .proceed (← engine.iterate instanceUuid session frontier)

/-- At most `fuel` passes, until there is nothing left to serve. -/
def serveAll (instanceUuid : String) : ℕ → Session → Replay C K Session
  | 0, _ => throw .outOfFuel
  | fuel + 1, session =>
    if session.pending = [] ∧ session.Idle then pure session
    else do
      match ← engine.pass instanceUuid session with
      | .stop session => return session
      | .proceed session => serveAll instanceUuid fuel session

end Engine

end InferTwin
