import InferTwin.Replay.Run

namespace InferTwin

open Effect

/-! A replay that keeps a log of the latencies it asks for. The log is a ghost: without it the
replay is the one of the source. -/

/-- One call of `get_or_compute`, and whether it went on to the backend. -/
structure Estimate where
  key : ShapeKey
  computed : Bool
  deriving DecidableEq

/-- A computation beside a log of estimates. -/
abbrev Logged (σ α : Type) := EStateM ReplayError (List Estimate × σ) α

/-- A computation that asks for no latency. -/
def quiet {σ α : Type} (x : EStateM ReplayError σ α) : Logged σ α :=
  zoom id Prod.snd (fun s logged ↦ (logged.1, s)) x

/-- The log goes beside a component of the state. -/
def within {σ τ α : Type} (get : σ → τ) (set : τ → σ → σ) (x : Logged τ α) : Logged σ α :=
  zoom id (fun logged ↦ (logged.1, get logged.2)) (fun inner logged ↦ (inner.1, set inner.2 logged.2))
    x

/-- A logged computation is the other one as soon as the log is forgotten. -/
def Erases {σ α : Type} (x : Logged σ α) (y : EStateM ReplayError σ α) : Prop :=
  Simulates (fun logged s ↦ logged.2 = s) Eq x y

namespace Erases

variable {σ τ α β : Type}

theorem quiet (y : EStateM ReplayError σ α) : Erases (InferTwin.quiet y) y := by
  rintro ⟨log, s⟩ _ rfl
  unfold InferTwin.quiet zoom
  dsimp only
  cases y s with
  | ok a t => exact .ok rfl rfl
  | error e t => exact .error rfl

theorem bind {x : Logged σ α} {y : EStateM ReplayError σ α} {f : α → Logged σ β}
    {g : α → EStateM ReplayError σ β} (h : Erases x y) (hf : ∀ a, Erases (f a) (g a)) :
    Erases (x >>= f) (y >>= g) :=
  Simulates.bind_same h hf

theorem within {get : σ → τ} {set : τ → σ → σ} {x : Logged τ α} {y : EStateM ReplayError τ α}
    (h : Erases x y) : Erases (InferTwin.within get set x) (zoom id get set y) := by
  rintro ⟨log, s⟩ _ rfl
  have hxy := h (log, get s) (get s) rfl
  unfold InferTwin.within zoom
  dsimp only
  generalize x (log, get s) = u at hxy ⊢
  generalize y (get s) = v at hxy ⊢
  cases hxy with
  | ok hw hab =>
    subst hw
    exact .ok rfl hab
  | error hw =>
    subst hw
    exact .error rfl

end Erases

variable {C K : Type}

namespace Engine

variable (engine : Engine C K)

/-- `_estimate_latency`, with its entry in the log. -/
def estimateLatencyLogged (shape : BatchShape) : Logged (World C K) LatencyResult := do
  modify fun logged ↦
    let key := engine.latencyBackend.shapeKey shape
    (logged.1 ++ [{ key, computed := (logged.2.memo.lookup key).isNone }], logged.2)
  quiet (engine.estimateLatency shape)

/-- A pass of the loop that comes to an iteration, up to the call of `_estimate_latency`. -/
structure PlannedPass where
  pending : List SimulationRequest
  pendingIndex : ℕ
  locals : Locals
  shape : BatchShape
  admission : Admission

/-- The first part of the loop body: the pass ends, or an iteration is planned. -/
def planPass (instanceUuid : String) (state : LoopState) :
    Replay C K (Flow LoopState ⊕ PlannedPass) := do
  let (pending, pendingIndex, locals) ←
    check (engine.moveArrivals state.nowMs state.pending state.pendingIndex state.locals)
  if locals.waiting = [] ∧ locals.running = [] then
    match pending with
    | [] => throw .indexOutOfRange
    | request :: _ =>
      return .inl (.proceed { state with
        pending, pendingIndex, locals, nowMs := request.startTimeMs })
  else
    let (_, locals) ← engine.prepareSchedulerFrontier state.nowMs locals
    engine.drainCacheEvents
    if locals.waiting = [] ∧ locals.running = [] then
      match pending with
      | [] => return .inl (.stop { state with pending, pendingIndex, locals })
      | request :: _ =>
        return .inl (.proceed { state with
          pending, pendingIndex, locals, nowMs := max state.nowMs request.startTimeMs })
    else
      let (shape, admission) ← check (schedule engine.config instanceUuid state.iterationId
        state.nowMs locals.waiting locals.running locals.heap)
      if shape.batchSize = 0 then throw .emptyBatch
      return .inr { pending, pendingIndex, locals, shape, admission }

/-- The rest of the loop body, with the latency of the iteration. -/
def finishPass (state : LoopState) (planned : PlannedPass) (latency : LatencyResult) :
    Replay C K (Flow LoopState) := do
  let { pending, pendingIndex, locals, shape, admission } := planned
  let finishMs := engine.clock.add state.nowMs latency.durationMs
  let (computeWait, heap) ← check (recordIterationComputeWait admission.waiting
    admission.running (shape.requestSlices.map ScheduledSlice.requestId) latency.durationMs
    engine.timelineMode admission.heap)
  let locals ← engine.applyScheduleResult shape latency finishMs computeWait { locals with
    heap, waiting := admission.waiting, running := admission.running }
  engine.drainCacheEvents
  return .proceed {
    pending, pendingIndex
    locals := { locals with
      running := locals.running.filter fun ref ↦ (locals.heap ref).status ≠ .finished }
    nowMs := finishMs
    iterationId := state.iterationId + 1 }

theorem loop_body_eq (instanceUuid : String) (state : LoopState) :
    engine.loopBody instanceUuid state = (do
      match ← engine.planPass instanceUuid state with
      | .inl flow => pure flow
      | .inr planned =>
        let latency ← engine.estimateLatency planned.shape
        engine.finishPass state planned latency) := by
  unfold loopBody planPass
  simp only [bind_assoc]
  refine bind_congr fun moved ↦ ?_
  obtain ⟨pending, pendingIndex, locals⟩ := moved
  dsimp only
  split_ifs
  · cases pending <;> rfl
  simp only [bind_assoc]
  refine bind_congr fun prepared ↦ bind_congr fun _ ↦ ?_
  obtain ⟨frontier, locals⟩ := prepared
  dsimp only
  split_ifs
  · cases pending <;> rfl
  unfold runIteration finishPass
  simp only [bind_assoc]
  refine bind_congr fun scheduled ↦ ?_
  obtain ⟨shape, admission⟩ := scheduled
  dsimp only
  split_ifs
  · rfl
  · simp only [bind_assoc, pure_bind]

def loopBodyLogged (instanceUuid : String) (state : LoopState) :
    Logged (World C K) (Flow LoopState) := do
  match ← quiet (engine.planPass instanceUuid state) with
  | .inl flow => return flow
  | .inr planned =>
    let latency ← engine.estimateLatencyLogged planned.shape
    quiet (engine.finishPass state planned latency)

def runLoopLogged (instanceUuid : String) : ℕ → LoopState → Logged (World C K) LoopState
  | 0, _ => throw .outOfFuel
  | fuel + 1, state =>
    if state.pending = [] ∧ state.locals.waiting = [] ∧ state.locals.running = [] then
      pure state
    else do
      match ← engine.loopBodyLogged instanceUuid state with
      | .stop state => return state
      | .proceed state => runLoopLogged instanceUuid fuel state

def runInstanceLogged (instanceUuid : String) (fuel : ℕ) (requests : List SimulationRequest) :
    Logged (World C K) InstanceResult := do
  match SimulationRequest.sorted requests with
  | [] => return {}
  | request :: pending =>
    let queue ← quiet (check (SharedLinkFIFOTransferQueue.create instanceUuid))
    let state ← engine.runLoopLogged instanceUuid fuel (initialLoopState queue request pending)
    quiet engine.drainCacheEvents
    return {
      requestMetrics := state.locals.requestMetrics
      iterationMetrics := state.locals.iterationMetrics }

theorem estimate_latency_erases (shape : BatchShape) :
    Erases (engine.estimateLatencyLogged shape) (engine.estimateLatency shape) := by
  rintro ⟨log, world⟩ _ rfl
  exact Erases.quiet (engine.estimateLatency shape) (log ++ [_], world) world rfl

theorem loop_body_erases (instanceUuid : String) (state : LoopState) :
    Erases (engine.loopBodyLogged instanceUuid state) (engine.loopBody instanceUuid state) := by
  rw [loop_body_eq]
  refine (Erases.quiet _).bind fun planned ↦ ?_
  cases planned with
  | inl flow => exact .pure rfl
  | inr planned =>
    exact (engine.estimate_latency_erases planned.shape).bind fun latency ↦ .quiet _

theorem run_loop_erases (instanceUuid : String) (fuel : ℕ) (state : LoopState) :
    Erases (engine.runLoopLogged instanceUuid fuel state)
      (engine.runLoop instanceUuid fuel state) := by
  induction fuel generalizing state with
  | zero => exact .throw _
  | succ fuel ih =>
    unfold runLoopLogged runLoop
    split_ifs
    · exact .pure rfl
    refine (engine.loop_body_erases instanceUuid state).bind fun flow ↦ ?_
    cases flow with
    | stop state => exact .pure rfl
    | proceed state => exact ih state

theorem run_instance_erases (instanceUuid : String) (fuel : ℕ)
    (requests : List SimulationRequest) :
    Erases (engine.runInstanceLogged instanceUuid fuel requests)
      (engine.runInstance instanceUuid fuel requests) := by
  unfold runInstanceLogged runInstance
  cases SimulationRequest.sorted requests with
  | nil => exact .pure rfl
  | cons request pending =>
    refine (Erases.quiet _).bind fun queue ↦ ?_
    refine (engine.run_loop_erases instanceUuid fuel _).bind fun state ↦ ?_
    exact (Erases.quiet _).bind fun _ ↦ .pure rfl

end Engine

/-- `onInstance` beside a log. -/
def onInstanceLogged {α : Type} (cache : C) (x : Logged (World C K) α) : Logged (Shared K) α :=
  within (fun shared ↦ { cache, sink := shared.sink, memo := shared.memo })
    (fun world _ ↦ { sink := world.sink, memo := world.memo }) x

namespace BatchAwareReplayEngine

variable (engine : BatchAwareReplayEngine C K)

def runGroupsLogged (fuel : ℕ) : List (String × List SimulationRequest) →
    Logged (Shared K) InstanceResult
  | [] => pure {}
  | (instanceUuid, requests) :: groups => do
    let result ← onInstanceLogged (engine.cacheFactory instanceUuid).2
      ((engine.forInstance instanceUuid).runInstanceLogged instanceUuid fuel requests)
    let rest ← runGroupsLogged fuel groups
    return {
      requestMetrics := result.requestMetrics ++ rest.requestMetrics
      iterationMetrics := result.iterationMetrics ++ rest.iterationMetrics }

def runLogged (fuel : ℕ) (requests : List SimulationRequest) :
    Logged (Shared K) BatchAwareReplayResult := do
  let result ← engine.runGroupsLogged fuel (groupByInstance requests)
  let shared ← quiet get
  return {
    requestMetrics := result.requestMetrics.insertionSort fun a b ↦ a.sortKey ≤ b.sortKey
    iterationMetrics := result.iterationMetrics.insertionSort fun a b ↦ a.sortKey ≤ b.sortKey
    cacheEventStats := engine.sink.snapshotStats shared.sink
    cacheEvents := engine.sink.snapshotEvents shared.sink }

theorem run_groups_erases (fuel : ℕ) (groups : List (String × List SimulationRequest)) :
    Erases (engine.runGroupsLogged fuel groups) (engine.runGroups fuel groups) := by
  induction groups with
  | nil => exact .pure rfl
  | cons group groups ih =>
    obtain ⟨instanceUuid, requests⟩ := group
    unfold runGroupsLogged runGroups
    refine Erases.bind ?_ fun result ↦ Erases.bind ih fun rest ↦ .pure rfl
    exact Erases.within
      ((engine.forInstance instanceUuid).run_instance_erases instanceUuid fuel requests)

/-- Without its log, a logged run is a run. -/
theorem run_erases (fuel : ℕ) (requests : List SimulationRequest) :
    Erases (engine.runLogged fuel requests) (engine.run fuel requests) := by
  unfold runLogged run
  exact (engine.run_groups_erases fuel _).bind fun result ↦ (Erases.quiet _).bind fun shared ↦
    .pure rfl

end BatchAwareReplayEngine

end InferTwin
