import InferTwin.Replay.Run

namespace InferTwin

open Effect

variable {C K : Type}

namespace Engine

variable (engine : Engine C K)

/-- The loop of `_run_instance` on a memo that is emptied before each pass: the backend is
called for every iteration. -/
def runLoopUnmemoized (instanceUuid : String) : ℕ → LoopState → Replay C K LoopState
  | 0, _ => throw .outOfFuel
  | fuel + 1, state =>
    if state.pending = [] ∧ state.locals.waiting = [] ∧ state.locals.running = [] then
      pure state
    else do
      modify fun world ↦ { world with memo := ∅ }
      match ← engine.loopBody instanceUuid state with
      | .stop state => return state
      | .proceed state => runLoopUnmemoized instanceUuid fuel state

def runInstanceUnmemoized (instanceUuid : String) (fuel : ℕ) (requests : List SimulationRequest) :
    Replay C K InstanceResult := do
  match SimulationRequest.sorted requests with
  | [] => return {}
  | request :: pending =>
    let queue ← check (SharedLinkFIFOTransferQueue.create instanceUuid)
    let state ← engine.runLoopUnmemoized instanceUuid fuel (initialLoopState queue request pending)
    engine.drainCacheEvents
    return {
      requestMetrics := state.locals.requestMetrics
      iterationMetrics := state.locals.iterationMetrics }

end Engine

namespace BatchAwareReplayEngine

variable (engine : BatchAwareReplayEngine C K)

def runGroupsUnmemoized (fuel : ℕ) : List (String × List SimulationRequest) →
    EStateM ReplayError (Shared K) InstanceResult
  | [] => pure {}
  | (instanceUuid, requests) :: groups => do
    let result ← onInstance (engine.cacheFactory instanceUuid).2
      ((engine.forInstance instanceUuid).runInstanceUnmemoized instanceUuid fuel requests)
    let rest ← runGroupsUnmemoized fuel groups
    return {
      requestMetrics := result.requestMetrics ++ rest.requestMetrics
      iterationMetrics := result.iterationMetrics ++ rest.iterationMetrics }

/-- The replay that calls the backend for every iteration, whether it has seen the shape
before or not. -/
def runUnmemoized (fuel : ℕ) (requests : List SimulationRequest) :
    EStateM ReplayError (Shared K) BatchAwareReplayResult := do
  let result ← engine.runGroupsUnmemoized fuel (groupByInstance requests)
  let shared ← get
  return {
    requestMetrics := result.requestMetrics.insertionSort fun a b ↦ a.sortKey ≤ b.sortKey
    iterationMetrics := result.iterationMetrics.insertionSort fun a b ↦ a.sortKey ≤ b.sortKey
    cacheEventStats := engine.sink.snapshotStats shared.sink
    cacheEvents := engine.sink.snapshotEvents shared.sink }

end BatchAwareReplayEngine

end InferTwin
