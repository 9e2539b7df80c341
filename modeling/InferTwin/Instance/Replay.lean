import InferTwin.Cache.CachedTokenAccounting
import InferTwin.Cache.Tiered
import InferTwin.Replay.Engine
import InferTwin.Replay.Metrics

namespace InferTwin

open Effect

structure RequestMetrics where
  requestId : String
  tenantId : String
  instanceUuid : String
  model : String
  tokenizerProfile : String
  promptTokens : ℕ
  promptBlocks : ℕ
  hbmHitTokens : ℕ
  ddrHitTokens : ℕ
  missTokens : ℕ
  effectiveHitRate : ℚ
  ttftMs : ℚ
  finishTimeMs : ℚ
  deriving DecidableEq, Repr

/-- Blocks that become visible when a request finishes. Events are ordered by their finish time,
then by their sequence number. -/
structure MaterializeEvent where
  finishTimeMs : ℚ
  sequence : ℕ
  instanceUuid : String
  blocks : List PrefixBlock
  deriving DecidableEq, Repr

def MaterializeEvent.sortKey (event : MaterializeEvent) : ℚ ×ₗ ℕ :=
  toLex (event.finishTimeMs, event.sequence)

/-- The mutable objects of an engine. The heap of the source, whose keys are all different, is
the list of its events in the order in which they are popped. -/
structure InfiniteReplayState where
  instances : Dict String InfiniteState := ∅
  events : List MaterializeEvent := []
  sequence : ℕ := 0

structure InfiniteHBMReplayEngine where
  defaultTtftMs : ℚ := 0
  clock : Clock := .exact

abbrev InfiniteReplay := EStateM ReplayError InfiniteReplayState

/-- A computation on the cache of one instance, which is created when it is first used. -/
def onCacheFor {α : Type} (instanceUuid : String) (x : EStateM CacheError InfiniteState α) :
    InfiniteReplay α :=
  zoom .cache (fun state ↦ (state.instances.lookup instanceUuid).getD ∅)
    (fun cache state ↦ { state with instances := state.instances.insert instanceUuid cache }) x

namespace InfiniteHBMReplayEngine

/-- The loop over the heap; the list is what is left in it. -/
def flushEvents (nowMs : WithTop ℚ) : List MaterializeEvent → InfiniteReplay Unit
  | [] => pure ()
  | event :: events => do
    if event.finishTimeMs ≤ nowMs then
      modify fun state ↦ { state with events }
      onCacheFor event.instanceUuid
        (InfiniteHBMCache.materialize event.blocks event.finishTimeMs "" ""
          "finish_time_materialization")
      flushEvents nowMs events

def flushEventsUntil (nowMs : WithTop ℚ) : InfiniteReplay Unit := do
  flushEvents nowMs (← get).events

def scheduleMaterialize (instanceUuid : String) (blocks : List PrefixBlock) (finishTimeMs : ℚ) :
    InfiniteReplay Unit := do
  if blocks ≠ [] then
    modify fun state ↦ { state with
      sequence := state.sequence + 1
      events := state.events.orderedInsert (fun a b ↦ a.sortKey ≤ b.sortKey) {
        finishTimeMs
        sequence := state.sequence + 1
        instanceUuid
        blocks } }

variable (engine : InfiniteHBMReplayEngine)

def finishTimeMs (request : SimulationRequest) : ℚ :=
  engine.clock.add request.startTimeMs engine.defaultTtftMs

/-- The metrics of a request with an accounted lookup. -/
def requestMetrics (request : SimulationRequest) (accounted : AccountedLookupResult) :
    RequestMetrics where
  requestId := request.requestId
  tenantId := request.tenantId
  instanceUuid := request.instanceUuid
  model := request.model
  tokenizerProfile := request.tokenizerProfile
  promptTokens := request.promptTokens
  promptBlocks := request.promptBlocks.length
  hbmHitTokens := accounted.hbmHitTokens
  ddrHitTokens := accounted.ddrHitTokens
  missTokens := accounted.missTokens
  effectiveHitRate := safeRate (accounted.hbmHitTokens + accounted.ddrHitTokens) request.promptTokens
  ttftMs := engine.defaultTtftMs
  finishTimeMs := engine.finishTimeMs request

/-- The first half of the loop body of `run`. -/
def lookupRequest (request : SimulationRequest) : InfiniteReplay PrefixLookupResult := do
  flushEventsUntil request.startTimeMs
  onCacheFor request.instanceUuid
    (InfiniteHBMCache.lookupPrefix request.promptBlocks request.startTimeMs "" "")

/-- The body of the loop of `run`. -/
def runRequest (request : SimulationRequest) : InfiniteReplay RequestMetrics := do
  let lookup ← lookupRequest request
  let accounted ← check
    (accountPrefixLookup lookup request.promptTokens request.blockConversionResult)
  scheduleMaterialize request.instanceUuid accounted.materializationBlocks
    (engine.finishTimeMs request)
  return engine.requestMetrics request accounted

/-- `sorted` by the service start time. -/
def inServiceOrder (requests : List SimulationRequest) : List SimulationRequest :=
  requests.insertionSort fun a b ↦
    a.serviceStartTime.microseconds ≤ b.serviceStartTime.microseconds

def run (requests : List SimulationRequest) : InfiniteReplay (List RequestMetrics) := do
  let metrics ← calls engine.runRequest (inServiceOrder requests)
  flushEventsUntil ⊤
  return metrics

end InfiniteHBMReplayEngine

end InferTwin
