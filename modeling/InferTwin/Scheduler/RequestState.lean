import InferTwin.Errors
import InferTwin.Request.SimulationRequest

namespace InferTwin

inductive TimelineMode
  | legacy | progressive
  deriving DecidableEq, Repr

def TimelineMode.value : TimelineMode → String
  | legacy => "legacy_iteration_v1"
  | progressive => "batch_aware_hbm_ddr_lru_progressive_timeline"

inductive TtftGranularity
  | iteration | chunk
  deriving DecidableEq, Repr

inductive RequestTimelineState
  | pending | waitingForCompute | waitingForKvLoad | runningChunk | finished
  deriving DecidableEq, Repr

inductive RequestStatus
  | waiting | running | finished
  deriving DecidableEq, Repr

/-- The mutable object that follows one request through an instance replay. -/
structure RequestState where
  requestId : String
  tenantId : String
  instanceUuid : String
  arrivalTimeMs : ℚ
  promptTokens : ℕ
  promptBlocks : List PrefixBlock := []
  effectiveBlockSize : ℕ := 0
  model : String := ""
  tokenizerProfile : String := ""
  arrivalSeq : ℕ := 0
  status : RequestStatus := .waiting
  cacheLookupDone : Bool := false
  cachedTokens : ℕ := 0
  missTokens : Option ℕ := none
  numComputedTokens : ℕ := 0
  firstScheduledTimeMs : Option ℚ := none
  finishTimeMs : Option ℚ := none
  scheduledIterationCount : ℕ := 0
  pendingKvLoadTokens : ℕ := 0
  pendingKvLoadBytes : ℕ := 0
  kvLoadScheduled : Bool := false
  prefillComputeMs : ℚ := 0
  kvLoadMs : ℚ := 0
  queueMs : ℚ := 0
  timelineMode : TimelineMode := .legacy
  timelineState : RequestTimelineState := .waitingForCompute
  computeWaitMs : ℚ := 0
  kvLoadWaitMs : ℚ := 0
  unattributedTtftMs : ℚ := 0
  chunkCount : ℕ := 0
  loadEventCount : ℕ := 0
  progressiveMaterializedBlocks : ℕ := 0
  progressiveMaterializedTokens : ℕ := 0
  progressiveMaterializedBlockKeys : List String := []
  deriving DecidableEq, Repr

instance : Inhabited RequestState :=
  ⟨{ requestId := "", tenantId := "", instanceUuid := "", arrivalTimeMs := 0, promptTokens := 0 }⟩

namespace RequestState

def setCacheLookup (state : RequestState) (cachedTokens missTokens kvLoadTokens kvLoadBytes : ℕ) :
    Except ReplayError RequestState :=
  if state.cacheLookupDone then .error (.lookupAlreadyRecorded state.requestId)
  else if cachedTokens + missTokens ≠ state.promptTokens then .error .lookupTokensMismatch
  else .ok { state with
    cachedTokens
    missTokens := some missTokens
    numComputedTokens := cachedTokens
    pendingKvLoadTokens := kvLoadTokens
    pendingKvLoadBytes := kvLoadBytes
    kvLoadScheduled := false
    cacheLookupDone := true }

def requireCacheLookup (state : RequestState) : Except ReplayError Unit :=
  if !state.cacheLookupDone || state.missTokens.isNone then
    .error (.lookupRequired state.requestId)
  else .ok ()

def hasPendingKvLoad (state : RequestState) : Except ReplayError Bool := do
  state.requireCacheLookup
  return !state.kvLoadScheduled &&
    (decide (state.pendingKvLoadTokens > 0) || decide (state.pendingKvLoadBytes > 0))

def consumePendingKvLoad (state : RequestState) :
    Except ReplayError ((ℕ × ℕ) × RequestState) := do
  if ← state.hasPendingKvLoad then
    return ((state.pendingKvLoadTokens, state.pendingKvLoadBytes),
      { state with pendingKvLoadTokens := 0, pendingKvLoadBytes := 0, kvLoadScheduled := true })
  else return ((0, 0), state)

def recordLatencyContribution (state : RequestState) (prefillComputeMs kvLoadMs queueMs : ℚ) :
    Except ReplayError RequestState :=
  if prefillComputeMs < 0 ∨ kvLoadMs < 0 ∨ queueMs < 0 then .error .negativeLatencyContribution
  else .ok { state with
    prefillComputeMs := state.prefillComputeMs + prefillComputeMs
    kvLoadMs := state.kvLoadMs + kvLoadMs
    queueMs := state.queueMs + queueMs }

def recordComputeWait (state : RequestState) (durationMs : ℚ) : Except ReplayError RequestState :=
  if durationMs < 0 then .error .negativeComputeWait
  else .ok { state with computeWaitMs := state.computeWaitMs + durationMs }

def recordKvLoadWait (state : RequestState) (durationMs : ℚ) : Except ReplayError RequestState :=
  if durationMs < 0 then .error .negativeKvLoadWait
  else .ok { state with kvLoadWaitMs := state.kvLoadWaitMs + durationMs }

def recordKvLoadEvent (state : RequestState) (durationMs : ℚ) :
    Except ReplayError RequestState := do
  let state ← state.recordKvLoadWait durationMs
  return { state with loadEventCount := state.loadEventCount + 1 }

/-- Count the blocks not counted before; the second component lists them. -/
def recordProgressiveMaterialization (state : RequestState) :
    List PrefixBlock → RequestState × List PrefixBlock
  | [] => (state, [])
  | block :: blocks =>
    if block.blockKey ∈ state.progressiveMaterializedBlockKeys then
      state.recordProgressiveMaterialization blocks
    else
      let rest := recordProgressiveMaterialization { state with
        progressiveMaterializedBlockKeys :=
          state.progressiveMaterializedBlockKeys ++ [block.blockKey]
        progressiveMaterializedBlocks := state.progressiveMaterializedBlocks + 1
        progressiveMaterializedTokens :=
          state.progressiveMaterializedTokens + block.tokenCount } blocks
      (rest.1, block :: rest.2)

def remainingPrefillTokens (state : RequestState) : Except ReplayError ℕ := do
  state.requireCacheLookup
  return state.promptTokens - state.numComputedTokens

def applyScheduledTokens (state : RequestState) (scheduledTokens : ℕ) (finishTimeMs : ℚ) :
    Except ReplayError RequestState := do
  state.requireCacheLookup
  if scheduledTokens = 0 then throw .nonPositiveScheduledTokens
  if finishTimeMs < state.arrivalTimeMs then throw .finishBeforeArrival
  let remaining ← state.remainingPrefillTokens
  if remaining < scheduledTokens then throw .scheduledTokensExceedRemaining
  let state := { state with
    numComputedTokens := state.numComputedTokens + scheduledTokens
    scheduledIterationCount := state.scheduledIterationCount + 1
    chunkCount := state.chunkCount + 1 }
  if state.numComputedTokens = state.promptTokens then
    return { state with
      status := .finished, timelineState := .finished, finishTimeMs := some finishTimeMs }
  else return state

def applyLoadOnlyIteration (state : RequestState) (finishTimeMs : ℚ) :
    Except ReplayError RequestState := do
  state.requireCacheLookup
  if finishTimeMs < state.arrivalTimeMs then throw .finishBeforeArrival
  let remaining ← state.remainingPrefillTokens
  if remaining ≠ 0 then throw .loadOnlyWithRemaining
  return { state with
    scheduledIterationCount := state.scheduledIterationCount + 1
    status := .finished
    timelineState := .finished
    finishTimeMs := some finishTimeMs }

/-- The cache lookup of the request is recorded. -/
structure LookedUp (state : RequestState) : Prop where
  done : state.cacheLookupDone = true
  miss : state.missTokens.isSome = true

/-- The prompt tokens that are neither cached nor computed. -/
def remaining (state : RequestState) : ℕ := state.promptTokens - state.numComputedTokens

/-- The KV load that the next scheduled slice has to carry. -/
def pendingLoad (state : RequestState) : ℕ × ℕ :=
  if state.kvLoadScheduled then (0, 0) else (state.pendingKvLoadTokens, state.pendingKvLoadBytes)

/-- The state in which the pending KV load has been handed to a slice. -/
def consumed (state : RequestState) : RequestState :=
  if state.pendingLoad = (0, 0) then state
  else { state with pendingKvLoadTokens := 0, pendingKvLoadBytes := 0, kvLoadScheduled := true }

theorem LookedUp.require {state : RequestState} (h : state.LookedUp) :
    state.requireCacheLookup = .ok () := by
  have hm := h.miss
  rw [Option.isSome_iff_ne_none] at hm
  simp [requireCacheLookup, h.done, hm]

theorem require_ok_iff {state : RequestState} :
    state.requireCacheLookup = .ok () ↔ state.LookedUp := by
  refine ⟨fun h ↦ ?_, LookedUp.require⟩
  unfold requireCacheLookup at h
  split_ifs at h with hc
  simp only [Bool.or_eq_true, Bool.not_eq_true', Option.isNone_iff_eq_none, not_or,
    Bool.not_eq_false] at hc
  exact ⟨hc.1, Option.isSome_iff_ne_none.mpr hc.2⟩

theorem LookedUp.remaining_eq {state : RequestState} (h : state.LookedUp) :
    state.remainingPrefillTokens = .ok state.remaining := by
  simp [remainingPrefillTokens, h.require, remaining, bind, Except.bind, pure, Except.pure]

theorem LookedUp.has_pending_eq {state : RequestState} (h : state.LookedUp) :
    state.hasPendingKvLoad = .ok (decide (state.pendingLoad ≠ (0, 0))) := by
  have hp : (!state.kvLoadScheduled &&
      (decide (state.pendingKvLoadTokens > 0) || decide (state.pendingKvLoadBytes > 0))) =
        decide (state.pendingLoad ≠ (0, 0)) := by
    unfold pendingLoad
    cases state.kvLoadScheduled
    · simp [Nat.pos_iff_ne_zero, imp_iff_not_or]
    · simp
  simp [hasPendingKvLoad, h.require, hp, bind, Except.bind, pure, Except.pure]

theorem LookedUp.consume_eq {state : RequestState} (h : state.LookedUp) :
    state.consumePendingKvLoad = .ok (state.pendingLoad, state.consumed) := by
  unfold consumePendingKvLoad consumed
  rw [h.has_pending_eq]
  by_cases hp : state.pendingLoad = (0, 0)
  · simp [hp, bind, Except.bind, pure, Except.pure]
  · have hs : state.kvLoadScheduled = false := by
      by_contra hs
      simp [pendingLoad, hs] at hp
    have he : state.pendingLoad = (state.pendingKvLoadTokens, state.pendingKvLoadBytes) := by
      simp [pendingLoad, hs]
    rw [if_neg hp]
    show (if decide (state.pendingLoad ≠ (0, 0)) = true then _ else _) = _
    rw [if_pos (decide_eq_true hp), he]
    rfl

/-- The state after some of the prompt has been computed. -/
def scheduled (state : RequestState) (tokens : ℕ) (finishTimeMs : ℚ) : RequestState :=
  let finished := state.numComputedTokens + tokens = state.promptTokens
  { state with
    numComputedTokens := state.numComputedTokens + tokens
    scheduledIterationCount := state.scheduledIterationCount + 1
    chunkCount := state.chunkCount + 1
    status := if finished then .finished else state.status
    timelineState := if finished then .finished else state.timelineState
    finishTimeMs := if finished then some finishTimeMs else state.finishTimeMs }

theorem LookedUp.apply_scheduled_eq {state : RequestState} (h : state.LookedUp) (tokens : ℕ)
    (finishMs : ℚ) :
    state.applyScheduledTokens tokens finishMs =
      if tokens = 0 then .error .nonPositiveScheduledTokens
      else if finishMs < state.arrivalTimeMs then .error .finishBeforeArrival
      else if state.remaining < tokens then .error .scheduledTokensExceedRemaining
      else .ok (state.scheduled tokens finishMs) := by
  unfold applyScheduledTokens scheduled
  rw [h.require, h.remaining_eq]
  by_cases ht : tokens = 0
  · simp [ht, bind, Except.bind, throw, throwThe, MonadExceptOf.throw]
  by_cases ha : finishMs < state.arrivalTimeMs
  · simp [ht, ha, bind, Except.bind, throw, throwThe, MonadExceptOf.throw]
  by_cases hr : state.remaining < tokens
  · simp [ht, ha, hr, bind, Except.bind, throw, throwThe, MonadExceptOf.throw]
  by_cases hf : state.numComputedTokens + tokens = state.promptTokens
  · simp [ht, ha, hr, hf, bind, Except.bind, pure, Except.pure]
  · simp [ht, ha, hr, hf, bind, Except.bind, pure, Except.pure]

theorem LookedUp.apply_load_only_eq {state : RequestState} (h : state.LookedUp)
    (finishMs : ℚ) :
    state.applyLoadOnlyIteration finishMs =
      if finishMs < state.arrivalTimeMs then .error .finishBeforeArrival
      else if state.remaining ≠ 0 then .error .loadOnlyWithRemaining
      else .ok { state with
        scheduledIterationCount := state.scheduledIterationCount + 1
        status := .finished
        timelineState := .finished
        finishTimeMs := some finishMs } := by
  unfold applyLoadOnlyIteration
  rw [h.require, h.remaining_eq]
  by_cases ha : finishMs < state.arrivalTimeMs
  · simp [ha, bind, Except.bind, throw, throwThe, MonadExceptOf.throw]
  by_cases hr : state.remaining = 0
  · simp [ha, hr, bind, Except.bind, pure, Except.pure]
  · simp [ha, hr, bind, Except.bind, throw, throwThe, MonadExceptOf.throw]

end RequestState

end InferTwin
