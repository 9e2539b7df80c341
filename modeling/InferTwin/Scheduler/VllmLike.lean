import InferTwin.Scheduler.BatchShape
import Mathlib.Logic.Function.Basic
import Mathlib.Order.Lattice

namespace InferTwin

structure SchedulerConfig where
  maxNumBatchedTokens : ℕ
  maxNumSeqs : ℕ
  enableChunkedPrefill : Bool := true
  longPrefillTokenThreshold : Option ℕ := none
  tokens_pos : 0 < maxNumBatchedTokens
  seqs_pos : 0 < maxNumSeqs
  threshold_pos : ∀ t ∈ longPrefillTokenThreshold, 0 < t

/-- The maximum prefill tokens one request may receive in an iteration. -/
def SchedulerConfig.perRequestChunkLimit (config : SchedulerConfig) : ℕ :=
  if config.enableChunkedPrefill then
    match config.longPrefillTokenThreshold with
    | none => config.maxNumBatchedTokens
    | some threshold => min config.maxNumBatchedTokens threshold
  else config.maxNumBatchedTokens

def plannedPrefillTokens (config : SchedulerConfig) (state : RequestState) (tokenBudget : ℕ) :
    Except ReplayError ℕ :=
  if tokenBudget = 0 then .ok 0
  else do
    let remaining ← state.remainingPrefillTokens
    if remaining = 0 then return 0
    if !config.enableChunkedPrefill && decide (remaining > tokenBudget) then return 0
    return min (min remaining tokenBudget) config.perRequestChunkLimit

def canScheduleLoadOnly (state : RequestState) : Except ReplayError Bool := do
  if (← state.remainingPrefillTokens) = 0 then state.hasPendingKvLoad else return false

/-- The prefill tokens a looked-up request is given, from what it lacks and the budget. -/
def SchedulerConfig.grant (config : SchedulerConfig) (remaining tokenBudget : ℕ) : ℕ :=
  if config.enableChunkedPrefill = false ∧ tokenBudget < remaining then 0
  else min (min remaining tokenBudget) config.perRequestChunkLimit

namespace SchedulerConfig

variable (config : SchedulerConfig)

theorem chunk_limit_pos : 0 < config.perRequestChunkLimit := by
  have ht := config.tokens_pos
  unfold perRequestChunkLimit
  split
  · split
    · exact ht
    · rename_i threshold he
      exact lt_min ht (config.threshold_pos threshold he)
  · exact ht

theorem grant_le_remaining (remaining tokenBudget : ℕ) :
    config.grant remaining tokenBudget ≤ remaining := by
  unfold grant
  split_ifs <;> omega

theorem grant_le_budget (remaining tokenBudget : ℕ) :
    config.grant remaining tokenBudget ≤ tokenBudget := by
  unfold grant
  split_ifs <;> omega

theorem grant_le_limit (remaining tokenBudget : ℕ) :
    config.grant remaining tokenBudget ≤ config.perRequestChunkLimit := by
  unfold grant
  split_ifs <;> omega

theorem grant_pos {remaining tokenBudget : ℕ} (hr : 0 < remaining) (hb : 0 < tokenBudget)
    (hc : config.enableChunkedPrefill = true ∨ remaining ≤ tokenBudget) :
    0 < config.grant remaining tokenBudget := by
  have hl := config.chunk_limit_pos
  unfold grant
  split_ifs with h
  · rcases hc with hc | hc
    · simp [hc] at h
    · omega
  · omega

/-- With chunking disabled a grant is everything that is left, or nothing. -/
theorem grant_unchunked {remaining tokenBudget : ℕ} (hc : config.enableChunkedPrefill = false)
    (hb : tokenBudget ≤ config.maxNumBatchedTokens) :
    config.grant remaining tokenBudget = if tokenBudget < remaining then 0 else remaining := by
  have hl : config.perRequestChunkLimit = config.maxNumBatchedTokens := by
    simp [perRequestChunkLimit, hc]
  simp only [grant, hl, hc, true_and]
  split_ifs <;> omega

end SchedulerConfig

namespace RequestState.LookedUp

variable {state : RequestState}

theorem planned_eq (h : state.LookedUp) (config : SchedulerConfig) (tokenBudget : ℕ) :
    plannedPrefillTokens config state tokenBudget =
      .ok (config.grant state.remaining tokenBudget) := by
  unfold plannedPrefillTokens SchedulerConfig.grant
  rw [h.remaining_eq]
  by_cases hb : tokenBudget = 0
  · subst hb
    simp
  by_cases hr : state.remaining = 0
  · simp [hb, hr, bind, Except.bind, pure, Except.pure]
  · cases hc : config.enableChunkedPrefill
    · by_cases hlt : tokenBudget < state.remaining
      · simp [hb, hr, hlt, bind, Except.bind, pure, Except.pure]
      · simp [hb, hr, hlt, bind, Except.bind, pure, Except.pure]
    · simp [hb, hr, bind, Except.bind, pure, Except.pure]

theorem load_only_eq (h : state.LookedUp) :
    canScheduleLoadOnly state =
      .ok (decide (state.remaining = 0 ∧ state.pendingLoad ≠ (0, 0))) := by
  unfold canScheduleLoadOnly
  rw [h.remaining_eq, h.has_pending_eq]
  by_cases hr : state.remaining = 0
  · simp [hr, bind, Except.bind]
  · simp [hr, bind, Except.bind, pure, Except.pure]

end RequestState.LookedUp

/-- Build the slice of one scheduled request; building it consumes the pending KV load. -/
def sliceFor (state : RequestState) (scheduledTokens : ℕ) :
    Except ReplayError (ScheduledSlice × RequestState) :=
  if hc : state.numComputedTokens < state.cachedTokens then
    .error (.computedBelowCached state.requestId)
  else do
    let (kvLoad, consumed) ← state.consumePendingKvLoad
    if hw : scheduledTokens = 0 ∧ kvLoad.1 = 0 ∧ kvLoad.2 = 0 then throw .zeroTokenSlice
    else if ha : state.promptTokens < state.numComputedTokens + scheduledTokens then
      throw .computedAfterExceedsPrompt
    else return ({
      requestId := state.requestId
      scheduledPrefillTokens := scheduledTokens
      computedTokensBefore := state.numComputedTokens
      computedTokensAfter := state.numComputedTokens + scheduledTokens
      promptTokens := state.promptTokens
      cachedPrefixTokens := state.cachedTokens
      previousChunkTokens := state.numComputedTokens - state.cachedTokens
      kvLoadTokens := kvLoad.1
      kvLoadBytes := kvLoad.2
      has_work := hw
      before_eq := by omega
      after_eq := rfl
      after_le := by omega }, consumed)

/-- What a slice says about the request it was built for. -/
structure ScheduledSlice.Describes (slice : ScheduledSlice) (state : RequestState)
    (scheduledTokens : ℕ) : Prop where
  id_eq : slice.requestId = state.requestId
  tokens_eq : slice.scheduledPrefillTokens = scheduledTokens
  before_eq : slice.computedTokensBefore = state.numComputedTokens
  prompt_eq : slice.promptTokens = state.promptTokens
  cached_eq : slice.cachedPrefixTokens = state.cachedTokens
  load_eq : (slice.kvLoadTokens, slice.kvLoadBytes) = state.pendingLoad

theorem slice_for_ok {state : RequestState} (h : state.LookedUp) {scheduledTokens : ℕ}
    {slice : ScheduledSlice} {state' : RequestState}
    (hs : sliceFor state scheduledTokens = .ok (slice, state')) :
    slice.Describes state scheduledTokens ∧ state' = state.consumed := by
  unfold sliceFor at hs
  rw [h.consume_eq] at hs
  simp only [bind, Except.bind] at hs
  split_ifs at hs with hc hw ha
  simp only [pure, Except.pure, Except.ok.injEq, Prod.mk.injEq] at hs
  obtain ⟨rfl, rfl⟩ := hs
  exact ⟨⟨rfl, rfl, rfl, rfl, rfl, rfl⟩, rfl⟩

theorem slice_for_exists {state : RequestState} (h : state.LookedUp) {scheduledTokens : ℕ}
    (hc : state.cachedTokens ≤ state.numComputedTokens)
    (hp : state.numComputedTokens ≤ state.promptTokens)
    (hr : scheduledTokens ≤ state.remaining)
    (hw : scheduledTokens ≠ 0 ∨ state.pendingLoad ≠ (0, 0)) :
    ∃ slice, sliceFor state scheduledTokens = .ok (slice, state.consumed) := by
  have hw' : ¬(scheduledTokens = 0 ∧ state.pendingLoad.1 = 0 ∧ state.pendingLoad.2 = 0) := by
    rintro ⟨h₁, h₂, h₃⟩
    rcases hw with hw | hw
    · exact hw h₁
    · exact hw (Prod.ext h₂ h₃)
  have ha : ¬ state.promptTokens < state.numComputedTokens + scheduledTokens := by
    unfold RequestState.remaining at hr
    omega
  unfold sliceFor
  rw [h.consume_eq, dif_neg (not_lt.mpr hc)]
  simp only [bind, Except.bind]
  rw [dif_neg hw', dif_neg ha]
  exact ⟨_, rfl⟩

/-- The request objects of a replay, by reference. A reference is the arrival number of
the request, and every queue and dictionary of the replay holds references. -/
abbrev Heap := ℕ → RequestState

/-- The scheduler's loop over the running requests. -/
def scheduleRunning (config : SchedulerConfig) :
    List ℕ → ℕ → List ScheduledSlice → Heap →
      Except ReplayError (ℕ × List ScheduledSlice × Heap)
  | [], tokenBudget, slices, heap => .ok (tokenBudget, slices, heap)
  | ref :: refs, tokenBudget, slices, heap =>
    if slices.length ≥ config.maxNumSeqs then .ok (tokenBudget, slices, heap)
    else if (heap ref).status ≠ .running then
      scheduleRunning config refs tokenBudget slices heap
    else do
      let loadOnly ← canScheduleLoadOnly (heap ref)
      if tokenBudget = 0 ∧ loadOnly = false then return (tokenBudget, slices, heap)
      let scheduledTokens ← plannedPrefillTokens config (heap ref) tokenBudget
      if scheduledTokens = 0 ∧ loadOnly = false then
        scheduleRunning config refs tokenBudget slices heap
      else
        let (slice, state) ← sliceFor (heap ref) scheduledTokens
        scheduleRunning config refs (tokenBudget - scheduledTokens) (slices ++ [slice])
          (Function.update heap ref state)

/-- Queues and objects after a call of the scheduler. -/
structure Admission where
  waiting : List ℕ
  running : List ℕ
  heap : Heap

/-- The scheduler's loop over the waiting queue: admit from the front while it fits. -/
def scheduleWaiting (config : SchedulerConfig) (startTimeMs : ℚ) :
    List ℕ → List ℕ → ℕ → List ScheduledSlice → Heap →
      Except ReplayError (List ScheduledSlice × Admission)
  | [], running, _, slices, heap => .ok (slices, ⟨[], running, heap⟩)
  | ref :: refs, running, tokenBudget, slices, heap =>
    if slices.length ≥ config.maxNumSeqs then .ok (slices, ⟨ref :: refs, running, heap⟩)
    else if (heap ref).status ≠ .waiting then .error (.notWaiting (heap ref).requestId)
    else if tokenBudget = 0 ∧ (heap ref).cacheLookupDone = false then
      .ok (slices, ⟨ref :: refs, running, heap⟩)
    else do
      let loadOnly ← canScheduleLoadOnly (heap ref)
      if tokenBudget = 0 ∧ loadOnly = false then
        return (slices, ⟨ref :: refs, running, heap⟩)
      let scheduledTokens ← plannedPrefillTokens config (heap ref) tokenBudget
      if scheduledTokens = 0 ∧ loadOnly = false then
        return (slices, ⟨ref :: refs, running, heap⟩)
      let admitted := { heap ref with
        status := .running
        firstScheduledTimeMs := some ((heap ref).firstScheduledTimeMs.getD startTimeMs) }
      let (slice, state) ← sliceFor admitted scheduledTokens
      scheduleWaiting config startTimeMs refs (running ++ [ref]) (tokenBudget - scheduledTokens)
        (slices ++ [slice]) (Function.update heap ref state)

/-- One call of the FCFS scheduler. -/
def schedule (config : SchedulerConfig) (instanceUuid : String) (iterationId : ℕ)
    (startTimeMs : ℚ) (waiting running : List ℕ) (heap : Heap) :
    Except ReplayError (BatchShape × Admission) := do
  let (tokenBudget, slices, heap) ←
    scheduleRunning config running config.maxNumBatchedTokens [] heap
  let (slices, admission) ←
    scheduleWaiting config startTimeMs waiting running tokenBudget slices heap
  if h : startTimeMs < 0 then throw .negativeShapeStart
  else return ({
    instanceUuid, iterationId, startTimeMs, requestSlices := slices,
    start_nonneg := nonneg_of_not_neg h }, admission)

end InferTwin
