import InferTwin.Server.Batch
import InferTwin.Server.Scan

namespace InferTwin

open Effect

variable {C K : Type}

/-- The slices, end to end, cover the tokens of a prompt from `low` to `high`. -/
def Tiles : ℕ → ℕ → List ScheduledSlice → Prop
  | low, high, [] => low = high
  | low, high, slice :: slices =>
    slice.computedTokensBefore = low ∧ Tiles slice.computedTokensAfter high slices

theorem Tiles.concat {low high : ℕ} {slices : List ScheduledSlice} {slice : ScheduledSlice}
    (h : Tiles low high slices) (hs : slice.computedTokensBefore = high) :
    Tiles low slice.computedTokensAfter (slices ++ [slice]) := by
  induction slices generalizing low with
  | nil =>
    cases h
    exact ⟨hs, rfl⟩
  | cons first slices ih => exact ⟨h.1, ih h.2⟩

theorem Tiles.sum {low high : ℕ} {slices : List ScheduledSlice} (h : Tiles low high slices) :
    low + (slices.map ScheduledSlice.scheduledPrefillTokens).sum = high := by
  induction slices generalizing low with
  | nil =>
    cases h
    simp
  | cons slice slices ih =>
    have hrest := ih h.2
    have hafter := slice.after_eq
    have hbefore := h.1
    simp only [List.map_cons, List.sum_cons]
    omega

def ScheduledSlice.load (slice : ScheduledSlice) : ℕ × ℕ :=
  (slice.kvLoadTokens, slice.kvLoadBytes)

/-- The first slice carries the whole KV load and no later one carries any. A load that
no slice carries yet is pending. -/
def LoadsOnce (load pending : ℕ × ℕ) : List ScheduledSlice → Prop
  | [] => pending = load
  | slice :: slices =>
    slice.load = load ∧ pending = (0, 0) ∧ ∀ later ∈ slices, later.load = (0, 0)

theorem LoadsOnce.concat {load pending : ℕ × ℕ} {slices : List ScheduledSlice}
    {slice : ScheduledSlice} (h : LoadsOnce load pending slices) (hs : slice.load = pending) :
    LoadsOnce load (0, 0) (slices ++ [slice]) := by
  cases slices with
  | nil => exact ⟨hs.trans h, rfl, by simp⟩
  | cons first slices =>
    obtain ⟨hfirst, hpending, hlater⟩ := h
    refine ⟨hfirst, rfl, ?_⟩
    intro later hl
    rcases List.mem_append.mp hl with hl | hl
    · exact hlater later hl
    · rw [List.mem_singleton.mp hl, hs, hpending]

namespace RequestState

/-- The state belongs to the request. -/
structure Tracks (timelineMode : TimelineMode) (request : SimulationRequest)
    (state : RequestState) : Prop where
  id_eq : state.requestId = request.requestId
  instance_eq : state.instanceUuid = request.instanceUuid
  arrival_eq : state.arrivalTimeMs = request.startTimeMs
  tokens_eq : state.promptTokens = request.promptTokens
  blocks_eq : state.promptBlocks = request.promptBlocks
  block_size_eq : state.effectiveBlockSize = request.effectiveBlockSize.getD 0
  mode_eq : state.timelineMode = timelineMode
  unattributed_eq : state.unattributedTtftMs = 0
  arrival_nonneg : 0 ≤ request.startTimeMs

/-- The lookup is recorded in the state. -/
structure Knows (lookup : LookupMetrics) (state : RequestState) : Prop where
  done : state.cacheLookupDone = true
  miss_eq : state.missTokens = some lookup.missTokens
  cached_eq : state.cachedTokens = lookup.effectiveHitTokens
  sum_eq : lookup.effectiveHitTokens + lookup.missTokens = state.promptTokens

theorem Knows.looked_up {lookup : LookupMetrics} {state : RequestState} (h : state.Knows lookup) :
    state.LookedUp := ⟨h.done, by simp [h.miss_eq]⟩

theorem Tracks.of_standing {timelineMode : TimelineMode} {request : SimulationRequest}
    {state state' : RequestState} (h : state.Tracks timelineMode request)
    (he : state'.standing = state.standing) : state'.Tracks timelineMode request where
  id_eq := (congrArg RequestState.requestId he :).trans h.id_eq
  instance_eq := (congrArg RequestState.instanceUuid he :).trans h.instance_eq
  arrival_eq := (congrArg RequestState.arrivalTimeMs he :).trans h.arrival_eq
  tokens_eq := (congrArg RequestState.promptTokens he :).trans h.tokens_eq
  blocks_eq := (congrArg RequestState.promptBlocks he :).trans h.blocks_eq
  block_size_eq := (congrArg RequestState.effectiveBlockSize he :).trans h.block_size_eq
  mode_eq := (congrArg RequestState.timelineMode he :).trans h.mode_eq
  unattributed_eq := (congrArg RequestState.unattributedTtftMs he :).trans h.unattributed_eq
  arrival_nonneg := h.arrival_nonneg

theorem Knows.of_standing {lookup : LookupMetrics} {state state' : RequestState}
    (h : state.Knows lookup) (he : state'.standing = state.standing) : state'.Knows lookup where
  done := (congrArg RequestState.cacheLookupDone he :).trans h.done
  miss_eq := (congrArg RequestState.missTokens he :).trans h.miss_eq
  cached_eq := (congrArg RequestState.cachedTokens he :).trans h.cached_eq
  sum_eq := h.sum_eq.trans (congrArg RequestState.promptTokens he :).symm

theorem consumed_pending_load (state : RequestState) : state.consumed.pendingLoad = (0, 0) := by
  unfold consumed
  split_ifs with h
  · exact h
  · rfl

/-- Handing the KV load to a slice changes nothing else. -/
theorem consumed_eq (state : RequestState) : state.consumed = { state with
    pendingKvLoadTokens := state.consumed.pendingKvLoadTokens
    pendingKvLoadBytes := state.consumed.pendingKvLoadBytes
    kvLoadScheduled := state.consumed.kvLoadScheduled } := by
  unfold consumed
  split_ifs <;> rfl

section Consumed

variable (state : RequestState)

@[simp] theorem consumed_request_id : state.consumed.requestId = state.requestId := by
  rw [consumed_eq]

@[simp] theorem consumed_seq : state.consumed.arrivalSeq = state.arrivalSeq := by
  rw [consumed_eq]

@[simp] theorem consumed_status : state.consumed.status = state.status := by rw [consumed_eq]

@[simp] theorem consumed_arrival : state.consumed.arrivalTimeMs = state.arrivalTimeMs := by
  rw [consumed_eq]

@[simp] theorem consumed_cached : state.consumed.cachedTokens = state.cachedTokens := by
  rw [consumed_eq]

@[simp] theorem consumed_computed :
    state.consumed.numComputedTokens = state.numComputedTokens := by rw [consumed_eq]

@[simp] theorem consumed_prompt : state.consumed.promptTokens = state.promptTokens := by
  rw [consumed_eq]

@[simp] theorem consumed_first_scheduled :
    state.consumed.firstScheduledTimeMs = state.firstScheduledTimeMs := by rw [consumed_eq]

@[simp] theorem consumed_iterations :
    state.consumed.scheduledIterationCount = state.scheduledIterationCount := by rw [consumed_eq]

@[simp] theorem consumed_prefill :
    state.consumed.prefillComputeMs = state.prefillComputeMs := by rw [consumed_eq]

@[simp] theorem consumed_kv_wait : state.consumed.kvLoadWaitMs = state.kvLoadWaitMs := by
  rw [consumed_eq]

@[simp] theorem consumed_compute_wait : state.consumed.computeWaitMs = state.computeWaitMs := by
  rw [consumed_eq]

end Consumed

theorem Tracks.consumed {timelineMode : TimelineMode} {request : SimulationRequest}
    {state : RequestState} (h : state.Tracks timelineMode request) :
    state.consumed.Tracks timelineMode request := by
  rw [consumed_eq]
  exact { h with }

theorem Knows.consumed {lookup : LookupMetrics} {state : RequestState} (h : state.Knows lookup) :
    state.consumed.Knows lookup := by
  rw [consumed_eq]
  exact { h with }

end RequestState

namespace Job

def slices (job : Job) : List ScheduledSlice := job.services.map Service.slice

/-- The time the request has spent in iterations that served it. -/
def servedMs (job : Job) : ℚ := (job.services.map Service.durationMs).sum

/-- The accounts of a looked-up request agree with the services it has received. -/
structure Ledger (timelineMode : TimelineMode) (job : Job) : Prop where
  tracks : job.state.Tracks timelineMode job.request
  knows : job.state.Knows job.lookup
  tiles : Tiles job.state.cachedTokens job.state.numComputedTokens job.slices
  computed_le : job.state.numComputedTokens ≤ job.state.promptTokens
  loads : LoadsOnce (job.lookup.ddrHitTokens, job.lookup.ddrHitBytes) job.state.pendingLoad
    job.slices
  iterations_eq : job.state.scheduledIterationCount = job.services.length
  prefill_eq : job.state.prefillComputeMs =
    (job.services.map fun service ↦ service.record.prefillMs).sum
  kv_wait_eq : job.state.kvLoadWaitMs =
    (job.services.map fun service ↦ service.record.kvElapsedMs).sum

/-- What the request has not been served of the time since its arrival, it has waited.
The clock loses time when it rounds a duration down. -/
def Waited (timelineMode : TimelineMode) (nowMs lostMs : ℚ) (job : Job) : Prop :=
  timelineMode = .progressive →
    job.state.computeWaitMs =
      nowMs - job.state.arrivalTimeMs + (lostMs - job.lostMs) - job.servedMs

theorem Ledger.cached_le {timelineMode : TimelineMode} {job : Job} (h : job.Ledger timelineMode) :
    job.state.cachedTokens ≤ job.state.numComputedTokens := by
  have ht := h.tiles.sum
  omega

theorem Ledger.enter {timelineMode : TimelineMode} {job : Job} (h : job.Ledger timelineMode)
    (nowMs : ℚ) : (job.enter nowMs).Ledger timelineMode where
  tracks := { h.tracks with }
  knows := { h.knows with }
  tiles := h.tiles
  computed_le := h.computed_le
  loads := h.loads
  iterations_eq := h.iterations_eq
  prefill_eq := h.prefill_eq
  kv_wait_eq := h.kv_wait_eq

theorem Ledger.sitOut {timelineMode : TimelineMode} {job : Job} (h : job.Ledger timelineMode)
    (mode : TimelineMode) (durationMs : ℚ) : (job.sitOut mode durationMs).Ledger timelineMode := by
  cases mode with
  | legacy => exact h
  | progressive => exact {
      tracks := { h.tracks with }
      knows := { h.knows with }
      tiles := h.tiles
      computed_le := h.computed_le
      loads := h.loads
      iterations_eq := h.iterations_eq
      prefill_eq := h.prefill_eq
      kv_wait_eq := h.kv_wait_eq }

/-- One more slice is served. -/
theorem Ledger.serve {timelineMode : TimelineMode} {job built : Job} {tokens : ℕ} {slice : ScheduledSlice}
    {startMs finishMs : ℚ} {contribution : IterationLatencyBreakdown}
    {queue : SharedLinkFIFOTransferQueue} {progress : SliceProgress}
    (h : job.Ledger timelineMode) (hs : Sliced (job, tokens) (built, slice))
    (hserved : Advanced timelineMode startMs finishMs slice contribution built.state queue
      progress) (durationMs : ℚ) :
    (built.served slice durationMs progress).Ledger timelineMode := by
  have hd := hs.describes
  have hb : built = job.handOver := hs.job_eq
  subst hb
  have hp := hserved.progressed
  have hst : progress.state.standing = job.state.consumed.standing := hp.standing_eq
  have hcached : progress.state.cachedTokens = job.state.consumed.cachedTokens :=
    (congrArg RequestState.cachedTokens hst :)
  have hprompt : progress.state.promptTokens = job.state.consumed.promptTokens :=
    (congrArg RequestState.promptTokens hst :)
  have hload : progress.state.pendingLoad = job.state.consumed.pendingLoad :=
    (congrArg RequestState.pendingLoad hst :)
  have hafter : slice.computedTokensAfter = progress.state.numComputedTokens := by
    rw [slice.after_eq, hd.before_eq, hp.computed_eq]
    simp [handOver]
  constructor
  · exact h.tracks.consumed.of_standing hst
  · exact h.knows.consumed.of_standing hst
  · show Tiles progress.state.cachedTokens progress.state.numComputedTokens _
    rw [hcached, ← hafter, RequestState.consumed_cached]
    simpa [served, slices, handOver] using h.tiles.concat hd.before_eq
  · show progress.state.numComputedTokens ≤ progress.state.promptTokens
    rw [← hafter, hprompt, RequestState.consumed_prompt, ← hd.prompt_eq]
    exact slice.after_le
  · show LoadsOnce _ progress.state.pendingLoad _
    rw [hload, RequestState.consumed_pending_load]
    simpa [served, slices, handOver] using h.loads.concat hd.load_eq
  · show progress.state.scheduledIterationCount = _
    rw [hp.iterations_eq]
    simpa [served, handOver] using h.iterations_eq
  · show progress.state.prefillComputeMs = _
    rw [hp.prefill_eq]
    simpa [served, handOver, hserved.prefill_eq] using h.prefill_eq
  · show progress.state.kvLoadWaitMs = _
    rw [hp.kv_wait_eq]
    simpa [served, handOver] using h.kv_wait_eq

end Job

end InferTwin
