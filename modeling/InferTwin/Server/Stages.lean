import InferTwin.Server.Ledger
import Mathlib.Tactic.Ring

namespace InferTwin

open Effect

variable {C K : Type}

def Entry.job (entry : Entry) (lookup : LookupMetrics) : Job where
  request := entry.request
  state := entry.state
  lostMs := entry.lostMs
  lookup

namespace Job

/-- Looked up, and not admitted yet. -/
structure Ready (timelineMode : TimelineMode) (nowMs lostMs : ℚ) (job : Job) : Prop where
  ledger : job.Ledger timelineMode
  waited : job.Waited timelineMode nowMs lostMs
  waiting : job.state.status = .waiting
  unscheduled : job.state.firstScheduledTimeMs = none
  unserved : job.services = []
  arrived : job.state.arrivalTimeMs ≤ nowMs

/-- Admitted at some time since its arrival. -/
structure InService (timelineMode : TimelineMode) (nowMs lostMs : ℚ) (job : Job) : Prop where
  ledger : job.Ledger timelineMode
  waited : job.Waited timelineMode nowMs lostMs
  running : job.state.status = .running
  scheduled : ∃ firstMs, job.state.firstScheduledTimeMs = some firstMs ∧
    job.state.arrivalTimeMs ≤ firstMs ∧ firstMs ≤ nowMs

/-- In service between two iterations: served before, and not done. -/
structure Running (timelineMode : TimelineMode) (nowMs lostMs : ℚ) (job : Job) : Prop
    extends InService timelineMode nowMs lostMs job where
  computed_lt : job.state.numComputedTokens < job.state.promptTokens
  served : job.services ≠ []

/-- Done at the given time, its metric not built yet. -/
structure Closed (timelineMode : TimelineMode) (finishMs lostMs : ℚ) (job : Job) : Prop where
  ledger : job.Ledger timelineMode
  waited : job.Waited timelineMode finishMs lostMs
  done : job.state.numComputedTokens = job.state.promptTokens
  unloaded : job.state.pendingLoad = (0, 0)
  finish_eq : job.state.finishTimeMs = some finishMs
  scheduled : ∃ firstMs, job.state.firstScheduledTimeMs = some firstMs ∧
    job.state.arrivalTimeMs ≤ firstMs ∧ firstMs ≤ finishMs

/-- Done, with the metric that closes it. -/
structure Finished (timelineMode : TimelineMode) (finishMs lostMs : ℚ) (job : Job)
    (metric : BatchAwareRequestMetrics) : Prop
    extends Closed timelineMode finishMs lostMs job where
  metric_eq : buildRequestMetrics job.request job.state job.lookup = .ok metric

variable {timelineMode : TimelineMode} {nowMs lostMs : ℚ} {job : Job}

theorem Finished.describes {metric : BatchAwareRequestMetrics}
    (h : job.Finished timelineMode nowMs lostMs metric) :
    metric.Describes job.request job.state job.lookup :=
  build_request_metrics_describes h.metric_eq

theorem Finished.metric_id {metric : BatchAwareRequestMetrics}
    (h : job.Finished timelineMode nowMs lostMs metric) : metric.requestId = job.id :=
  h.describes.id_eq.trans h.ledger.tracks.id_eq.symm

theorem Running.remaining_pos (h : job.Running timelineMode nowMs lostMs) :
    0 < job.state.remaining := by
  have hlt := h.computed_lt
  unfold RequestState.remaining
  omega

theorem Running.no_load (h : job.Running timelineMode nowMs lostMs) :
    job.state.pendingLoad = (0, 0) := by
  have hl := h.ledger.loads
  unfold slices at hl
  cases hs : job.services with
  | nil => exact absurd hs h.served
  | cons service services =>
    rw [hs] at hl
    exact hl.2.1

theorem Ready.enter (h : job.Ready timelineMode nowMs lostMs) :
    (job.enter nowMs).InService timelineMode nowMs lostMs where
  ledger := h.ledger.enter nowMs
  waited := h.waited
  running := rfl
  scheduled := ⟨nowMs, by simp [Job.enter, h.unscheduled], h.arrived, le_rfl⟩

theorem Waited.sitOut (h : job.Waited timelineMode nowMs lostMs) (durationMs finishMs : ℚ) :
    (job.sitOut timelineMode durationMs).Waited timelineMode finishMs
      (lostMs + (nowMs + durationMs - finishMs)) := by
  intro hmode
  have hw := h hmode
  subst hmode
  simp only [Job.sitOut, RequestState.sitOut, servedMs] at hw ⊢
  rw [hw]
  ring

theorem sitOut_status (mode : TimelineMode) (durationMs : ℚ) :
    (job.sitOut mode durationMs).state.status = job.state.status := by cases mode <;> rfl

theorem Running.sitOut (h : job.Running timelineMode nowMs lostMs) {durationMs finishMs : ℚ}
    (hle : nowMs ≤ finishMs) :
    (job.sitOut timelineMode durationMs).Running timelineMode finishMs
      (lostMs + (nowMs + durationMs - finishMs)) := by
  obtain ⟨firstMs, hf, ha, hn⟩ := h.scheduled
  have hwaited := h.waited.sitOut durationMs finishMs
  have hledger := h.ledger.sitOut timelineMode durationMs
  cases timelineMode with
  | legacy => exact ⟨⟨hledger, hwaited, h.running, firstMs, hf, ha, hn.trans hle⟩,
      h.computed_lt, h.served⟩
  | progressive => exact ⟨⟨hledger, hwaited, h.running, firstMs, hf, ha, hn.trans hle⟩,
      h.computed_lt, h.served⟩

/-- What a request in service has become once a slice of it is served. -/
structure Proceeded (timelineMode : TimelineMode) (finishMs lostMs : ℚ) (job : Job) : Prop where
  ledger : job.Ledger timelineMode
  waited : job.Waited timelineMode finishMs lostMs
  unloaded : job.state.pendingLoad = (0, 0)
  served : job.services ≠ []
  scheduled : ∃ firstMs, job.state.firstScheduledTimeMs = some firstMs ∧
    job.state.arrivalTimeMs ≤ firstMs ∧ firstMs ≤ finishMs
  status_eq : job.state.status =
    if job.state.numComputedTokens = job.state.promptTokens then .finished else .running
  finish_eq : job.state.numComputedTokens = job.state.promptTokens →
    job.state.finishTimeMs = some finishMs

theorem InService.proceed {engine : Engine C K} {built : Job} {tokens : ℕ} {slice : ScheduledSlice}
    {startMs finishMs : ℚ} {contribution : IterationLatencyBreakdown}
    {queue : SharedLinkFIFOTransferQueue} {progress : SliceProgress}
    (h : job.InService engine.timelineMode nowMs lostMs) (hle : nowMs ≤ finishMs)
    (hs : Sliced (job, tokens) (built, slice))
    (hadvanced : Advanced engine.timelineMode startMs finishMs slice contribution built.state queue
      progress) (durationMs : ℚ) :
    (built.served slice durationMs progress).Proceeded engine.timelineMode finishMs
      (lostMs + (nowMs + durationMs - finishMs)) := by
  have hledger := h.ledger.serve hs hadvanced durationMs
  have hb : built = job.handOver := hs.job_eq
  subst hb
  have hp := hadvanced.progressed
  have hst : progress.state.standing = job.state.consumed.standing := hp.standing_eq
  obtain ⟨firstMs, hfirst, harr, hnow⟩ := h.scheduled
  have hfirst' : progress.state.firstScheduledTimeMs = some firstMs := by
    have he : progress.state.firstScheduledTimeMs = job.state.consumed.firstScheduledTimeMs :=
      (congrArg RequestState.firstScheduledTimeMs hst :)
    rw [he, RequestState.consumed_first_scheduled, hfirst]
  have harr' : progress.state.arrivalTimeMs = job.state.arrivalTimeMs := by
    have he : progress.state.arrivalTimeMs = job.state.consumed.arrivalTimeMs :=
      (congrArg RequestState.arrivalTimeMs hst :)
    rw [he, RequestState.consumed_arrival]
  have hprompt : progress.state.promptTokens = job.state.promptTokens := by
    have he : progress.state.promptTokens = job.state.consumed.promptTokens :=
      (congrArg RequestState.promptTokens hst :)
    rw [he, RequestState.consumed_prompt]
  constructor
  · exact hledger
  · intro hmode
    have he : progress.state.computeWaitMs = job.state.consumed.computeWaitMs :=
      (congrArg RequestState.computeWaitMs hst :)
    have hw := h.waited hmode
    simp only [served, servedMs, handOver, List.map_append, List.map_cons, List.map_nil,
      List.sum_append, List.sum_cons, List.sum_nil] at hw ⊢
    rw [he, RequestState.consumed_compute_wait, harr', hw]
    ring
  · have he : progress.state.pendingLoad = job.state.consumed.pendingLoad :=
      (congrArg RequestState.pendingLoad hst :)
    show progress.state.pendingLoad = (0, 0)
    rw [he, RequestState.consumed_pending_load]
  · simp [served]
  · exact ⟨firstMs, hfirst', harr' ▸ harr, hnow.trans hle⟩
  · show progress.state.status =
      if progress.state.numComputedTokens = progress.state.promptTokens then .finished else .running
    rw [hp.status_eq, hprompt]
    simp [handOver, h.running]
  · intro hdone
    have hdone' : progress.state.numComputedTokens = job.state.promptTokens := hdone.trans hprompt
    exact hp.finish_eq (by simpa [handOver] using hdone')

theorem Proceeded.close {finishMs : ℚ} (h : job.Proceeded timelineMode finishMs lostMs)
    (hfinished : job.state.status = .finished) : job.Closed timelineMode finishMs lostMs := by
  have hdone : job.state.numComputedTokens = job.state.promptTokens := by
    by_contra hne
    have hstatus := h.status_eq
    rw [if_neg hne, hfinished] at hstatus
    cases hstatus
  exact ⟨h.ledger, h.waited, hdone, h.unloaded, h.finish_eq hdone, h.scheduled⟩

theorem Proceeded.go_on {finishMs : ℚ} (h : job.Proceeded timelineMode finishMs lostMs)
    (hrunning : job.state.status ≠ .finished) : job.Running timelineMode finishMs lostMs := by
  have hne : job.state.numComputedTokens ≠ job.state.promptTokens := by
    intro hdone
    exact hrunning (h.status_eq.trans (if_pos hdone))
  exact ⟨⟨h.ledger, h.waited, h.status_eq.trans (if_neg hne), h.scheduled⟩,
    lt_of_le_of_ne h.ledger.computed_le hne, h.served⟩

/-- Serving a slice leaves the request in service, or finishes it. -/
theorem InService.serve {engine : Engine C K} {built : Job} {tokens : ℕ} {slice : ScheduledSlice}
    {startMs finishMs : ℚ} {contribution : IterationLatencyBreakdown}
    {queue : SharedLinkFIFOTransferQueue} {world world' : World C K} {progress : SliceProgress}
    {metric : Option BatchAwareRequestMetrics}
    (h : job.InService engine.timelineMode nowMs lostMs) (hle : nowMs ≤ finishMs)
    (hs : Sliced (job, tokens) (built, slice))
    (hserved : Served engine startMs finishMs slice contribution built.state built.lookup
      (.ok built.request) queue world progress metric world') (durationMs : ℚ) :
    (metric = none → (built.served slice durationMs progress).Running engine.timelineMode finishMs
      (lostMs + (nowMs + durationMs - finishMs))) ∧
    ∀ m ∈ metric, (built.served slice durationMs progress).Finished engine.timelineMode finishMs
      (lostMs + (nowMs + durationMs - finishMs)) m := by
  have hproceeded := h.proceed hle hs hserved.toAdvanced durationMs
  refine ⟨fun hmetric ↦ hproceeded.go_on (hserved.unfinished hmetric), fun m hm ↦ ?_⟩
  obtain ⟨hfinished, request, hrequest, hbuild⟩ := hserved.finished m hm
  cases hrequest
  exact ⟨hproceeded.close hfinished, hbuild⟩

/-- A request with nothing to compute and nothing to load may be finished on the spot. -/
theorem Ready.close (h : job.Ready timelineMode nowMs lostMs) (hr : job.state.remaining = 0)
    (hload : job.state.pendingLoad = (0, 0)) :
    Closed timelineMode nowMs lostMs { job with state := finishZeroMiss nowMs job.state } where
  ledger := {
    tracks := { h.ledger.tracks with }
    knows := { h.ledger.knows with }
    tiles := h.ledger.tiles
    computed_le := h.ledger.computed_le
    loads := h.ledger.loads
    iterations_eq := h.ledger.iterations_eq
    prefill_eq := h.ledger.prefill_eq
    kv_wait_eq := h.ledger.kv_wait_eq }
  waited := h.waited
  done := by
    have hle := h.ledger.computed_le
    unfold RequestState.remaining at hr
    simp only [finishZeroMiss]
    omega
  unloaded := hload
  finish_eq := rfl
  scheduled := ⟨nowMs, by simp [finishZeroMiss, h.unscheduled], h.arrived, le_rfl⟩

theorem complete_ok {completion : Completion} (hc : job.complete nowMs = .ok completion) :
    completion.1 = { job with state := finishZeroMiss nowMs job.state } ∧
      buildRequestMetrics completion.1.request completion.1.state completion.1.lookup =
        .ok completion.2 := by
  simp only [Job.complete, except_bind_ok] at hc
  obtain ⟨metric, hm, hc⟩ := hc
  cases hc
  exact ⟨rfl, hm⟩

theorem Ready.complete (h : job.Ready timelineMode nowMs lostMs) (hr : job.state.remaining = 0)
    (hload : job.state.pendingLoad = (0, 0)) {completion : Completion}
    (hc : job.complete nowMs = .ok completion) :
    completion.1.Finished timelineMode nowMs lostMs completion.2 := by
  obtain ⟨he, hm⟩ := complete_ok hc
  exact ⟨he ▸ h.close hr hload, hm⟩

end Job

namespace Entry

/-- Waiting: untouched since its arrival, but perhaps looked up. A request is kept waiting
after its lookup only when some of its prompt is left to compute. -/
structure Waiting (timelineMode : TimelineMode) (nowMs lostMs : ℚ) (entry : Entry) : Prop where
  tracks : entry.state.Tracks timelineMode entry.request
  waited : timelineMode = .progressive →
    entry.state.computeWaitMs = nowMs - entry.state.arrivalTimeMs + (lostMs - entry.lostMs)
  waiting : entry.state.status = .waiting
  unscheduled : entry.state.firstScheduledTimeMs = none
  arrived : entry.state.arrivalTimeMs ≤ nowMs
  iterations_eq : entry.state.scheduledIterationCount = 0
  prefill_eq : entry.state.prefillComputeMs = 0
  kv_wait_eq : entry.state.kvLoadWaitMs = 0
  fresh : entry.lookup = none → entry.state.cacheLookupDone = false
  known : ∀ lookup ∈ entry.lookup,
    (entry.job lookup).Ledger timelineMode ∧ 0 < entry.state.remaining

variable {timelineMode : TimelineMode} {nowMs lostMs : ℚ} {entry : Entry}

theorem Waiting.look {engine : Engine C K} {job : Job} {world world' : World C K}
    (h : entry.Waiting timelineMode nowMs lostMs) (hlook : Looks engine nowMs entry world job world') :
    job.Ready timelineMode nowMs lostMs := by
  cases hlook with
  | known hl =>
    obtain ⟨hledger, -⟩ := h.known _ hl
    exact ⟨hledger, fun hmode ↦ by simpa [Job.servedMs] using h.waited hmode, h.waiting,
      h.unscheduled, rfl, h.arrived⟩
  | @fresh lookup raw cache hl hraw hacc hdone hsum =>
    refine ⟨?_, fun hmode ↦ by
      simpa [Job.servedMs, RequestState.withLookup] using h.waited hmode, h.waiting,
      h.unscheduled, rfl, h.arrived⟩
    constructor
    · exact { h.tracks with }
    · exact ⟨rfl, rfl, rfl, hsum⟩
    · rfl
    · show lookup.effectiveHitTokens ≤ entry.state.promptTokens
      omega
    · rfl
    · exact h.iterations_eq
    · exact h.prefill_eq
    · exact h.kv_wait_eq

/-- A looked-up request that has something left to compute may go on waiting. -/
theorem Waiting.keep {engine : Engine C K} {job : Job} {world world' : World C K}
    (h : entry.Waiting timelineMode nowMs lostMs)
    (hlook : Looks engine nowMs entry world job world') (hr : job.state.remaining ≠ 0) :
    job.entry.Waiting timelineMode nowMs lostMs := by
  have hready := h.look hlook
  constructor
  · exact hready.ledger.tracks
  · intro hmode
    simpa [Job.entry, Job.servedMs, hready.unserved] using hready.waited hmode
  · exact hready.waiting
  · exact hready.unscheduled
  · exact hready.arrived
  · simpa [Job.entry, hready.unserved] using hready.ledger.iterations_eq
  · simpa [Job.entry, hready.unserved] using hready.ledger.prefill_eq
  · simpa [Job.entry, hready.unserved] using hready.ledger.kv_wait_eq
  · simp [Job.entry]
  · intro lookup hl
    cases hl
    refine ⟨?_, Nat.pos_of_ne_zero hr⟩
    have hjob : job.entry.job job.lookup = job := by
      simp [Entry.job, Job.entry, ← hready.unserved]
    rw [hjob]
    exact hready.ledger

theorem Waiting.sitOut (h : entry.Waiting timelineMode nowMs lostMs) {durationMs finishMs : ℚ}
    (hle : nowMs ≤ finishMs) :
    (entry.sitOut timelineMode durationMs).Waiting timelineMode finishMs
      (lostMs + (nowMs + durationMs - finishMs)) := by
  cases timelineMode with
  | legacy => exact { h with
      waited := fun hmode ↦ by cases hmode
      arrived := h.arrived.trans hle }
  | progressive =>
    exact {
      tracks := { h.tracks with }
      waited := fun hmode ↦ by
        have hw := h.waited hmode
        simp only [Entry.sitOut, RequestState.sitOut]
        rw [hw]
        ring
      waiting := h.waiting
      unscheduled := h.unscheduled
      arrived := h.arrived.trans hle
      iterations_eq := h.iterations_eq
      prefill_eq := h.prefill_eq
      kv_wait_eq := h.kv_wait_eq
      fresh := h.fresh
      known := fun lookup hl ↦
        ⟨(h.known lookup hl).1.sitOut .progressive durationMs, (h.known lookup hl).2⟩ }

theorem Waiting.arrive {request : SimulationRequest} {seq : ℕ}
    (hle : request.startTimeMs ≤ nowMs)
    (h : Entry.arrive timelineMode nowMs lostMs request seq = .ok entry) :
    entry.Waiting timelineMode nowMs lostMs ∧ (entry.lookup = none ∧ entry.lostMs = lostMs) ∧
      entry.request = request ∧ entry.id = request.requestId ∧ entry.seq = seq := by
  simp only [Entry.arrive, stateFromRequest, except_bind_ok] at h
  obtain ⟨state, hstate, state', hwait, h⟩ := h
  split_ifs at hstate with hneg
  cases hstate
  cases h
  have hstart := not_lt.mp hneg
  cases timelineMode with
  | legacy =>
    cases hwait
    refine ⟨⟨⟨rfl, rfl, rfl, rfl, rfl, rfl, rfl, rfl, hstart⟩, ?_, rfl, rfl, hle, rfl, rfl, rfl,
      fun _ ↦ rfl, ?_⟩, ⟨rfl, rfl⟩, rfl, rfl, rfl⟩
    · intro hmode
      cases hmode
    · intro lookup hl
      cases hl
  | progressive =>
    simp only [recordInitialComputeWait, RequestState.recordComputeWait] at hwait
    split_ifs at hwait
    cases hwait
    refine ⟨⟨⟨rfl, rfl, rfl, rfl, rfl, rfl, rfl, rfl, hstart⟩, ?_, rfl, rfl, hle, rfl, rfl, rfl,
      fun _ ↦ rfl, ?_⟩, ⟨rfl, rfl⟩, rfl, rfl, rfl⟩
    · intro _
      simp
    · intro lookup hl
      cases hl

end Entry

end InferTwin
