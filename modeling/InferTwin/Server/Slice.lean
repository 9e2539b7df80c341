import InferTwin.Server.Session

namespace InferTwin

open Effect

variable {C K : Type}

namespace RequestState

/-- The part of a request that no iteration changes. -/
def standing (state : RequestState) : RequestState :=
  { state with
    status := .waiting
    numComputedTokens := 0
    finishTimeMs := none
    scheduledIterationCount := 0
    prefillComputeMs := 0
    kvLoadMs := 0
    queueMs := 0
    timelineState := .pending
    kvLoadWaitMs := 0
    chunkCount := 0
    loadEventCount := 0
    progressiveMaterializedBlocks := 0
    progressiveMaterializedTokens := 0
    progressiveMaterializedBlockKeys := [] }

/-- How far a request has come, and what it was charged. -/
structure Progressed (state state' : RequestState) (tokens : ℕ) (prefillMs kvElapsedMs finishMs : ℚ) :
    Prop where
  standing_eq : state'.standing = state.standing
  computed_eq : state'.numComputedTokens = state.numComputedTokens + tokens
  iterations_eq : state'.scheduledIterationCount = state.scheduledIterationCount + 1
  prefill_eq : state'.prefillComputeMs = state.prefillComputeMs + prefillMs
  kv_wait_eq : state'.kvLoadWaitMs = state.kvLoadWaitMs + kvElapsedMs
  status_eq : state'.status =
    if state'.numComputedTokens = state.promptTokens then .finished else state.status
  finish_eq : state'.numComputedTokens = state.promptTokens → state'.finishTimeMs = some finishMs

/-- A request up to its timeline label and the count of its materialized blocks. -/
def unlabelled (state : RequestState) : RequestState :=
  { state with
    timelineState := .pending
    progressiveMaterializedBlocks := 0
    progressiveMaterializedTokens := 0
    progressiveMaterializedBlockKeys := [] }

theorem record_progressive_unlabelled (state : RequestState) (blocks : List PrefixBlock) :
    (state.recordProgressiveMaterialization blocks).1.unlabelled = state.unlabelled := by
  induction blocks generalizing state with
  | nil => rfl
  | cons block blocks ih =>
    unfold recordProgressiveMaterialization
    split_ifs
    · exact ih state
    · rw [ih]
      rfl

theorem Progressed.relabel {state state' state'' : RequestState} {tokens : ℕ}
    {prefillMs kvElapsedMs finishMs : ℚ}
    (h : state.Progressed state' tokens prefillMs kvElapsedMs finishMs)
    (he : state''.unlabelled = state'.unlabelled) :
    state.Progressed state'' tokens prefillMs kvElapsedMs finishMs where
  standing_eq := (congrArg RequestState.standing he).trans h.standing_eq
  computed_eq := (congrArg RequestState.numComputedTokens he).trans h.computed_eq
  iterations_eq := (congrArg RequestState.scheduledIterationCount he).trans h.iterations_eq
  prefill_eq := (congrArg RequestState.prefillComputeMs he).trans h.prefill_eq
  kv_wait_eq := (congrArg RequestState.kvLoadWaitMs he).trans h.kv_wait_eq
  status_eq := by
    have hc : state''.numComputedTokens = state'.numComputedTokens :=
      (congrArg RequestState.numComputedTokens he :)
    rw [hc]
    exact (congrArg RequestState.status he).trans h.status_eq
  finish_eq := by
    intro hf
    exact (congrArg RequestState.finishTimeMs he).trans
      (h.finish_eq ((congrArg RequestState.numComputedTokens he).symm.trans hf))

theorem LookedUp.apply_scheduled_ok {state state' : RequestState} (hl : state.LookedUp)
    {tokens : ℕ} {finishMs : ℚ} (h : state.applyScheduledTokens tokens finishMs = .ok state') :
    state.arrivalTimeMs ≤ finishMs ∧ tokens ≤ state.remaining ∧
      state.Progressed state' tokens 0 0 finishMs := by
  rw [hl.apply_scheduled_eq] at h
  split_ifs at h with ht ha hr
  cases h
  exact ⟨not_lt.mp ha, not_lt.mp hr, rfl, rfl, rfl, by simp [scheduled], by simp [scheduled],
    rfl, fun hf ↦ if_pos hf⟩

theorem LookedUp.apply_load_only_ok {state state' : RequestState} (hl : state.LookedUp)
    {finishMs : ℚ} (hle : state.numComputedTokens ≤ state.promptTokens)
    (h : state.applyLoadOnlyIteration finishMs = .ok state') :
    state.arrivalTimeMs ≤ finishMs ∧ state.numComputedTokens = state.promptTokens ∧
      state.Progressed state' 0 0 0 finishMs := by
  rw [hl.apply_load_only_eq] at h
  split_ifs at h with ha hr
  cases h
  have hdone : state.numComputedTokens = state.promptTokens := by
    unfold remaining at hr
    omega
  exact ⟨not_lt.mp ha, hdone, rfl, rfl, rfl, by simp, by simp, by simp [hdone], fun _ ↦ rfl⟩

end RequestState

/-- The KV link before and after a slice, and what the slice waited for it. -/
inductive Loads (timelineMode : TimelineMode) (startTimeMs : ℚ) (slice : ScheduledSlice)
    (kvLoadMs : ℚ) (queue : SharedLinkFIFOTransferQueue) :
    ℚ → SharedLinkFIFOTransferQueue → Prop
  | none (h : timelineMode = .legacy ∨ slice.kvLoadTokens = 0 ∧ slice.kvLoadBytes = 0) :
      Loads timelineMode startTimeMs slice kvLoadMs queue 0 queue
  | link {queue'} (h : timelineMode = .progressive)
      (hload : ¬(slice.kvLoadTokens = 0 ∧ slice.kvLoadBytes = 0))
      (huuid : queue'.instanceUuid = queue.instanceUuid)
      (hnext : queue'.nextAvailableTimeMs =
        max startTimeMs queue.nextAvailableTimeMs + kvLoadMs) :
      Loads timelineMode startTimeMs slice kvLoadMs queue
        (queue'.nextAvailableTimeMs - startTimeMs) queue'

/-- What `chargeSlice` makes of a request. -/
structure Charged (timelineMode : TimelineMode) (startTimeMs : ℚ) (slice : ScheduledSlice)
    (contribution : IterationLatencyBreakdown) (state : RequestState)
    (queue : SharedLinkFIFOTransferQueue) (progress : SliceProgress) : Prop where
  loads : Loads timelineMode startTimeMs slice contribution.kvLoadMs queue
    progress.record.kvElapsedMs progress.queue
  state_eq : progress.state = { state with
    timelineState := progress.state.timelineState
    kvLoadWaitMs := state.kvLoadWaitMs + progress.record.kvElapsedMs
    loadEventCount := progress.state.loadEventCount
    prefillComputeMs := state.prefillComputeMs + contribution.prefillComputeMs
    kvLoadMs := state.kvLoadMs + contribution.kvLoadMs
    queueMs := state.queueMs + contribution.queueMs }
  record_eq : progress.record = {
    requestId := slice.requestId
    prefillMs := contribution.prefillComputeMs
    kvElapsedMs := progress.record.kvElapsedMs
    materialized := [] }

theorem charge_slice_ok {timelineMode : TimelineMode} {startTimeMs : ℚ} {slice : ScheduledSlice}
    {contribution : IterationLatencyBreakdown} {state : RequestState}
    {queue : SharedLinkFIFOTransferQueue} {totals : IterationTotals} {progress : SliceProgress}
    (h : chargeSlice timelineMode startTimeMs slice contribution state queue totals =
      .ok progress) :
    Charged timelineMode startTimeMs slice contribution state queue progress := by
  unfold chargeSlice recordScheduledKvLoadTiming at h
  have hnn : ¬(contribution.prefillComputeMs < 0 ∨ contribution.kvLoadMs < 0 ∨
      contribution.queueMs < 0) := by
    simp [contribution.prefill_nonneg, contribution.kv_load_nonneg, contribution.queue_nonneg]
  split_ifs at h with hnone
  · simp only [bind, Except.bind, pure, Except.pure, RequestState.recordLatencyContribution,
      if_neg hnn, Except.ok.injEq] at h
    subst h
    exact ⟨.none hnone, by simp, rfl⟩
  · simp only [except_bind_ok, RequestState.recordLatencyContribution, if_neg hnn,
      RequestState.recordKvLoadEvent, RequestState.recordKvLoadWait] at h
    obtain ⟨⟨timing, state₁, queue₁⟩, ⟨request, hreq, ⟨transfer, queue₂⟩, hsub, state₂, hst, hpack⟩,
      state₃, hlat, hfin⟩ := h
    simp only [Except.ok.injEq] at hlat
    obtain ⟨state₄, hkv, hst⟩ := hst
    split_ifs at hkv
    cases hkv
    cases hst
    cases hpack
    subst hlat
    cases hfin
    obtain ⟨huuid, hnext, helapsed⟩ := SharedLinkFIFOTransferQueue.submit_spec hsub
    unfold KVTransferRequest.build at hreq
    split_ifs at hreq
    cases hreq
    have hmode : timelineMode = .progressive := by
      cases timelineMode with
      | legacy => exact absurd (Or.inl rfl) hnone
      | progressive => rfl
    refine ⟨?_, rfl, rfl⟩
    dsimp only
    rw [helapsed]
    exact .link hmode (fun hz ↦ hnone (Or.inr hz)) huuid hnext

/-- The progress of a charged request is progress of the request itself. -/
theorem Charged.progressed {timelineMode : TimelineMode} {startTimeMs finishMs : ℚ}
    {slice : ScheduledSlice} {contribution : IterationLatencyBreakdown} {state : RequestState}
    {queue : SharedLinkFIFOTransferQueue} {progress : SliceProgress} {started final : RequestState}
    {tokens : ℕ} (hc : Charged timelineMode startTimeMs slice contribution state queue progress)
    (hs : started.unlabelled = progress.state.unlabelled)
    (h : started.Progressed final tokens 0 0 finishMs) :
    state.Progressed final tokens contribution.prefillComputeMs progress.record.kvElapsedMs
      finishMs := by
  have he : started.unlabelled = RequestState.unlabelled { state with
      kvLoadWaitMs := state.kvLoadWaitMs + progress.record.kvElapsedMs
      loadEventCount := progress.state.loadEventCount
      prefillComputeMs := state.prefillComputeMs + contribution.prefillComputeMs
      kvLoadMs := state.kvLoadMs + contribution.kvLoadMs
      queueMs := state.queueMs + contribution.queueMs } := by
    rw [hs, hc.state_eq]
    rfl
  have hprompt : started.promptTokens = state.promptTokens :=
    (congrArg RequestState.promptTokens he :)
  have hstanding : started.standing = state.standing := (congrArg RequestState.standing he :)
  have hcomputed : started.numComputedTokens = state.numComputedTokens :=
    (congrArg RequestState.numComputedTokens he :)
  have hiterations : started.scheduledIterationCount = state.scheduledIterationCount :=
    (congrArg RequestState.scheduledIterationCount he :)
  have hprefill : started.prefillComputeMs = state.prefillComputeMs +
      contribution.prefillComputeMs := (congrArg RequestState.prefillComputeMs he :)
  have hkv : started.kvLoadWaitMs = state.kvLoadWaitMs + progress.record.kvElapsedMs :=
    (congrArg RequestState.kvLoadWaitMs he :)
  have hstatus : started.status = state.status := (congrArg RequestState.status he :)
  exact {
    standing_eq := h.standing_eq.trans hstanding
    computed_eq := by rw [h.computed_eq, hcomputed]
    iterations_eq := by rw [h.iterations_eq, hiterations]
    prefill_eq := by rw [h.prefill_eq, hprefill, add_zero]
    kv_wait_eq := by rw [h.kv_wait_eq, hkv, add_zero]
    status_eq := by rw [h.status_eq, hprompt, hstatus]
    finish_eq := by
      rw [← hprompt]
      exact h.finish_eq }

/-- What the policy calls made for one slice do to a cache, and the blocks they make
visible. `upTo` is how many tokens of the prompt the request has once the slice is done. -/
inductive Materializes (engine : Engine C K) (lookup : LookupMetrics) (state : RequestState)
    (upTo : ℕ) : C → List PrefixBlock → C → Prop
  | none {cache : C} : Materializes engine lookup state upTo cache [] cache
  | chunk {cache cache' : C} {blocks : List PrefixBlock} {call : MaterializationCall} {before : ℕ}
      (hblocks : call.blocks = lookup.materializationBlocks)
      (hprompt : call.promptBlocks = state.promptBlocks)
      (h : engine.materializationPolicy.materializeScheduledChunk engine.cache call before upTo
        cache = .ok blocks cache') :
      Materializes engine lookup state upTo cache blocks cache'
  | finish {cache cache' : C} {blocks : List PrefixBlock} {call : MaterializationCall}
      (hdone : upTo = state.promptTokens)
      (hblocks : call.blocks = lookup.materializationBlocks)
      (h : engine.materializationPolicy.materializeFinishedRequest engine.cache call cache =
        .ok blocks cache') :
      Materializes engine lookup state upTo cache blocks cache'
  | append {cache cache' cache'' : C} {blocks blocks' : List PrefixBlock}
      (h : Materializes engine lookup state upTo cache blocks cache')
      (h' : Materializes engine lookup state upTo cache' blocks' cache'') :
      Materializes engine lookup state upTo cache (blocks ++ blocks') cache''

theorem Materializes.congr {engine : Engine C K} {lookup : LookupMetrics}
    {state state' : RequestState} {upTo : ℕ} {cache cache' : C} {blocks : List PrefixBlock}
    (hb : state'.promptBlocks = state.promptBlocks) (ht : state'.promptTokens = state.promptTokens)
    (h : Materializes engine lookup state' upTo cache blocks cache') :
    Materializes engine lookup state upTo cache blocks cache' := by
  induction h with
  | none => exact .none
  | chunk hblocks hprompt h => exact .chunk hblocks (hprompt.trans hb) h
  | finish hdone hblocks h => exact .finish (hdone.trans ht) hblocks h
  | append _ _ ih ih' => exact .append ih ih'

/-- What serving a slice makes of its request and the KV link. -/
structure Advanced (timelineMode : TimelineMode) (startTimeMs finishMs : ℚ)
    (slice : ScheduledSlice) (contribution : IterationLatencyBreakdown) (state : RequestState)
    (queue : SharedLinkFIFOTransferQueue) (progress : SliceProgress) : Prop where
  loads : Loads timelineMode startTimeMs slice contribution.kvLoadMs queue
    progress.record.kvElapsedMs progress.queue
  progressed : state.Progressed progress.state slice.scheduledPrefillTokens
    contribution.prefillComputeMs progress.record.kvElapsedMs finishMs
  prefill_eq : progress.record.prefillMs = contribution.prefillComputeMs
  id_eq : progress.record.requestId = slice.requestId
  arrival_le : state.arrivalTimeMs ≤ finishMs

/-- What a served slice has done to the cache, and the metric it closes its request with. -/
structure Served (engine : Engine C K) (startTimeMs finishMs : ℚ) (slice : ScheduledSlice)
    (contribution : IterationLatencyBreakdown) (state : RequestState) (lookup : LookupMetrics)
    (request : Except ReplayError SimulationRequest) (queue : SharedLinkFIFOTransferQueue)
    (world : World C K) (progress : SliceProgress) (metric : Option BatchAwareRequestMetrics)
    (world' : World C K) : Prop
    extends Advanced engine.timelineMode startTimeMs finishMs slice contribution state queue
      progress where
  unfinished : metric = none → progress.state.status ≠ .finished
  finished : ∀ m ∈ metric, progress.state.status = .finished ∧
    ∃ r, request = .ok r ∧ buildRequestMetrics r progress.state lookup = .ok m
  materializes : Materializes engine lookup state
    (state.numComputedTokens + slice.scheduledPrefillTokens) world.cache
    progress.record.materialized world'.cache
  world_eq : world' = { world with cache := world'.cache }

theorem on_materialization_ok {α : Type} {x : EStateM MaterializationError C α}
    {world world' : World C K} {a : α} :
    (onMaterialization x : Replay C K α) world = .ok a world' ↔
      ∃ cache, x world.cache = .ok a cache ∧ world' = { world with cache } :=
  zoom_ok

/-- What `advanceSlice` makes of a charged request. -/
theorem advance_slice_ok {engine : Engine C K} {slice : ScheduledSlice} {lookup : LookupMetrics}
    {finishMs : ℚ} {progress progress' : SliceProgress} {world world' : World C K}
    (hl : progress.state.LookedUp)
    (hle : progress.state.numComputedTokens ≤ progress.state.promptTokens)
    (hrec : progress.record.materialized = [])
    (h : engine.advanceSlice slice lookup finishMs progress world = .ok progress' world') :
    ∃ started : RequestState, started.unlabelled = progress.state.unlabelled ∧
      started.arrivalTimeMs ≤ finishMs ∧
      started.Progressed progress'.state slice.scheduledPrefillTokens 0 0 finishMs ∧
      progress'.queue = progress.queue ∧
      progress'.record = { progress.record with materialized := progress'.record.materialized } ∧
      Materializes engine lookup progress.state slice.computedTokensAfter world.cache
        progress'.record.materialized world'.cache ∧
      world' = { world with cache := world'.cache } := by
  unfold Engine.advanceSlice at h
  split_ifs at h with ht
  · simp only [bind_ok, check_ok] at h
    obtain ⟨state, _, ⟨hstate, rfl⟩, h⟩ := h
    cases h
    obtain ⟨ha, -, hp⟩ := hl.apply_load_only_ok hle hstate
    rw [ht]
    exact ⟨progress.state, rfl, ha, hp, rfl, rfl, by rw [hrec]; exact .none, rfl⟩
  · simp only [bind_ok, check_ok] at h
    obtain ⟨state, _, ⟨hstate, rfl⟩, h⟩ := h
    cases hmode : engine.timelineMode with
    | legacy =>
      simp only [hmode] at hstate
      simp only [Engine.materializeScheduledChunk, hmode] at h
      cases h
      obtain ⟨ha, -, hp⟩ := hl.apply_scheduled_ok hstate
      exact ⟨progress.state, rfl, ha, hp, rfl, rfl, by rw [hrec]; exact .none, rfl⟩
    | progressive =>
      simp only [hmode] at hstate
      simp only [Engine.materializeScheduledChunk, hmode, bind_ok, on_materialization_ok] at h
      obtain ⟨blocks, _, ⟨cache, hchunk, rfl⟩, h⟩ := h
      cases h
      have hl' : RequestState.LookedUp { progress.state with timelineState := .runningChunk } :=
        ⟨hl.done, hl.miss⟩
      obtain ⟨ha, -, hp⟩ := hl'.apply_scheduled_ok hstate
      have hpr : state.promptBlocks = progress.state.promptBlocks :=
        (congrArg RequestState.promptBlocks hp.standing_eq :)
      refine ⟨{ progress.state with timelineState := .runningChunk }, rfl, ha,
        hp.relabel (RequestState.record_progressive_unlabelled _ _), rfl, rfl, ?_, rfl⟩
      simp only [SliceProgress.materialized, hrec, List.nil_append]
      exact .chunk rfl hpr hchunk

/-- What `completeSlice` adds. -/
theorem complete_slice_ok {engine : Engine C K} {lookup : LookupMetrics}
    {request : Except ReplayError SimulationRequest} {finishMs : ℚ}
    {progress progress' : SliceProgress} {metric : Option BatchAwareRequestMetrics}
    {world world' : World C K} {state : RequestState} {upTo : ℕ}
    (hdone : progress.state.status = .finished → upTo = state.promptTokens)
    (h : engine.completeSlice lookup request finishMs progress world =
      .ok (progress', metric) world') :
    progress'.state.unlabelled = progress.state.unlabelled ∧
      progress'.queue = progress.queue ∧
      progress'.record = { progress.record with materialized := progress'.record.materialized } ∧
      (∃ blocks, progress'.record.materialized = progress.record.materialized ++ blocks ∧
        Materializes engine lookup state upTo world.cache blocks world'.cache) ∧
      world' = { world with cache := world'.cache } ∧
      (metric = none → progress'.state.status ≠ .finished) ∧
      ∀ m ∈ metric, progress'.state.status = .finished ∧
        ∃ r, request = .ok r ∧ buildRequestMetrics r progress'.state lookup = .ok m := by
  unfold Engine.completeSlice at h
  split_ifs at h with hfin hblocks
  · simp only [pure_bind, bind_ok, check_ok] at h
    obtain ⟨r, _, ⟨hr, rfl⟩, m, _, ⟨hm, rfl⟩, h⟩ := h
    cases h
    refine ⟨rfl, rfl, rfl, ⟨[], by simp, .none⟩, rfl, by simp, ?_⟩
    intro m' hm'
    cases hm'
    exact ⟨hfin, r, hr, hm⟩
  · cases hmode : engine.timelineMode with
    | legacy =>
      simp only [Engine.materializeFinishedRequest, hmode, bind_ok, on_materialization_ok,
        check_ok] at h
      obtain ⟨_, _, ⟨blocks, _, ⟨cache, hcall, rfl⟩, hp⟩, r, _, ⟨hr, rfl⟩, m, _, ⟨hm, rfl⟩, h⟩ := h
      cases hp
      cases h
      refine ⟨rfl, rfl, rfl, ⟨blocks, rfl, .finish (hdone hfin) rfl hcall⟩, rfl, by simp, ?_⟩
      intro m' hm'
      cases hm'
      exact ⟨hfin, r, hr, hm⟩
    | progressive =>
      simp only [Engine.materializeFinishedRequest, hmode, bind_ok, on_materialization_ok,
        check_ok] at h
      obtain ⟨_, _, ⟨blocks, _, ⟨cache, hcall, rfl⟩, hp⟩, r, _, ⟨hr, rfl⟩, m, _, ⟨hm, rfl⟩, h⟩ := h
      cases hp
      cases h
      have hun : (progress.materialized blocks).state.unlabelled = progress.state.unlabelled :=
        RequestState.record_progressive_unlabelled _ _
      have hst : (progress.materialized blocks).state.status = progress.state.status :=
        (congrArg RequestState.status hun :)
      refine ⟨hun, rfl, rfl, ⟨blocks, rfl, .finish (hdone hfin) rfl hcall⟩, rfl, by simp, ?_⟩
      intro m' hm'
      cases hm'
      exact ⟨hst.trans hfin, r, hr, hm⟩
  · cases hmode : engine.timelineMode with
    | legacy =>
      simp only [hmode] at h
      cases h
      exact ⟨rfl, rfl, rfl, ⟨[], by simp, .none⟩, rfl, fun _ ↦ hfin, by simp⟩
    | progressive =>
      simp only [hmode] at h
      cases h
      exact ⟨rfl, rfl, rfl, ⟨[], by simp, .none⟩, rfl, fun _ ↦ hfin, by simp⟩

/-- The progress of a slice that is left as it is, up to labels and materialized blocks. -/
structure SliceProgress.Same (progress progress' : SliceProgress) : Prop where
  state_eq : progress'.state.unlabelled = progress.state.unlabelled
  queue_eq : progress'.queue = progress.queue
  record_eq : progress'.record =
    { progress.record with materialized := progress'.record.materialized }

theorem Advanced.relabel {timelineMode : TimelineMode} {startTimeMs finishMs : ℚ}
    {slice : ScheduledSlice} {contribution : IterationLatencyBreakdown} {state : RequestState}
    {queue : SharedLinkFIFOTransferQueue} {progress progress' : SliceProgress}
    (h : Advanced timelineMode startTimeMs finishMs slice contribution state queue progress)
    (hs : progress.Same progress') :
    Advanced timelineMode startTimeMs finishMs slice contribution state queue progress' := by
  obtain ⟨hstate, hqueue, hrecord⟩ := hs
  have hkv : progress'.record.kvElapsedMs = progress.record.kvElapsedMs := by rw [hrecord]
  constructor
  · rw [hkv, hqueue]
    exact h.loads
  · rw [hkv]
    exact h.progressed.relabel hstate
  · rw [hrecord]
    exact h.prefill_eq
  · rw [hrecord]
    exact h.id_eq
  · exact h.arrival_le

/-- A charged and advanced slice. -/
theorem Charged.advanced {timelineMode : TimelineMode} {startTimeMs finishMs : ℚ}
    {slice : ScheduledSlice} {contribution : IterationLatencyBreakdown} {state : RequestState}
    {queue : SharedLinkFIFOTransferQueue} {charged progress : SliceProgress}
    {started : RequestState}
    (hc : Charged timelineMode startTimeMs slice contribution state queue charged)
    (hst : started.unlabelled = charged.state.unlabelled)
    (harr : started.arrivalTimeMs ≤ finishMs)
    (hprog : started.Progressed progress.state slice.scheduledPrefillTokens 0 0 finishMs)
    (hqueue : progress.queue = charged.queue)
    (hrec : progress.record =
      { charged.record with materialized := progress.record.materialized }) :
    Advanced timelineMode startTimeMs finishMs slice contribution state queue progress := by
  have hkv : progress.record.kvElapsedMs = charged.record.kvElapsedMs := by rw [hrec]
  have harrive : started.arrivalTimeMs = state.arrivalTimeMs := by
    have h₁ : started.arrivalTimeMs = charged.state.arrivalTimeMs :=
      (congrArg RequestState.arrivalTimeMs hst :)
    have h₂ : charged.state.arrivalTimeMs = state.arrivalTimeMs :=
      (congrArg RequestState.arrivalTimeMs hc.state_eq :)
    exact h₁.trans h₂
  constructor
  · rw [hqueue, hkv]
    exact hc.loads
  · rw [hkv]
    exact hc.progressed hst hprog
  · rw [hrec, hc.record_eq]
  · rw [hrec, hc.record_eq]
  · exact harrive ▸ harr

/-- What a charged request keeps of the request before. -/
structure Charged.Keeps (state charged : RequestState) : Prop where
  looked_up : state.LookedUp → charged.LookedUp
  computed_eq : charged.numComputedTokens = state.numComputedTokens
  prompt_eq : charged.promptTokens = state.promptTokens
  blocks_eq : charged.promptBlocks = state.promptBlocks
  arrival_eq : charged.arrivalTimeMs = state.arrivalTimeMs

theorem Charged.keeps {timelineMode : TimelineMode} {startTimeMs : ℚ} {slice : ScheduledSlice}
    {contribution : IterationLatencyBreakdown} {state : RequestState}
    {queue : SharedLinkFIFOTransferQueue} {progress : SliceProgress}
    (h : Charged timelineMode startTimeMs slice contribution state queue progress) :
    Charged.Keeps state progress.state where
  looked_up hl := ⟨(congrArg RequestState.cacheLookupDone h.state_eq).trans hl.done,
    (congrArg (·.missTokens.isSome) h.state_eq).trans hl.miss⟩
  computed_eq := (congrArg RequestState.numComputedTokens h.state_eq :)
  prompt_eq := (congrArg RequestState.promptTokens h.state_eq :)
  blocks_eq := (congrArg RequestState.promptBlocks h.state_eq :)
  arrival_eq := (congrArg RequestState.arrivalTimeMs h.state_eq :)

theorem served_of_apply_slice {engine : Engine C K} {startTimeMs finishMs : ℚ}
    {slice : ScheduledSlice} {contribution : IterationLatencyBreakdown} {state : RequestState}
    {lookup : LookupMetrics} {request : Except ReplayError SimulationRequest}
    {queue : SharedLinkFIFOTransferQueue} {totals : IterationTotals} {progress : SliceProgress}
    {metric : Option BatchAwareRequestMetrics} {world world' : World C K} (hl : state.LookedUp)
    (hle : state.numComputedTokens ≤ state.promptTokens)
    (hrunning : state.status = .running)
    (hbefore : slice.computedTokensBefore = state.numComputedTokens)
    (h : engine.applySlice startTimeMs finishMs slice contribution state lookup request queue
      totals world = .ok (progress, metric) world') :
    Served engine startTimeMs finishMs slice contribution state lookup request queue world
      progress metric world' := by
  simp only [Engine.applySlice, bind_ok, check_ok] at h
  obtain ⟨charged, _, ⟨hcharge, rfl⟩, advanced, world₁, hadvance, hcomplete⟩ := h
  have hc := charge_slice_ok hcharge
  have hkeeps := hc.keeps
  have hmat : charged.record.materialized = [] := by rw [hc.record_eq]
  obtain ⟨started, hst, harr, hprog, hqueue, hrec, hmats, hworld⟩ := advance_slice_ok
    (hkeeps.looked_up hl) (by rw [hkeeps.computed_eq, hkeeps.prompt_eq]; exact hle) hmat hadvance
  have hadvanced := hc.advanced hst harr hprog hqueue hrec
  have hupto : slice.computedTokensAfter =
      state.numComputedTokens + slice.scheduledPrefillTokens := by rw [slice.after_eq, hbefore]
  have hdone : advanced.state.status = .finished →
      slice.computedTokensAfter = state.promptTokens := by
    intro hfin
    rw [hadvanced.progressed.status_eq, hadvanced.progressed.computed_eq] at hfin
    split_ifs at hfin with he
    · rw [hupto, he]
    · rw [hrunning] at hfin
      cases hfin
  obtain ⟨hun, hqueue', hrec', ⟨blocks, hblk, hmats'⟩, hworld', hnone, hsome⟩ :=
    complete_slice_ok hdone hcomplete
  refine ⟨hadvanced.relabel ⟨hun, hqueue', hrec'⟩, hnone, hsome, ?_, ?_⟩
  · rw [hblk, ← hupto]
    exact .append (hmats.congr hkeeps.blocks_eq hkeeps.prompt_eq) hmats'
  · rw [hworld', hworld]

end InferTwin
