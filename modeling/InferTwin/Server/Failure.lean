import InferTwin.Server.Termination

namespace InferTwin

open Effect

variable {C K : Type} {engine : Engine C K} {requests : List SimulationRequest}

/-- Where an exception of a replay comes from. `internal` is what the engine itself
checks: the scheduler, the slices, the request objects, its dictionaries and its lists. -/
inductive ErrorOrigin
  | arrival | cache | accounting | latency | materialization | transfer | composer | emptyBatch
  | source | internal | fuel
  deriving DecidableEq, Repr

def ReplayError.origin : ReplayError → ErrorOrigin
  | negativeArrivalTime => .arrival
  | cache _ => .cache
  | unsupportedConversion _ | hitTokensExceedPrompt => .accounting
  | backend _ | shapeKeyMismatch | detailNotNumeric _ | detailNegative _ => .latency
  | materialization _ => .materialization
  | transferRequestIdRequired | transferInstanceRequired | transferInstanceMismatch _ _ => .transfer
  | composeFinishBeforeArrival _ | composeFirstScheduledBeforeArrival _
  | negativeResidual .. | negativeCompositionField _ => .composer
  | emptyBatch => .emptyBatch
  | source _ | foreignRequest _ _ | duplicateActiveRequest _ => .source
  | outOfFuel => .fuel
  | _ => .internal

theorem from_result_error {raw : PrefixLookupResult} {request : SimulationRequest}
    {e : ReplayError} (h : LookupMetrics.fromResult raw request = .error e) : e.origin = .accounting := by
  unfold LookupMetrics.fromResult at h
  cases hacc : accountPrefixLookup raw request.promptTokens request.blockConversionResult with
  | ok accounted =>
    rw [hacc] at h
    cases h
  | error e' =>
    rw [hacc] at h
    cases h
    unfold accountPrefixLookup at hacc
    dsimp only at hacc
    split at hacc
    · cases hacc
      exact rfl
    · split_ifs at hacc
      cases hacc
      exact rfl

theorem detail_float_error {latency : LatencyResult} {key : String} {fallback : ℚ}
    {e : ReplayError} (h : detailFloat latency key fallback = .error e) : e.origin = .latency := by
  unfold detailFloat at h
  split at h
  · split_ifs at h
    cases h
    exact rfl
  all_goals
    cases h
    exact rfl

theorem latency_breakdown_error {latency : LatencyResult} {e : ReplayError}
    (h : latencyBreakdownFromResult latency = .error e) : e.origin = .latency := by
  unfold latencyBreakdownFromResult at h
  cases hp : detailFloat latency "ttft_ms" latency.durationMs with
  | error e' =>
    rw [hp] at h
    cases h
    exact detail_float_error hp
  | ok prefillMs =>
    cases hk : detailFloat latency "kv_load_ms" 0 with
    | error e' =>
      rw [hp, hk] at h
      cases h
      exact detail_float_error hk
    | ok kvLoadMs =>
      cases hq : detailFloat latency "queue_ms" 0 with
      | error e' =>
        rw [hp, hk, hq] at h
        cases h
        exact detail_float_error hq
      | ok queueMs =>
        rw [hp, hk, hq] at h
        cases h

theorem estimate_latency_error {shape : BatchShape} {world world' : World C K} {e : ReplayError}
    (h : engine.estimateLatency shape world = .error e world') : e.origin = .latency := by
  unfold Engine.estimateLatency onMemo at h
  obtain ⟨e', memo, h, rfl, -⟩ := zoom_error.mp h
  unfold ShapeMemo.getOrCompute at h
  split at h
  · cases h
  · split at h
    · cases h
      exact rfl
    · split_ifs at h
      cases h
      exact rfl

theorem validate_error {composition : RequestTTFTComposition} {e : ReplayError}
    (h : composition.validate = .error e) : ∃ field, e = .negativeCompositionField field := by
  unfold RequestTTFTComposition.validate at h
  split_ifs at h
  all_goals
    cases h
    exact ⟨_, rfl⟩

theorem compose_error {request : SimulationRequest} {state : RequestState} {finishMs firstMs : ℚ}
    {e : ReplayError}
    (h : RequestTTFTComposer.compose request state finishMs firstMs = .error e) : e.origin = .composer := by
  unfold RequestTTFTComposer.compose at h
  split_ifs at h
  · cases h
    exact rfl
  · cases h
    exact rfl
  · split at h
    · obtain ⟨field, rfl⟩ := validate_error h
      exact rfl
    · unfold RequestTTFTComposer.composeProgressive at h
      dsimp only at h
      split_ifs at h
      · cases h
        exact rfl
      · obtain ⟨field, rfl⟩ := validate_error h
        exact rfl
      · obtain ⟨field, rfl⟩ := validate_error h
        exact rfl

theorem build_request_metrics_error {request : SimulationRequest} {state : RequestState}
    {lookup : LookupMetrics} {firstMs finishMs : ℚ} {e : ReplayError}
    (hfirst : state.firstScheduledTimeMs = some firstMs)
    (hfinish : state.finishTimeMs = some finishMs)
    (h : buildRequestMetrics request state lookup = .error e) :
    RequestTTFTComposer.compose request state finishMs firstMs = .error e := by
  unfold buildRequestMetrics at h
  simp only [hfirst, hfinish, requiredTime, except_ok_bind] at h
  cases hc : RequestTTFTComposer.compose request state finishMs firstMs with
  | error e' =>
    rw [hc] at h
    cases h
    rfl
  | ok composition =>
    rw [hc] at h
    cases h

namespace Job

/-- The metric of a finished request could not be built. -/
structure Unclosed (timelineMode : TimelineMode) (finishMs lostMs : ℚ) (job : Job)
    (e : ReplayError) : Prop extends Closed timelineMode finishMs lostMs job where
  metric_eq : buildRequestMetrics job.request job.state job.lookup = .error e

theorem Unclosed.composer {timelineMode : TimelineMode} {finishMs lostMs : ℚ} {job : Job}
    {e : ReplayError} (h : job.Unclosed timelineMode finishMs lostMs e) : e.origin = .composer := by
  obtain ⟨firstMs, hfirst, -⟩ := h.scheduled
  exact compose_error (build_request_metrics_error hfirst h.finish_eq h.metric_eq)

end Job

/-- How looking up a waiting request can fail. -/
inductive LookFails (engine : Engine C K) (nowMs : ℚ) (entry : Entry) (world : World C K) :
    ReplayError → Prop
  | cache {error cache} (hl : entry.lookup = none)
      (hraw : engine.cache.lookupPrefix entry.state.promptBlocks nowMs entry.id
        entry.state.instanceUuid world.cache = .error error cache) :
      LookFails engine nowMs entry world (.cache error)
  | accounting {raw cache e} (hl : entry.lookup = none)
      (hraw : engine.cache.lookupPrefix entry.state.promptBlocks nowMs entry.id
        entry.state.instanceUuid world.cache = .ok raw cache)
      (hacc : LookupMetrics.fromResult raw entry.request = .error e) :
      LookFails engine nowMs entry world e

theorem from_result_sum {raw : PrefixLookupResult} {request : SimulationRequest}
    {lookup : LookupMetrics} (h : LookupMetrics.fromResult raw request = .ok lookup) :
    lookup.effectiveHitTokens + lookup.missTokens = request.promptTokens := by
  unfold LookupMetrics.fromResult at h
  obtain ⟨accounted, hacc, h⟩ := except_bind_ok.mp h
  cases h
  exact (account_spec hacc).1

theorem fails_of_look {nowMs lostMs : ℚ} {entry : Entry} {world world' : World C K}
    {e : ReplayError} (hw : entry.Waiting engine.timelineMode nowMs lostMs)
    (h : engine.look nowMs entry world = .error e world') :
    LookFails engine nowMs entry world e := by
  cases hl : entry.lookup with
  | some lookup =>
    simp only [Engine.look, hl] at h
    cases h
  | none =>
    simp only [Engine.look, hl] at h
    rcases bind_error.mp h with h | ⟨_, _, -, h⟩
    swap
    · cases h
    unfold Engine.lookupRequest at h
    rcases bind_error.mp h with h | ⟨raw, world₁, hraw, h⟩
    · obtain ⟨error, cache, hraw, rfl, -⟩ := zoom_error.mp h
      exact .cache hl hraw
    obtain ⟨cache, hraw, -⟩ := zoom_ok.mp hraw
    rcases bind_error.mp h with h | ⟨_, world₂, -, h⟩
    · cases h
    rcases bind_error.mp h with h | ⟨lookup, world₃, hacc, h⟩
    · exact .accounting hl hraw (check_error.mp h).1
    rcases bind_error.mp h with h | ⟨_, world₄, -, h⟩
    · cases h
    rcases bind_error.mp h with h | ⟨_, _, -, h⟩
    · have hsum := from_result_sum (check_ok.mp hacc).1
      have hset : entry.state.setCacheLookup lookup.effectiveHitTokens lookup.missTokens
          lookup.ddrHitTokens lookup.ddrHitBytes = .ok (entry.state.withLookup lookup) :=
        RequestState.set_cache_lookup_ok.mpr ⟨hw.fresh hl, hsum.trans hw.tracks.tokens_eq.symm, rfl⟩
      rw [hset] at h
      cases h
    · cases h

/-- How walking down the waiting line can fail. -/
inductive ScanFails (engine : Engine C K) (nowMs : ℚ) (entries : List Entry) : ReplayError → Prop
  | look {entry world e} (he : entry ∈ entries) (h : LookFails engine nowMs entry world e) :
      ScanFails engine nowMs entries e
  | complete {entry world job world' e} (he : entry ∈ entries)
      (hlook : Looks engine nowMs entry world job world') (hr : job.state.remaining = 0)
      (hload : job.state.pendingLoad = (0, 0)) (hdone : job.complete nowMs = .error e) :
      ScanFails engine nowMs entries e

theorem ScanFails.cons {nowMs : ℚ} {entries : List Entry} {e : ReplayError} (entry : Entry)
    (h : ScanFails engine nowMs entries e) : ScanFails engine nowMs (entry :: entries) e := by
  cases h with
  | look he h => exact .look (List.mem_cons_of_mem _ he) h
  | complete he hlook hr hload hdone =>
    exact .complete (List.mem_cons_of_mem _ he) hlook hr hload hdone

theorem fails_of_scan {nowMs lostMs : ℚ} {entries : List Entry} {tokenBudget seats : ℕ}
    {world world' : World C K} {e : ReplayError}
    (hw : ∀ entry ∈ entries, entry.Waiting engine.timelineMode nowMs lostMs)
    (h : engine.scan nowMs tokenBudget seats entries world = .error e world') :
    ScanFails engine nowMs entries e := by
  induction entries generalizing tokenBudget seats world with
  | nil => cases h
  | cons entry entries ih =>
    have hrest := List.forall_mem_of_forall_mem_cons hw
    have hhead := hw entry (List.mem_cons_self ..)
    unfold Engine.scan at h
    split_ifs at h with hs
    · cases h
    rcases bind_error.mp h with h | ⟨job, world₁, hlook, h⟩
    · exact .look (List.mem_cons_self ..) (fails_of_look hhead h)
    have hlook := looks_of_look hlook
    by_cases hr : job.state.remaining = 0
    · rw [if_pos hr] at h
      by_cases hload : job.state.pendingLoad = (0, 0)
      · rw [if_neg (not_not.mpr hload)] at h
        rcases bind_error.mp h with h | ⟨completion, world₂, -, h⟩
        · exact .complete (List.mem_cons_self ..) hlook hr hload (check_error.mp h).1
        · rcases bind_error.mp h with h | ⟨_, _, -, h⟩
          · exact (ih hrest h).cons entry
          · cases h
      · rw [if_pos hload] at h
        rcases bind_error.mp h with h | ⟨_, _, -, h⟩
        · exact (ih hrest h).cons entry
        · cases h
    · rw [if_neg hr] at h
      by_cases hg : engine.config.grant job.state.remaining tokenBudget = 0
      · rw [if_pos hg] at h
        cases h
      · rw [if_neg hg] at h
        rcases bind_error.mp h with h | ⟨_, _, -, h⟩
        · exact (ih hrest h).cons entry
        · cases h

/-- The metric of a request that the preparation of a batch finishes could not be built. -/
theorem ScanFails.unclosed {nowMs lostMs : ℚ} {entry : Entry} {world world' : World C K}
    {job : Job} {e : ReplayError} (hw : entry.Waiting engine.timelineMode nowMs lostMs)
    (hlook : Looks engine nowMs entry world job world') (hr : job.state.remaining = 0)
    (hload : job.state.pendingLoad = (0, 0)) (hdone : job.complete nowMs = .error e) :
    Job.Unclosed engine.timelineMode nowMs lostMs
      { job with state := finishZeroMiss nowMs job.state } e := by
  refine ⟨(hw.look hlook).close hr hload, ?_⟩
  unfold Job.complete at hdone
  cases hm : buildRequestMetrics job.request (finishZeroMiss nowMs job.state) job.lookup with
  | error e' =>
    simp only [hm] at hdone
    cases hdone
    rfl
  | ok metric =>
    simp only [hm] at hdone
    cases hdone

/-- How submitting a KV transfer can fail. -/
inductive TransferFails (requestId instanceUuid queueUuid : String) : ReplayError → Prop
  | request_id (h : requestId = "") :
      TransferFails requestId instanceUuid queueUuid .transferRequestIdRequired
  | instance_uuid (h : instanceUuid = "") :
      TransferFails requestId instanceUuid queueUuid .transferInstanceRequired
  | mismatch (h : instanceUuid ≠ queueUuid) :
      TransferFails requestId instanceUuid queueUuid
        (.transferInstanceMismatch instanceUuid queueUuid)

theorem fails_of_charge_slice {timelineMode : TimelineMode} {startTimeMs : ℚ}
    {slice : ScheduledSlice} {contribution : IterationLatencyBreakdown} {state : RequestState}
    {queue : SharedLinkFIFOTransferQueue} {totals : IterationTotals} {e : ReplayError}
    (hstart : 0 ≤ startTimeMs)
    (h : chargeSlice timelineMode startTimeMs slice contribution state queue totals = .error e) :
    TransferFails state.requestId state.instanceUuid queue.instanceUuid e := by
  unfold chargeSlice recordScheduledKvLoadTiming at h
  have hnn : ¬(contribution.prefillComputeMs < 0 ∨ contribution.kvLoadMs < 0 ∨
      contribution.queueMs < 0) := by
    simp [contribution.prefill_nonneg, contribution.kv_load_nonneg, contribution.queue_nonneg]
  split_ifs at h with hnone
  · simp only [except_ok_bind, RequestState.recordLatencyContribution, if_neg hnn] at h
    cases h
  · unfold KVTransferRequest.build at h
    split_ifs at h with hid huuid hready
    · cases h
      exact .request_id hid
    · cases h
      exact .instance_uuid huuid
    · exact absurd hready (not_lt.mpr hstart)
    · simp only [except_ok_bind] at h
      unfold SharedLinkFIFOTransferQueue.submit at h
      split_ifs at h with hmismatch
      · cases h
        exact .mismatch hmismatch
      all_goals
        simp only [except_ok_bind, RequestState.recordKvLoadEvent, RequestState.recordKvLoadWait,
          RequestState.recordLatencyContribution] at h
        split_ifs at h with hneg
        · exact absurd hneg (not_lt.mpr (by
            have h₁ := contribution.kv_load_nonneg
            have h₂ := le_max_left startTimeMs queue.nextAvailableTimeMs
            simp only [SharedLinkFIFOTransferQueue.pruneCompleted]
            linarith))
        · simp only [except_ok_bind] at h
          cases h

theorem advance_slice_error {slice : ScheduledSlice} {lookup : LookupMetrics} {finishMs : ℚ}
    {progress : SliceProgress} {world world' : World C K} {e : ReplayError}
    (hl : progress.state.LookedUp) (harr : progress.state.arrivalTimeMs ≤ finishMs)
    (htokens : slice.scheduledPrefillTokens ≤ progress.state.remaining)
    (hload : slice.scheduledPrefillTokens = 0 → progress.state.remaining = 0)
    (h : engine.advanceSlice slice lookup finishMs progress world = .error e world') :
    ∃ error, e = .materialization error := by
  unfold Engine.advanceSlice at h
  split_ifs at h with ht
  · rw [hl.apply_load_only_eq, if_neg (not_lt.mpr harr), if_neg (not_not.mpr (hload ht))] at h
    cases h
  · have hstarted : ∀ state : RequestState, state.LookedUp → state.arrivalTimeMs ≤ finishMs →
        slice.scheduledPrefillTokens ≤ state.remaining →
        state.applyScheduledTokens slice.scheduledPrefillTokens finishMs =
          .ok (state.scheduled slice.scheduledPrefillTokens finishMs) := by
      intro state hl harr htokens
      rw [hl.apply_scheduled_eq, if_neg ht, if_neg (not_lt.mpr harr), if_neg (not_lt.mpr htokens)]
    cases hmode : engine.timelineMode with
    | legacy =>
      simp only [hmode] at h
      rw [hstarted progress.state hl harr htokens, check_ok_bind] at h
      simp only [Engine.materializeScheduledChunk, hmode] at h
      cases h
    | progressive =>
      simp only [hmode] at h
      rw [hstarted { progress.state with timelineState := .runningChunk } ⟨hl.done, hl.miss⟩ harr
        htokens, check_ok_bind] at h
      simp only [Engine.materializeScheduledChunk, hmode] at h
      rcases bind_error.mp h with h | ⟨_, _, -, h⟩
      · unfold onMaterialization at h
        obtain ⟨error, _, _, rfl, -⟩ := zoom_error.mp h
        exact ⟨error, rfl⟩
      · cases h

theorem complete_slice_error {lookup : LookupMetrics} {request : SimulationRequest} {finishMs : ℚ}
    {progress : SliceProgress} {world world' : World C K} {e : ReplayError}
    (h : engine.completeSlice lookup (.ok request) finishMs progress world = .error e world') :
    (∃ error, e = .materialization error) ∨
      progress.state.status = .finished ∧ ∃ progress', progress.Same progress' ∧
        buildRequestMetrics request progress'.state lookup = .error e := by
  have hbuild : ∀ (progress' : SliceProgress) (world : World C K),
      (do let request ← check (.ok request)
          let metric ← check (buildRequestMetrics request progress'.state lookup)
          return (progress', some metric)) world =
        (.error e world' : EStateM.Result ReplayError (World C K)
          (SliceProgress × Option BatchAwareRequestMetrics)) →
      buildRequestMetrics request progress'.state lookup = .error e := by
    intro progress' world h
    rw [check_ok_bind] at h
    rcases bind_error.mp h with h | ⟨_, _, -, h⟩
    · exact (check_error.mp h).1
    · cases h
  have hcall : ∀ (x : EStateM MaterializationError C (List PrefixBlock)) (world : World C K),
      (onMaterialization x : Replay C K (List PrefixBlock)) world = .error e world' →
        ∃ error, e = .materialization error := by
    intro x world h
    unfold onMaterialization at h
    obtain ⟨error, _, _, rfl, -⟩ := zoom_error.mp h
    exact ⟨error, rfl⟩
  unfold Engine.completeSlice at h
  by_cases hfin : progress.state.status = .finished
  · rw [if_pos hfin] at h
    by_cases hblocks : lookup.materializationBlocks = []
    · rw [if_pos hblocks, pure_bind] at h
      exact .inr ⟨hfin, progress, ⟨rfl, rfl, rfl⟩, hbuild progress world h⟩
    rw [if_neg hblocks] at h
    rcases bind_error.mp h with h | ⟨progress', world₁, hmat, h⟩
    · cases hmode : engine.timelineMode
      all_goals
        simp only [Engine.materializeFinishedRequest, hmode] at h
        rcases bind_error.mp h with h | ⟨_, _, -, h⟩
        · exact .inl (hcall _ _ h)
        · cases h
    · refine .inr ⟨hfin, progress', ?_, hbuild progress' world₁ h⟩
      cases hmode : engine.timelineMode
      all_goals
        simp only [Engine.materializeFinishedRequest, hmode] at hmat
        obtain ⟨blocks, _, -, hmat⟩ := bind_ok.mp hmat
        cases hmat
      · exact ⟨rfl, rfl, rfl⟩
      · exact ⟨RequestState.record_progressive_unlabelled _ _, rfl, rfl⟩
  · rw [if_neg hfin] at h
    cases hmode : engine.timelineMode <;> simp only [hmode] at h <;> cases h

/-- How serving a slice can fail. -/
inductive SliceFails (engine : Engine C K) (facts : IterationFacts) (job : Job)
    (slice : ScheduledSlice) (queue : SharedLinkFIFOTransferQueue) (lostMs : ℚ) :
    ReplayError → Prop
  | transfer {e} (h : TransferFails job.state.requestId job.state.instanceUuid
      queue.instanceUuid e) : SliceFails engine facts job slice queue lostMs e
  | materialization (error : MaterializationError) :
      SliceFails engine facts job slice queue lostMs (.materialization error)
  | metric {progress e}
      (hadvanced : Advanced engine.timelineMode facts.shape.startTimeMs facts.finishMs slice
        (sliceContribution facts.breakdown facts.shape slice) job.state queue progress)
      (hunclosed : (job.served slice facts.durationMs progress).Unclosed engine.timelineMode
        facts.finishMs lostMs e) :
      SliceFails engine facts job slice queue lostMs e

theorem Batched.fails {facts : IterationFacts} {nowMs lostMs : ℚ} {job : Job}
    {slice : ScheduledSlice} {queue : SharedLinkFIFOTransferQueue} {totals : IterationTotals}
    {world world' : World C K} {e : ReplayError} (hle : nowMs ≤ facts.finishMs)
    (hb : Batched engine.timelineMode nowMs lostMs (job, some slice))
    (hwork : slice.scheduledPrefillTokens ≠ 0 ∨ job.state.remaining = 0)
    (h : engine.applySlice facts.shape.startTimeMs facts.finishMs slice
      (sliceContribution facts.breakdown facts.shape slice) job.state job.lookup (.ok job.request)
      queue totals world = .error e world') :
    SliceFails engine facts job slice queue
      (lostMs + (nowMs + facts.durationMs - facts.finishMs)) e := by
  obtain ⟨planned, tokens, hin, hs⟩ := hb
  have hd := hs.describes
  have he : job = planned.handOver := hs.job_eq
  subst he
  have hl := hin.ledger.knows.consumed.looked_up
  have hbefore : slice.computedTokensBefore = planned.handOver.state.numComputedTokens := by
    simpa [Job.handOver] using hd.before_eq
  have hprompt : slice.promptTokens = planned.handOver.state.promptTokens := by
    simpa [Job.handOver] using hd.prompt_eq
  have harrived : planned.handOver.state.arrivalTimeMs ≤ facts.finishMs := by
    obtain ⟨firstMs, -, ha, hn⟩ := hin.scheduled
    simpa [Job.handOver] using (ha.trans hn).trans hle
  have hcomputed : planned.handOver.state.numComputedTokens ≤
      planned.handOver.state.promptTokens := by
    simpa [Job.handOver] using hin.ledger.computed_le
  unfold Engine.applySlice at h
  rcases bind_error.mp h with hfail | ⟨charged, world₀, hcheck, hrest⟩
  · exact .transfer (fails_of_charge_slice facts.shape.start_nonneg (check_error.mp hfail).1)
  have hc := charge_slice_ok (check_ok.mp hcheck).1
  have hkeeps := hc.keeps
  have hremaining : charged.state.remaining = planned.handOver.state.remaining := by
    unfold RequestState.remaining
    rw [hkeeps.prompt_eq, hkeeps.computed_eq]
  have hmat : charged.record.materialized = [] := by rw [hc.record_eq]
  rcases bind_error.mp hrest with hfail | ⟨advanced, world₁, hadvance, hcomplete⟩
  · obtain ⟨error, rfl⟩ := advance_slice_error (hkeeps.looked_up hl)
      (hkeeps.arrival_eq ▸ harrived) (by
        have hafter := slice.after_eq
        have hafter' := slice.after_le
        rw [hremaining]
        unfold RequestState.remaining
        omega) (fun ht ↦ hremaining.trans (hwork.resolve_left (not_not.mpr ht))) hfail
    exact .materialization error
  · obtain ⟨started, hst, harr, hprog, hqueue, hrec, -⟩ := advance_slice_ok
      (hkeeps.looked_up hl) (by rw [hkeeps.computed_eq, hkeeps.prompt_eq]; exact hcomputed) hmat
      hadvance
    have hadvanced := hc.advanced hst harr hprog hqueue hrec
    rcases complete_slice_error hcomplete with ⟨error, rfl⟩ | ⟨hfin, progress, hsame, hbuild⟩
    · exact .materialization error
    · have hadvanced' := hadvanced.relabel hsame
      have hstatus : progress.state.status = .finished :=
        (congrArg RequestState.status hsame.state_eq :).trans hfin
      exact .metric hadvanced'
        ⟨(hin.proceed hle hs hadvanced' facts.durationMs).close hstatus, hbuild⟩

/-- How serving a batch can fail: at one of its slices, the earlier ones being served. -/
inductive ApplyFails (engine : Engine C K) (facts : IterationFacts) (lostMs : ℚ) :
    List (Job × Option ScheduledSlice) → SharedLinkFIFOTransferQueue → ReplayError → Prop
  | here {job slice batch queue e} (h : SliceFails engine facts job slice queue lostMs e) :
      ApplyFails engine facts lostMs ((job, some slice) :: batch) queue e
  | idle {job batch queue e} (h : ApplyFails engine facts lostMs batch queue e) :
      ApplyFails engine facts lostMs ((job, none) :: batch) queue e
  | later {job slice batch queue progress e}
      (hadvanced : Advanced engine.timelineMode facts.shape.startTimeMs facts.finishMs slice
        (sliceContribution facts.breakdown facts.shape slice) job.state queue progress)
      (h : ApplyFails engine facts lostMs batch progress.queue e) :
      ApplyFails engine facts lostMs ((job, some slice) :: batch) queue e

theorem fails_of_apply_batch {facts : IterationFacts} {nowMs lostMs : ℚ}
    {batch : List (Job × Option ScheduledSlice)} {queue : SharedLinkFIFOTransferQueue}
    {totals : IterationTotals} {world world' : World C K} {e : ReplayError}
    (hle : nowMs ≤ facts.finishMs)
    (hb : ∀ item ∈ batch, Batched engine.timelineMode nowMs lostMs item)
    (hwork : ∀ item ∈ batch, ∀ slice ∈ item.2,
      slice.scheduledPrefillTokens ≠ 0 ∨ item.1.state.remaining = 0)
    (h : engine.applyBatch facts batch queue totals world = .error e world') :
    ApplyFails engine facts (lostMs + (nowMs + facts.durationMs - facts.finishMs)) batch queue
      e := by
  induction batch generalizing queue totals world with
  | nil => cases h
  | cons item batch ih =>
    obtain ⟨job, slice⟩ := item
    have hb' := List.forall_mem_of_forall_mem_cons hb
    have hwork' := List.forall_mem_of_forall_mem_cons hwork
    cases slice with
    | none =>
      unfold Engine.applyBatch at h
      rcases bind_error.mp h with h | ⟨_, _, -, h⟩
      · exact .idle (ih hb' hwork' h)
      · cases h
    | some slice =>
      have hitem := hb _ (List.mem_cons_self ..)
      unfold Engine.applyBatch at h
      rcases bind_error.mp h with h | ⟨⟨progress, metric⟩, world₁, hslice, h⟩
      · exact .here (hitem.fails hle (hwork _ (List.mem_cons_self ..) slice rfl) h)
      rcases bind_error.mp h with h | ⟨_, _, -, h⟩
      · exact .later (hitem.served hslice).toAdvanced (ih hb' hwork' h)
      · cases metric <;> cases h

/-- How an iteration can fail. -/
inductive IterateFails (engine : Engine C K) (instanceUuid : String) (session : Session)
    (frontier : Frontier) (world : World C K) : ReplayError → World C K → Prop
  | empty (hg : frontier.granted = []) (ha : frontier.admitted = []) :
      IterateFails engine instanceUuid session frontier world .emptyBatch world
  | latency {e world'} (h : e.origin = .latency) :
      IterateFails engine instanceUuid session frontier world e world'
  | apply {granted admitted shape latency world₁ breakdown e world'}
      (hgranted : sliceAll frontier.granted = .ok granted)
      (hadmitted : sliceAll (frontier.entering session.nowMs) = .ok admitted)
      (hshape : batchShape instanceUuid session ((granted ++ admitted).map Prod.snd) = .ok shape)
      (hlatency : engine.estimateLatency shape world = .ok latency world₁)
      (hbreakdown : latencyBreakdownFromResult latency = .ok breakdown)
      (h : ApplyFails engine
        { shape, breakdown, durationMs := latency.durationMs,
          finishMs := engine.clock.add session.nowMs latency.durationMs }
        (session.lostMs + (session.nowMs + latency.durationMs -
          engine.clock.add session.nowMs latency.durationMs))
        (batchOf granted frontier.idle admitted) session.transferQueue e) :
      IterateFails engine instanceUuid session frontier world e world'

theorem build_iteration_metrics_exists (shape : BatchShape) {latency : LatencyResult}
    {breakdown : IterationLatencyBreakdown} (h : latencyBreakdownFromResult latency = .ok breakdown)
    (finishMs : ℚ) (timelineMode : TimelineMode) (computeWait : ComputeWaitAccounting)
    (totals : IterationTotals) :
    ∃ metric, buildIterationMetrics shape latency finishMs timelineMode computeWait totals =
      .ok metric := by
  simp only [buildIterationMetrics, h, except_ok_bind]
  exact ⟨_, rfl⟩

namespace Frontier.Prepared

variable {session : Session} {frontier : Frontier}

theorem sliceable_granted (h : frontier.Prepared engine session) :
    ∀ planned ∈ frontier.granted, planned.1.Sliceable planned.2 := by
  intro planned hp
  obtain ⟨hrun, hpos, hle, -⟩ := h.granted planned hp
  exact ⟨hrun.ledger.knows.looked_up, hrun.ledger.cached_le, hrun.ledger.computed_le, hle,
    .inl hpos.ne'⟩

theorem sliceable_entering (h : frontier.Prepared engine session) :
    ∀ planned ∈ frontier.entering session.nowMs, planned.1.Sliceable planned.2 := by
  intro planned hp
  obtain ⟨item, hi, rfl⟩ := List.mem_map.mp hp
  obtain ⟨hready, hle, -, hwork⟩ := h.admitted item hi
  have hledger := hready.enter.ledger
  exact ⟨hledger.knows.looked_up, hledger.cached_le, hledger.computed_le, hle,
    hwork.imp_right fun hload ↦ hload.2⟩

/-- The clock is past the arrival of whoever is on the frontier. -/
theorem now_nonneg (h : frontier.Prepared engine session) (hleft : ¬frontier.Empty) :
    0 ≤ session.nowMs := by
  have hpast : ∀ {request : SimulationRequest} {state : RequestState},
      state.Tracks engine.timelineMode request → state.arrivalTimeMs ≤ session.nowMs →
        0 ≤ session.nowMs := by
    intro request state ht ha
    exact ht.arrival_nonneg.trans (ht.arrival_eq ▸ ha)
  have hrunning : ∀ job : Job, job.Running engine.timelineMode session.nowMs session.lostMs →
      0 ≤ session.nowMs := by
    intro job hrun
    obtain ⟨firstMs, -, ha, hn⟩ := hrun.scheduled
    exact hpast hrun.ledger.tracks (ha.trans hn)
  cases hw : frontier.waiting with
  | cons entry entries =>
    have hwait := h.waiting entry (by simp [hw])
    exact hpast hwait.tracks hwait.arrived
  | nil =>
    cases hadm : frontier.admitted with
    | cons item items =>
      have hready := (h.admitted item (by simp [hadm])).1
      exact hpast hready.ledger.tracks hready.arrived
    | nil =>
      cases hg : frontier.granted with
      | cons item items => exact hrunning item.1 (h.granted item (by simp [hg])).1
      | nil =>
        cases hi : frontier.idle with
        | cons job jobs => exact hrunning job (h.idle job (by simp [hi]))
        | nil => exact absurd ⟨hw, hadm, hg, hi⟩ hleft

theorem fails_of_iterate (h : frontier.Prepared engine session) (hleft : ¬frontier.Empty)
    {instanceUuid : String} {world world' : World C K} {e : ReplayError}
    (hi : engine.iterate instanceUuid session frontier world = .error e world') :
    IterateFails engine instanceUuid session frontier world e world' := by
  obtain ⟨granted, hg⟩ := slice_all_exists h.sliceable_granted
  obtain ⟨admitted, ha⟩ := slice_all_exists h.sliceable_entering
  obtain ⟨shape, hshape⟩ : ∃ shape,
      batchShape instanceUuid session ((granted ++ admitted).map Prod.snd) = .ok shape := by
    unfold batchShape
    rw [dif_neg (not_lt.mpr (h.now_nonneg hleft))]
    exact ⟨_, rfl⟩
  unfold Engine.iterate at hi
  rw [hg, ha, check_ok_bind, check_ok_bind, hshape, check_ok_bind] at hi
  split_ifs at hi with hsize
  · cases hi
    have hslices := (batch_shape_ok hshape).2.1
    unfold BatchShape.batchSize at hsize
    rw [hslices, List.length_map, List.length_append] at hsize
    have hgl := (h.sliced_granted hg).length_eq
    have hal := (h.sliced_admitted ha).length_eq
    simp only [entering, List.length_map] at hal
    exact .empty (List.length_eq_zero_iff.mp (by omega)) (List.length_eq_zero_iff.mp (by omega))
  · rcases bind_error.mp hi with hi | ⟨latency, world₁, hlatency, hi⟩
    · exact .latency (estimate_latency_error hi)
    rcases bind_error.mp hi with hi | ⟨breakdown, world₂, hcheck, hi⟩
    · exact .latency (latency_breakdown_error (check_error.mp hi).1)
    have hbreakdown := (check_ok.mp hcheck).1
    have hle := engine.clock.le_add session.nowMs latency.durationMs latency.duration_nonneg
    rcases bind_error.mp hi with hi | ⟨applied, world₃, -, hi⟩
    · exact .apply hg ha hshape hlatency hbreakdown
        (fails_of_apply_batch hle (h.batched hg ha) (h.slices_work hg ha) hi)
    · obtain ⟨metric, hmetric⟩ := build_iteration_metrics_exists shape hbreakdown
        (engine.clock.add session.nowMs latency.durationMs) engine.timelineMode
        (engine.sittingOut latency.durationMs (frontier.waiting.length + frontier.idle.length))
        applied.totals
      rw [hmetric, check_ok_bind] at hi
      cases hi

end Frontier.Prepared

/-- How a pass can fail. -/
inductive PassFails (engine : Engine C K) (instanceUuid : String) (session : Session)
    (world : World C K) : ReplayError → World C K → Prop
  | arrival {request world'} (hr : request ∈ session.pending) (hneg : request.startTimeMs < 0) :
      PassFails engine instanceUuid session world .negativeArrivalTime world'
  | prepare {received e world'} (hreceive : Receives engine session received)
      (h : ScanFails engine received.nowMs received.waiting e) :
      PassFails engine instanceUuid session world e world'
  | iterate {received frontier e world₁ world'} (hreceive : Receives engine session received)
      (hprepares : Prepares engine received world frontier world₁) (hleft : ¬frontier.Empty)
      (h : IterateFails engine instanceUuid received frontier (engine.drained world₁) e world') :
      PassFails engine instanceUuid session world e world'

theorem arrivals_error {timelineMode : TimelineMode} {nowMs lostMs : ℚ} {seq : ℕ}
    {pending : List SimulationRequest} {e : ReplayError}
    (h : arrivals timelineMode nowMs lostMs seq pending = .error e) :
    e = .negativeArrivalTime ∧ ∃ request ∈ pending, request.startTimeMs < 0 := by
  induction pending generalizing seq with
  | nil => cases h
  | cons request pending ih =>
    unfold arrivals at h
    split_ifs at h with hle
    cases hentry : Entry.arrive timelineMode nowMs lostMs request seq with
    | ok entry =>
      rw [hentry, except_ok_bind] at h
      cases hrest : arrivals timelineMode nowMs lostMs (seq + 1) pending with
      | ok rest =>
        rw [hrest] at h
        cases h
      | error e' =>
        rw [hrest] at h
        cases h
        obtain ⟨rfl, other, ho, hneg⟩ := ih hrest
        exact ⟨rfl, other, List.mem_cons_of_mem _ ho, hneg⟩
    | error e' =>
      rw [hentry] at h
      cases h
      unfold Entry.arrive stateFromRequest at hentry
      split_ifs at hentry with hneg
      · cases hentry
        exact ⟨rfl, request, List.mem_cons_self .., hneg⟩
      · rw [except_ok_bind] at hentry
        cases timelineMode with
        | legacy => cases hentry
        | progressive =>
          simp only [recordInitialComputeWait, RequestState.recordComputeWait] at hentry
          split_ifs at hentry with h₁ h₂
          · exact absurd h₁ (not_lt.mpr hle)
          · linarith
          · cases hentry

theorem receive_error {session : Session} {e : ReplayError} (h : engine.receive session = .error e) :
    e = .negativeArrivalTime ∧ ∃ request ∈ session.pending, request.startTimeMs < 0 := by
  unfold Engine.receive at h
  cases harr : arrivals engine.timelineMode session.nowMs session.lostMs session.arrivals
    session.pending with
  | ok moved =>
    rw [harr] at h
    cases h
  | error e' =>
    rw [harr] at h
    cases h
    exact arrivals_error harr

theorem fails_of_pass {instanceUuid : String} {session : Session} {world world' : World C K}
    {e : ReplayError} (hw : session.Wf engine.config engine.timelineMode requests)
    (h : engine.pass instanceUuid session world = .error e world') :
    PassFails engine instanceUuid session world e world' := by
  unfold Engine.pass at h
  rcases bind_error.mp h with hfail | ⟨received, world₀, hcheck, hrest⟩
  · obtain ⟨rfl, request, hr, hneg⟩ := receive_error (check_error.mp hfail).1
    exact .arrival hr hneg
  obtain ⟨hok, hworld⟩ := check_ok.mp hcheck
  rw [hworld] at hrest
  clear h hcheck hworld
  rename' hrest => h
  have hreceive := receives_of_receive hok
  have hwf := hreceive.wf hw
  by_cases hidle : received.Idle
  · rw [if_pos hidle] at h
    cases hp : received.pending <;> simp only [hp] at h <;> cases h
  rw [if_neg hidle] at h
  rcases bind_error.mp h with h | ⟨frontier, world₁, hfrontier, h⟩
  · refine .prepare hreceive ?_
    unfold Engine.frontier at h
    split_ifs at h
    · cases h
    rcases bind_error.mp h with h | ⟨_, _, -, h⟩
    · exact fails_of_scan hwf.waiting h
    · cases h
  have hprepares := prepares_of_frontier hfrontier
  rcases bind_error.mp h with h | ⟨_, world₂, hdrain, h⟩
  · cases h
  rw [drain_ok.mp hdrain] at h
  by_cases hempty : frontier.Empty
  · rw [if_pos hempty] at h
    cases hp : received.pending <;> simp only [hp] at h <;> cases h
  · rw [if_neg hempty] at h
    rcases bind_error.mp h with h | ⟨_, _, -, h⟩
    · exact .iterate hreceive hprepares hempty
        ((hprepares.prepared hwf).fails_of_iterate hempty h)
    · cases h

theorem TransferFails.origin {requestId instanceUuid queueUuid : String} {e : ReplayError}
    (h : TransferFails requestId instanceUuid queueUuid e) : e.origin = .transfer := by
  cases h <;> rfl

theorem ApplyFails.origin {facts : IterationFacts} {lostMs : ℚ}
    {batch : List (Job × Option ScheduledSlice)} {queue : SharedLinkFIFOTransferQueue}
    {e : ReplayError} (h : ApplyFails engine facts lostMs batch queue e) :
    e.origin = .transfer ∨ e.origin = .materialization ∨ e.origin = .composer := by
  induction h with
  | here h =>
    cases h with
    | transfer h => exact .inl h.origin
    | materialization => exact .inr (.inl rfl)
    | metric _ hunclosed => exact .inr (.inr hunclosed.composer)
  | idle _ ih => exact ih
  | later _ _ ih => exact ih

/-- The exceptions that a pass can end with. -/
theorem PassFails.origin {instanceUuid : String} {session : Session} {world world' : World C K}
    {e : ReplayError} (hw : session.Wf engine.config engine.timelineMode requests)
    (h : PassFails engine instanceUuid session world e world') :
    e.origin ∈ [.arrival, .cache, .accounting, .latency, .materialization, .transfer, .composer,
      .emptyBatch] := by
  cases h with
  | arrival => simp [ReplayError.origin]
  | prepare hreceive h =>
    cases h with
    | look he h =>
      cases h with
      | cache => simp [ReplayError.origin]
      | accounting _ _ hacc => simp [from_result_error hacc]
    | complete he hlook hr hload hdone =>
      have hunclosed := ScanFails.unclosed ((hreceive.wf hw).waiting _ he) hlook hr hload hdone
      simp [hunclosed.composer]
  | iterate _ _ _ h =>
    cases h with
    | empty => simp [ReplayError.origin]
    | latency h => simp [h]
    | apply _ _ _ _ _ h => rcases h.origin with h | h | h <;> simp [h]

/-- A run that fails, fails in one of its passes. -/
theorem serve_all_error {instanceUuid : String} {fuel : ℕ} {session : Session}
    {world world' : World C K} {e : ReplayError}
    (hw : session.Wf engine.config engine.timelineMode requests) (hf : session.potential < fuel)
    (h : engine.serveAll instanceUuid fuel session world = .error e world') :
    ∃ last, Relation.ReflTransGen (Steps engine instanceUuid) (session, world) last ∧
      engine.pass instanceUuid last.1 last.2 = .error e world' := by
  induction fuel generalizing session world with
  | zero => exact absurd hf (Nat.not_lt_zero _)
  | succ fuel ih =>
    unfold Engine.serveAll at h
    split_ifs at h
    · cases h
    rcases bind_error.mp h with h | ⟨flow, world₁, hpass, h⟩
    · exact ⟨_, .refl, h⟩
    · have hpasses := passes_of_pass hpass
      cases flow with
      | stop final => cases h
      | proceed next =>
        have hlt := hpasses.potential_lt hw
        have hfuel : next.potential < fuel := by omega
        obtain ⟨last, hreach, hfails⟩ := ih (hpasses.wf hw) hfuel h
        have hstep : Steps engine instanceUuid (session, world) (next, world₁) := hpass
        exact ⟨last, .head hstep hreach, hfails⟩

/-- Whatever every pass keeps holds wherever a run comes. -/
theorem steps_induction {instanceUuid : String} {P : Session → World C K → Prop}
    (hstep : ∀ session world flow world', P session world →
      Passes engine instanceUuid session world flow world' → P flow.state world')
    {before after : Session × World C K}
    (h : Relation.ReflTransGen (Steps engine instanceUuid) before after)
    (hp : P before.1 before.2) : P after.1 after.2 := by
  induction h with
  | refl => exact hp
  | tail _ hlast ih => exact hstep _ _ _ _ ih (passes_of_pass hlast)

theorem steps_wf {instanceUuid : String} {before after : Session × World C K}
    (h : Relation.ReflTransGen (Steps engine instanceUuid) before after)
    (hw : before.1.Wf engine.config engine.timelineMode requests) :
    after.1.Wf engine.config engine.timelineMode requests :=
  steps_induction (P := fun session _ ↦ session.Wf engine.config engine.timelineMode requests)
    (fun _ _ _ _ hw hpass ↦ hpass.wf hw) h hw

end InferTwin
