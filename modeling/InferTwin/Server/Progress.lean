import InferTwin.Server.Kept

namespace InferTwin

open Effect

variable {C K : Type} {engine : Engine C K}

/-- No account of the request is negative. -/
structure RequestState.Accrued (state : RequestState) : Prop where
  compute_wait_nonneg : state.timelineMode = .progressive → 0 ≤ state.computeWaitMs
  kv_wait_nonneg : 0 ≤ state.kvLoadWaitMs
  prefill_nonneg : 0 ≤ state.prefillComputeMs

theorem RequestState.Accrued.consumed {state : RequestState} (h : state.Accrued) :
    state.consumed.Accrued := by
  rw [consumed_eq]
  exact { h with }

theorem RequestState.Accrued.sitOut {state : RequestState} (h : state.Accrued)
    (timelineMode : TimelineMode) {durationMs : ℚ} (hduration : 0 ≤ durationMs) :
    (state.sitOut timelineMode durationMs).Accrued := by
  cases timelineMode with
  | legacy => exact h
  | progressive => exact {
      compute_wait_nonneg := fun hmode ↦ add_nonneg (h.compute_wait_nonneg hmode) hduration
      kv_wait_nonneg := h.kv_wait_nonneg
      prefill_nonneg := h.prefill_nonneg }

theorem Loads.elapsed_nonneg {timelineMode : TimelineMode} {startTimeMs kvLoadMs elapsedMs : ℚ}
    {slice : ScheduledSlice} {queue queue' : SharedLinkFIFOTransferQueue}
    (h : Loads timelineMode startTimeMs slice kvLoadMs queue elapsedMs queue')
    (hload : 0 ≤ kvLoadMs) : 0 ≤ elapsedMs := by
  cases h with
  | none => exact le_rfl
  | link _ _ _ hnext =>
    have hstart := le_max_left startTimeMs queue.nextAvailableTimeMs
    rw [hnext]
    linarith

theorem Advanced.accrued {timelineMode : TimelineMode} {startTimeMs finishMs : ℚ}
    {slice : ScheduledSlice} {contribution : IterationLatencyBreakdown} {state : RequestState}
    {queue : SharedLinkFIFOTransferQueue} {progress : SliceProgress}
    (h : Advanced timelineMode startTimeMs finishMs slice contribution state queue progress)
    (ha : state.Accrued) : progress.state.Accrued := by
  have hp := h.progressed
  have hmode : progress.state.timelineMode = state.timelineMode :=
    (congrArg RequestState.timelineMode hp.standing_eq :)
  have hwait : progress.state.computeWaitMs = state.computeWaitMs :=
    (congrArg RequestState.computeWaitMs hp.standing_eq :)
  constructor
  · rw [hmode, hwait]
    exact ha.compute_wait_nonneg
  · rw [hp.kv_wait_eq]
    exact add_nonneg ha.kv_wait_nonneg (h.loads.elapsed_nonneg contribution.kv_load_nonneg)
  · rw [hp.prefill_eq]
    exact add_nonneg ha.prefill_nonneg contribution.prefill_nonneg

theorem validate_returns {composition : RequestTTFTComposition}
    (hobserved : 0 ≤ composition.observedTtftMs) (httft : 0 ≤ composition.ttftMs)
    (hwait : 0 ≤ composition.schedulerWaitMs) (hcompute : 0 ≤ composition.computeWaitMs)
    (hload : 0 ≤ composition.kvLoadWaitMs) (hprefill : 0 ≤ composition.uncachedPrefillComputeMs)
    (hrest : 0 ≤ composition.unattributedTtftMs) : composition.validate = .ok composition := by
  unfold RequestTTFTComposition.validate
  rw [if_neg (not_lt.mpr hobserved), if_neg (not_lt.mpr httft), if_neg (not_lt.mpr hwait),
    if_neg (not_lt.mpr hcompute), if_neg (not_lt.mpr hload), if_neg (not_lt.mpr hprefill),
    if_neg (not_lt.mpr hrest)]

namespace Job

/-- The composer has a decomposition for a finished request with sound accounts, unless
they explain more than was observed. -/
theorem Closed.metric_exists {timelineMode : TimelineMode} {finishMs lostMs : ℚ} {job : Job}
    (h : job.Closed timelineMode finishMs lostMs) (ha : job.state.Accrued)
    (hresidual : timelineMode = .progressive →
      0 ≤ RequestTTFTComposer.residualMs job.request job.state finishMs) :
    ∃ metric, buildRequestMetrics job.request job.state job.lookup = .ok metric := by
  obtain ⟨firstMs, hfirst, harrived, hle⟩ := h.scheduled
  have htracks := h.ledger.tracks
  rw [htracks.arrival_eq] at harrived
  suffices hcompose : ∃ composition,
      RequestTTFTComposer.compose job.request job.state finishMs firstMs = .ok composition by
    obtain ⟨composition, hcompose⟩ := hcompose
    unfold buildRequestMetrics
    rw [hfirst, h.finish_eq]
    simp only [requiredTime, except_ok_bind, hcompose]
    exact ⟨_, rfl⟩
  have hkv := ha.kv_wait_nonneg
  have hprefill := ha.prefill_nonneg
  unfold RequestTTFTComposer.compose
  rw [if_neg (not_lt.mpr (harrived.trans hle)), if_neg (not_lt.mpr harrived), htracks.mode_eq]
  cases timelineMode with
  | legacy =>
    have hobserved : 0 ≤ finishMs - job.request.startTimeMs := by linarith
    have hwait : 0 ≤ firstMs - job.request.startTimeMs := by linarith
    exact ⟨_, validate_returns hobserved hobserved hwait le_rfl le_rfl hprefill le_rfl⟩
  | progressive =>
    have hcompute := ha.compute_wait_nonneg htracks.mode_eq
    have hres := hresidual rfl
    have hobserved : 0 ≤ finishMs - job.request.startTimeMs := by linarith
    have hsmall : ¬RequestTTFTComposer.residualMs job.request job.state finishMs <
        -RequestTTFTComposer.epsilonMs := by
      norm_num [RequestTTFTComposer.epsilonMs]
      linarith
    have hrest : ∀ {p : Prop} [Decidable p], 0 ≤ job.state.unattributedTtftMs +
        if p then 0 else RequestTTFTComposer.residualMs job.request job.state finishMs := by
      intro p _
      rw [htracks.unattributed_eq, zero_add]
      split_ifs
      · exact le_rfl
      · exact hres
    unfold RequestTTFTComposer.composeProgressive
    dsimp only
    rw [if_neg hsmall]
    exact ⟨_, validate_returns hobserved (add_nonneg (add_nonneg (add_nonneg hcompute hkv)
      hprefill) hrest) (add_nonneg hcompute hkv) hcompute hkv hprefill hrest⟩

end Job

/-- The request has what the policy is told of it. -/
structure RequestState.Answerable (timelineMode : TimelineMode) (lookup : LookupMetrics)
    (state : RequestState) : Prop where
  own : lookup.materializationBlocks ⊆ state.promptBlocks
  block_size : timelineMode = .progressive → state.promptBlocks ≠ [] → state.effectiveBlockSize ≠ 0

theorem RequestState.Answerable.of_standing {timelineMode : TimelineMode} {lookup : LookupMetrics}
    {state state' : RequestState} (h : state.Answerable timelineMode lookup)
    (he : state'.standing = state.standing) : state'.Answerable timelineMode lookup := by
  have hblocks : state'.promptBlocks = state.promptBlocks :=
    (congrArg RequestState.promptBlocks he :)
  have hsize : state'.effectiveBlockSize = state.effectiveBlockSize :=
    (congrArg RequestState.effectiveBlockSize he :)
  constructor
  · rw [hblocks]
    exact h.own
  · rw [hblocks, hsize]
    exact h.block_size

section Slices

variable {good : C → Prop} {world : World C K} {slice : ScheduledSlice} {lookup : LookupMetrics}
  {finishMs : ℚ} {progress : SliceProgress}

theorem on_materialization_returns {α : Type} {x : EStateM MaterializationError C α}
    (h : ∃ a c', x world.cache = .ok a c' ∧ good c') (hs : world.Sound engine good) :
    ∃ a world', (onMaterialization x : Replay C K α) world = .ok a world' ∧
      world'.Sound engine good := by
  obtain ⟨a, c', hx, hc'⟩ := h
  exact ⟨a, { world with cache := c' }, zoom_ok.mpr ⟨c', hx, rfl⟩, hc', hs.memo⟩

theorem scheduled_chunk_returns (hcache : engine.cache.Serves good)
    (hpolicy : engine.materializationPolicy = defaultMaterializationPolicy engine.timelineMode)
    (hs : world.Sound engine good) (ha : progress.state.Answerable engine.timelineMode lookup) :
    ∃ progress' world', engine.materializeScheduledChunk slice lookup finishMs progress world =
      .ok progress' world' ∧ world'.Sound engine good := by
  unfold Engine.materializeScheduledChunk
  cases hmode : engine.timelineMode with
  | legacy => exact ⟨progress, world, rfl, hs⟩
  | progressive =>
    have hle : slice.computedTokensBefore ≤ slice.computedTokensAfter := by
      have hafter := slice.after_eq
      omega
    have hcall : MaterializationCall.Answerable {
        blocks := lookup.materializationBlocks
        finishTimeMs := finishMs
        requestId := progress.state.requestId
        instanceUuid := progress.state.instanceUuid
        promptBlocks := progress.state.promptBlocks
        effectiveBlockSize := progress.state.effectiveBlockSize
        alreadyMaterializedBlockKeys := progress.state.progressiveMaterializedBlockKeys } :=
      ⟨ha.own, ha.block_size hmode⟩
    obtain ⟨blocks, world', hchunk, hs'⟩ := on_materialization_returns
      (progressive_chunk_returns hcache hs.cache hcall hle) hs
    rw [hpolicy, hmode]
    exact ⟨progress.materialized blocks, world', bind_ok.mpr ⟨blocks, world', hchunk, rfl⟩, hs'⟩

theorem finished_request_returns (hcache : engine.cache.Serves good)
    (hpolicy : engine.materializationPolicy = defaultMaterializationPolicy engine.timelineMode)
    (hs : world.Sound engine good) (ha : progress.state.Answerable engine.timelineMode lookup) :
    ∃ progress' world', engine.materializeFinishedRequest lookup finishMs progress world =
      .ok progress' world' ∧ progress.Same progress' := by
  unfold Engine.materializeFinishedRequest
  cases hmode : engine.timelineMode with
  | legacy =>
    obtain ⟨blocks, world', hfinish, -⟩ := on_materialization_returns
      (finish_time_returns hcache hs.cache _) hs
    rw [hpolicy, hmode]
    exact ⟨_, world', bind_ok.mpr ⟨blocks, world', hfinish, rfl⟩, rfl, rfl, rfl⟩
  | progressive =>
    have hcall : MaterializationCall.Answerable {
        blocks := lookup.materializationBlocks
        finishTimeMs := finishMs
        requestId := progress.state.requestId
        instanceUuid := progress.state.instanceUuid
        promptBlocks := progress.state.promptBlocks
        effectiveBlockSize := progress.state.effectiveBlockSize
        alreadyMaterializedBlockKeys := progress.state.progressiveMaterializedBlockKeys } :=
      ⟨ha.own, ha.block_size hmode⟩
    obtain ⟨blocks, world', hfinish, -⟩ := on_materialization_returns
      (progressive_finish_returns hcache hs.cache hcall) hs
    rw [hpolicy, hmode]
    exact ⟨progress.materialized blocks, world', bind_ok.mpr ⟨blocks, world', hfinish, rfl⟩,
      RequestState.record_progressive_unlabelled _ _, rfl, rfl⟩

theorem charge_slice_returns {startTimeMs : ℚ} {contribution : IterationLatencyBreakdown}
    {state : RequestState} {queue : SharedLinkFIFOTransferQueue} {totals : IterationTotals}
    (hstart : 0 ≤ startTimeMs) (hid : state.requestId ≠ "") (huuid : state.instanceUuid ≠ "")
    (hown : state.instanceUuid = queue.instanceUuid) :
    ∃ charged, chargeSlice engine.timelineMode startTimeMs slice contribution state queue totals =
      .ok charged := by
  cases hcharge : chargeSlice engine.timelineMode startTimeMs slice contribution state queue
    totals with
  | ok charged => exact ⟨charged, rfl⟩
  | error e =>
    cases fails_of_charge_slice hstart hcharge with
    | request_id h => exact absurd h hid
    | instance_uuid h => exact absurd h huuid
    | mismatch h => exact absurd hown h

theorem advance_slice_returns (hcache : engine.cache.Serves good)
    (hpolicy : engine.materializationPolicy = defaultMaterializationPolicy engine.timelineMode)
    (hs : world.Sound engine good) (ha : progress.state.Answerable engine.timelineMode lookup)
    (hl : progress.state.LookedUp) (harr : progress.state.arrivalTimeMs ≤ finishMs)
    (htokens : slice.scheduledPrefillTokens ≤ progress.state.remaining)
    (hload : slice.scheduledPrefillTokens = 0 → progress.state.remaining = 0) :
    ∃ progress' world', engine.advanceSlice slice lookup finishMs progress world =
      .ok progress' world' ∧ world'.Sound engine good := by
  unfold Engine.advanceSlice
  split_ifs with ht
  · rw [hl.apply_load_only_eq, if_neg (not_lt.mpr harr), if_neg (not_not.mpr (hload ht))]
    exact ⟨_, _, rfl, hs⟩
  · have hstarted : ∀ state : RequestState, state.LookedUp → state.arrivalTimeMs ≤ finishMs →
        slice.scheduledPrefillTokens ≤ state.remaining →
        state.applyScheduledTokens slice.scheduledPrefillTokens finishMs =
          .ok (state.scheduled slice.scheduledPrefillTokens finishMs) := by
      intro state hl harr htokens
      rw [hl.apply_scheduled_eq, if_neg ht, if_neg (not_lt.mpr harr), if_neg (not_lt.mpr htokens)]
    have hchunk : ∀ state : RequestState, state.standing = progress.state.standing →
        ∃ progress' world', engine.materializeScheduledChunk slice lookup finishMs
          { progress with state } world = .ok progress' world' ∧ world'.Sound engine good :=
      fun state hst ↦ scheduled_chunk_returns hcache hpolicy hs (ha.of_standing hst)
    cases hmode : engine.timelineMode with
    | legacy =>
      dsimp only
      rw [hstarted progress.state hl harr htokens, check_ok_bind]
      exact hchunk _ rfl
    | progressive =>
      dsimp only
      rw [hstarted { progress.state with timelineState := .runningChunk } ⟨hl.done, hl.miss⟩ harr
        htokens, check_ok_bind]
      exact hchunk _ rfl

theorem complete_slice_returns {request : SimulationRequest} (hcache : engine.cache.Serves good)
    (hpolicy : engine.materializationPolicy = defaultMaterializationPolicy engine.timelineMode)
    (hs : world.Sound engine good) (ha : progress.state.Answerable engine.timelineMode lookup)
    (hmetric : progress.state.status = .finished → ∀ progress', progress.Same progress' →
      ∃ metric, buildRequestMetrics request progress'.state lookup = .ok metric) :
    ∃ served world', engine.completeSlice lookup (.ok request) finishMs progress world =
      .ok served world' := by
  unfold Engine.completeSlice
  by_cases hfin : progress.state.status = .finished
  · rw [if_pos hfin]
    have hclose : ∀ (progress' : SliceProgress) (world' : World C K), progress.Same progress' →
        ∃ served world'', (do
          let request ← check (.ok request)
          let metric ← check (buildRequestMetrics request progress'.state lookup)
          return (progress', some metric) : Replay C K _) world' = .ok served world'' := by
      intro progress' world' hsame
      obtain ⟨metric, hmetric⟩ := hmetric hfin progress' hsame
      exact ⟨(progress', some metric), world', bind_ok.mpr
        ⟨request, world', rfl, bind_ok.mpr ⟨metric, world', check_ok.mpr ⟨hmetric, rfl⟩, rfl⟩⟩⟩
    split_ifs
    · exact hclose progress world ⟨rfl, rfl, rfl⟩
    · obtain ⟨progress', world₁, hmade, hsame⟩ := @finished_request_returns _ _ engine good world
        lookup finishMs progress hcache hpolicy hs ha
      obtain ⟨served, world₂, hclosed⟩ := hclose progress' world₁ hsame
      exact ⟨served, world₂, bind_ok.mpr ⟨progress', world₁, hmade, hclosed⟩⟩
  · rw [if_neg hfin]
    cases engine.timelineMode <;> exact ⟨_, _, rfl⟩

end Slices

/-- The accounting has an answer to every lookup of the request. -/
structure SimulationRequest.Accountable (request : SimulationRequest) : Prop where
  supported : ∀ conversion ∈ request.blockConversionResult, conversion.unsupportedReason = none
  tokens_le : blockTokens request.promptBlocks ≤ request.promptTokens

theorem SimulationRequest.Accountable.account_returns {request : SimulationRequest}
    (h : request.Accountable) {raw : PrefixLookupResult}
    (hraw : raw.hbmHitBlocks ++ raw.ddrHitBlocks ++ raw.missBlocks = request.promptBlocks) :
    ∃ lookup, LookupMetrics.fromResult raw request = .ok lookup := by
  have hconversion : (request.blockConversionResult.getD
      (legacyConversionResult raw request.promptTokens)).unsupportedReason = none := by
    cases hc : request.blockConversionResult with
    | none => rfl
    | some conversion => exact h.supported conversion hc
  have hle : ∀ (blocks : List PrefixBlock) (budget size : ℕ),
      (takeAccountedBlocks blocks budget size).2 ≤ blockTokens blocks := by
    intro blocks budget size
    obtain ⟨rest, hrest⟩ := take_accounted_prefix blocks budget size
    rw [take_accounted_tokens]
    calc blockTokens (takeAccountedBlocks blocks budget size).1
        ≤ blockTokens ((takeAccountedBlocks blocks budget size).1 ++ rest) := by
          rw [blockTokens_append]
          exact Nat.le_add_right _ _
      _ = blockTokens blocks := by rw [hrest]
  have hsum : blockTokens raw.hbmHitBlocks + blockTokens raw.ddrHitBlocks +
      blockTokens raw.missBlocks = blockTokens request.promptBlocks := by
    rw [← hraw, blockTokens_append, blockTokens_append]
  have htokens := h.tokens_le
  unfold LookupMetrics.fromResult accountPrefixLookup
  dsimp only
  rw [hconversion]
  dsimp only
  rw [if_neg]
  · exact ⟨_, rfl⟩
  · refine not_lt.mpr ((Nat.add_le_add (hle _ _ _) (hle _ _ _)).trans ?_)
    omega

section Lookups

variable {good : C → Prop} {nowMs lostMs : ℚ}

theorem look_returns (hcache : engine.cache.Serves good) (hsplits : engine.cache.Splits)
    {entry : Entry} {world : World C K} (hw : entry.Waiting engine.timelineMode nowMs lostMs)
    (hr : entry.request.Accountable) (hs : world.Sound engine good) :
    ∃ job world', engine.look nowMs entry world = .ok job world' := by
  cases hlook : engine.look nowMs entry world with
  | ok job world' => exact ⟨job, world', rfl⟩
  | error e world' =>
    have hfails := fails_of_look hw hlook
    obtain ⟨raw', c', hlookup, -⟩ := hcache.lookup hs.cache entry.state.promptBlocks nowMs entry.id
      entry.state.instanceUuid
    cases hfails with
    | cache _ hraw =>
      rw [hlookup] at hraw
      cases hraw
    | accounting _ hraw hacc =>
      have hsplit := hsplits _ _ _ _ _ _ _ hraw
      rw [hw.tracks.blocks_eq] at hsplit
      obtain ⟨lookup, hlookup⟩ := hr.account_returns hsplit
      rw [hlookup] at hacc
      cases hacc

/-- The line can be walked down when every request on it can be looked up, and closed where
there is nothing left to do for it. -/
theorem scan_returns (hcache : engine.cache.Serves good) (hsplits : engine.cache.Splits)
    (hkept : engine.Kept (World.Sound engine good)) {entries : List Entry}
    (hw : ∀ entry ∈ entries, entry.Waiting engine.timelineMode nowMs lostMs)
    (hr : ∀ entry ∈ entries, entry.request.Accountable)
    (hclose : ∀ entry ∈ entries, ∀ world job world', Looks engine nowMs entry world job world' →
      job.state.remaining = 0 → job.state.pendingLoad = (0, 0) →
        ∃ completion, job.complete nowMs = .ok completion)
    (tokenBudget seats : ℕ) {world : World C K} (hs : world.Sound engine good) :
    ∃ scan world', engine.scan nowMs tokenBudget seats entries world = .ok scan world' := by
  induction entries generalizing tokenBudget seats world with
  | nil => exact ⟨{}, world, rfl⟩
  | cons entry entries ih =>
    obtain ⟨hhead, hw⟩ := List.forall_mem_cons.mp hw
    obtain ⟨hrhead, hr⟩ := List.forall_mem_cons.mp hr
    obtain ⟨hdone, hclose⟩ := List.forall_mem_cons.mp hclose
    have hrest := fun tokenBudget seats {world : World C K} hs ↦
      @ih hw hr hclose tokenBudget seats world hs
    unfold Engine.scan
    by_cases hseats : seats = 0
    · rw [if_pos hseats]
      exact ⟨_, world, rfl⟩
    rw [if_neg hseats]
    obtain ⟨job, world₁, hlook⟩ := look_returns hcache hsplits hhead hrhead hs
    have hs₁ : world₁.Sound engine good := (hkept.look nowMs entry).ok hs hlook
    have hlooks := looks_of_look hlook
    suffices hturn : ∃ scan world', (if job.state.remaining = 0 then _ else _ : Replay C K Scan)
        world₁ = .ok scan world' by
      obtain ⟨scan, world', hturn⟩ := hturn
      exact ⟨scan, world', bind_ok.mpr ⟨job, world₁, hlook, hturn⟩⟩
    by_cases hrem : job.state.remaining = 0
    · rw [if_pos hrem]
      by_cases hload : job.state.pendingLoad = (0, 0)
      · rw [if_neg (not_not.mpr hload)]
        obtain ⟨completion, hcompletion⟩ := hdone _ _ _ hlooks hrem hload
        obtain ⟨scan, world', hscan⟩ := hrest tokenBudget seats hs₁
        exact ⟨_, world', bind_ok.mpr ⟨completion, world₁, check_ok.mpr ⟨hcompletion, rfl⟩,
          bind_ok.mpr ⟨scan, world', hscan, rfl⟩⟩⟩
      · rw [if_pos hload]
        obtain ⟨scan, world', hscan⟩ := hrest tokenBudget (seats - 1) hs₁
        exact ⟨_, world', bind_ok.mpr ⟨scan, world', hscan, rfl⟩⟩
    · rw [if_neg hrem]
      by_cases hgrant : engine.config.grant job.state.remaining tokenBudget = 0
      · rw [if_pos hgrant]
        exact ⟨_, world₁, rfl⟩
      · rw [if_neg hgrant]
        obtain ⟨scan, world', hscan⟩ := hrest (tokenBudget -
          engine.config.grant job.state.remaining tokenBudget) (seats - 1) hs₁
        exact ⟨_, world', bind_ok.mpr ⟨scan, world', hscan, rfl⟩⟩

end Lookups

end InferTwin
