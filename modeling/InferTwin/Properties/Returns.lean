import InferTwin.Properties.Completion
import InferTwin.Properties.Isolation
import InferTwin.Properties.PhantomHits
import InferTwin.Properties.Ttft
import InferTwin.Server.Progress
import InferTwin.Tables.Run

namespace InferTwin

open Effect

variable {C K : Type} {engine : Engine C K} {requests : List SimulationRequest}
  {instanceUuid : String} {bytesPerToken : ℕ} {good : C → Prop}

/-- The cache, the policy and the backend can answer what a replay asks of them about the
request, and a batch can hold it. -/
structure SimulationRequest.Servable (engine : Engine C K) (instanceUuid : String)
    (bytesPerToken : ℕ) (request : SimulationRequest) : Prop
    extends request.Admissible instanceUuid, request.Accountable where
  bytes : ∀ block ∈ request.promptBlocks, block.sizeBytes = block.tokenCount * bytesPerToken
  block_size : engine.timelineMode = .progressive → request.promptBlocks ≠ [] →
    request.effectiveBlockSize.getD 0 ≠ 0
  holds : engine.config.enableChunkedPrefill = true ∨
    request.promptTokens ≤ engine.config.maxNumBatchedTokens

/-- The engine has the policy of its timeline mode, and a cache and a backend that do not fail. -/
structure Engine.Reliable (engine : Engine C K) (bytesPerToken : ℕ) (good : C → Prop) : Prop where
  clock_eq : engine.clock = .exact
  policy_eq : engine.materializationPolicy = defaultMaterializationPolicy engine.timelineMode
  backend : ServingBackend engine.latencyBackend
  loads : 0 < bytesPerToken ∨
    ∀ shape, ∃ latency, engine.latencyBackend.estimateIteration shape = .ok latency
  serves : engine.cache.Serves good
  splits : engine.cache.Splits

theorem Engine.Reliable.kept (h : engine.Reliable bytesPerToken good) :
    engine.Kept (World.Sound engine good) :=
  World.sound_kept h.serves (h.policy_eq ▸ default_policy_repository _) h.backend

/-- What is known of a request that is being served, beside its stage. -/
structure Job.Carried (engine : Engine C K) (instanceUuid : String) (bytesPerToken : ℕ)
    (job : Job) : Prop where
  servable : job.request.Servable engine instanceUuid bytesPerToken
  lost_eq : job.lostMs = 0
  misses : MissesOwn job.request job.lostMs (some job.lookup)
  accrued : job.state.Accrued
  fits : ∀ service ∈ job.services, service.Fits

/-- A request that has only waited owes nothing to the clock. -/
theorem Job.Ready.accrued {timelineMode : TimelineMode} {nowMs : ℚ} {job : Job}
    (h : job.Ready timelineMode nowMs 0) (hlost : job.lostMs = 0) : job.state.Accrued := by
  have hkv := h.ledger.kv_wait_eq
  have hprefill := h.ledger.prefill_eq
  rw [h.unserved] at hkv hprefill
  constructor
  · intro hmode
    have hwaited := h.waited (h.ledger.tracks.mode_eq.symm.trans hmode)
    rw [hwaited, hlost, Job.servedMs, h.unserved]
    simpa using h.arrived
  · rw [hkv]
    exact le_rfl
  · rw [hprefill]
    exact le_rfl

/-- What was never charged for more than it was served has a metric, if the clock is exact. -/
theorem Job.Closed.metric_of_fits {timelineMode : TimelineMode} {finishMs : ℚ} {job : Job}
    (h : job.Closed timelineMode finishMs 0) (ha : job.state.Accrued) (hlost : job.lostMs = 0)
    (hfits : ∀ service ∈ job.services, service.Fits) :
    ∃ metric, buildRequestMetrics job.request job.state job.lookup = .ok metric := by
  refine h.metric_exists ha fun hmode ↦ ?_
  subst hmode
  have hcharged := h.ledger.charged_le hfits
  rw [h.residual_eq, hlost]
  linarith

/-- A waiting request with nothing left to do can be closed. -/
theorem Job.Ready.complete_returns {timelineMode : TimelineMode} {nowMs : ℚ} {job : Job}
    (h : job.Ready timelineMode nowMs 0) (hlost : job.lostMs = 0) (hr : job.state.remaining = 0)
    (hload : job.state.pendingLoad = (0, 0)) :
    ∃ completion, job.complete nowMs = .ok completion := by
  have hclosed := h.close hr hload
  have haccrued := h.accrued hlost
  obtain ⟨metric, hmetric⟩ := hclosed.metric_of_fits
    ⟨haccrued.compute_wait_nonneg, haccrued.kv_wait_nonneg, haccrued.prefill_nonneg⟩ hlost
    (by simp [h.unserved])
  unfold Job.complete
  dsimp only at hmetric ⊢
  rw [hmetric]
  exact ⟨_, rfl⟩

section Batch

variable {facts : IterationFacts} {nowMs : ℚ} {job : Job} {slice : ScheduledSlice}
  {queue : SharedLinkFIFOTransferQueue} {totals : IterationTotals} {world : World C K}

theorem Job.Carried.answerable {timelineMode : TimelineMode}
    (h : job.Carried engine instanceUuid bytesPerToken)
    (ht : job.state.Tracks timelineMode job.request) :
    job.state.Answerable engine.timelineMode job.lookup where
  own := ht.blocks_eq ▸ h.misses _ rfl
  block_size := by
    rw [ht.blocks_eq, ht.block_size_eq]
    exact h.servable.block_size

/-- A slice can be served, when its request is not charged for more than the iteration. -/
theorem Batched.returns (he : engine.Reliable bytesPerToken good) (huuid : instanceUuid ≠ "")
    (hfinish : facts.finishMs = nowMs + facts.durationMs) (hduration : 0 ≤ facts.durationMs)
    (hs : world.Sound engine good)
    (hb : Batched engine.timelineMode nowMs 0 (job, some slice))
    (hwork : slice.scheduledPrefillTokens ≠ 0 ∨ job.state.remaining = 0)
    (hjob : job.Carried engine instanceUuid bytesPerToken)
    (hqueue : queue.instanceUuid = instanceUuid)
    (hfits : ∀ progress, Advanced engine.timelineMode facts.shape.startTimeMs facts.finishMs slice
      (sliceContribution facts.breakdown facts.shape slice) job.state queue progress →
        progress.record.kvElapsedMs + progress.record.prefillMs ≤ facts.durationMs) :
    ∃ served world', engine.applySlice facts.shape.startTimeMs facts.finishMs slice
      (sliceContribution facts.breakdown facts.shape slice) job.state job.lookup (.ok job.request)
      queue totals world = .ok served world' := by
  have htracks := hb.tracks
  have hown : job.state.instanceUuid = instanceUuid :=
    htracks.instance_eq.trans hjob.servable.instance_eq
  obtain ⟨charged, hcharge⟩ := @charge_slice_returns _ _ engine slice facts.shape.startTimeMs
    (sliceContribution facts.breakdown facts.shape slice) job.state queue totals
    facts.shape.start_nonneg (htracks.id_eq ▸ hjob.servable.id_ne) (hown ▸ huuid)
    (hown.trans hqueue.symm)
  obtain ⟨planned, tokens, hin, hsliced⟩ := hb
  have hd := hsliced.describes
  have hplanned : job = planned.handOver := hsliced.job_eq
  have hl : job.state.LookedUp := hplanned ▸ hin.ledger.knows.consumed.looked_up
  have hbefore : slice.computedTokensBefore = job.state.numComputedTokens := by
    simpa [hplanned, Job.handOver] using hd.before_eq
  have hprompt : slice.promptTokens = job.state.promptTokens := by
    simpa [hplanned, Job.handOver] using hd.prompt_eq
  have hle : nowMs ≤ facts.finishMs := by linarith
  have harrived : job.state.arrivalTimeMs ≤ facts.finishMs := by
    obtain ⟨firstMs, -, ha, hn⟩ := hin.scheduled
    simpa [hplanned, Job.handOver] using (ha.trans hn).trans hle
  have hcomputed : job.state.numComputedTokens ≤ job.state.promptTokens := by
    simpa [hplanned, Job.handOver] using hin.ledger.computed_le
  have hc := charge_slice_ok hcharge
  have hkeeps := hc.keeps
  have hremaining : charged.state.remaining = job.state.remaining := by
    unfold RequestState.remaining
    rw [hkeeps.prompt_eq, hkeeps.computed_eq]
  have hcharged : charged.state.standing = job.state.standing :=
    (congrArg RequestState.standing hc.state_eq :)
  have hanswer := hjob.answerable htracks
  have hmat : charged.record.materialized = [] := by rw [hc.record_eq]
  obtain ⟨advanced, world₁, hadvance, hs₁⟩ := @advance_slice_returns _ _ engine good world slice
    job.lookup facts.finishMs charged he.serves he.policy_eq hs (hanswer.of_standing hcharged)
    (hkeeps.looked_up hl) (hkeeps.arrival_eq ▸ harrived) (by
      have hafter := slice.after_eq
      have hafter' := slice.after_le
      rw [hremaining]
      unfold RequestState.remaining
      omega) fun ht ↦ hremaining.trans (hwork.resolve_left (not_not.mpr ht))
  obtain ⟨started, hst, harr, hprog, hadvqueue, hrec, -⟩ := advance_slice_ok
    (hkeeps.looked_up hl) (by rw [hkeeps.computed_eq, hkeeps.prompt_eq]; exact hcomputed) hmat
    hadvance
  have hadvanced := hc.advanced hst harr hprog hadvqueue hrec
  have hstanding := hadvanced.progressed.standing_eq
  obtain ⟨served, world₂, hcomplete⟩ := @complete_slice_returns _ _ engine good world₁ job.lookup
    facts.finishMs advanced job.request he.serves he.policy_eq hs₁ (hanswer.of_standing hstanding)
    fun hfin progress hsame ↦ by
      -- the request is done, and has been charged for no more than it was served
      have hadvanced' := hadvanced.relabel hsame
      have hstatus : progress.state.status = .finished :=
        (congrArg RequestState.status hsame.state_eq :).trans hfin
      have hclosed := (hin.proceed hle hsliced hadvanced' facts.durationMs).close hstatus
      rw [show (0 : ℚ) + (nowMs + facts.durationMs - facts.finishMs) = 0 by rw [hfinish]; ring]
        at hclosed
      refine hclosed.metric_of_fits (hadvanced'.accrued hjob.accrued) hjob.lost_eq ?_
      exact List.forall_mem_append.mpr
        ⟨hjob.fits, List.forall_mem_singleton.mpr (hfits progress hadvanced')⟩
  exact ⟨served, world₂, bind_ok.mpr ⟨charged, world, check_ok.mpr ⟨hcharge, rfl⟩,
    bind_ok.mpr ⟨advanced, world₁, hadvance, hcomplete⟩⟩⟩

/-- The slices of a batch share out the iteration one after the other. -/
theorem apply_batch_returns (he : engine.Reliable bytesPerToken good) (huuid : instanceUuid ≠ "")
    (hfinish : facts.finishMs = nowMs + facts.durationMs) (hduration : 0 ≤ facts.durationMs)
    (hsum : facts.breakdown.kvLoadMs + facts.breakdown.prefillComputeMs ≤ facts.durationMs)
    {batch : List (Job × Option ScheduledSlice)} {spentMs : ℚ}
    (hb : ∀ item ∈ batch, Batched engine.timelineMode nowMs 0 item)
    (hwork : ∀ item ∈ batch, ∀ slice ∈ item.2,
      slice.scheduledPrefillTokens ≠ 0 ∨ item.1.state.remaining = 0)
    (hjobs : ∀ item ∈ batch, item.1.Carried engine instanceUuid bytesPerToken)
    (hroom : facts.Room spentMs (batch.filterMap Prod.snd))
    (hlink : queue.nextAvailableTimeMs ≤ facts.shape.startTimeMs + spentMs)
    (hqueue : queue.instanceUuid = instanceUuid) (hs : world.Sound engine good) :
    ∃ applied world', engine.applyBatch facts batch queue totals world = .ok applied world' := by
  induction batch generalizing queue totals world spentMs with
  | nil => exact ⟨_, world, rfl⟩
  | cons item batch ih =>
    obtain ⟨job, slice⟩ := item
    have hitem := hb _ (List.mem_cons_self ..)
    have hworks := hwork _ (List.mem_cons_self ..)
    have hjob := hjobs _ (List.mem_cons_self ..)
    have hb' := List.forall_mem_of_forall_mem_cons hb
    have hwork' := List.forall_mem_of_forall_mem_cons hwork
    have hjobs' := List.forall_mem_of_forall_mem_cons hjobs
    cases slice with
    | none =>
      obtain ⟨applied, world', hrest⟩ := @ih queue totals world spentMs hb' hwork' hjobs' hroom hlink
        hqueue hs
      exact ⟨_, world', bind_ok.mpr ⟨applied, world', hrest, rfl⟩⟩
    | some slice =>
      obtain ⟨⟨progress, metric⟩, world₁, hslice⟩ := @Batched.returns C K engine instanceUuid
        bytesPerToken good facts nowMs job slice queue totals world he huuid hfinish hduration hs
        hitem (hworks slice rfl) hjob hqueue fun progress hadvanced ↦ by
          obtain ⟨-, hkv, hprefill⟩ := hadvanced.linked hroom hlink
          linarith
      have hserved := (hitem.served hslice).toAdvanced
      have hs₁ := (he.kept.applySlice _ _ _ _ _ _ _ _ _).ok hs hslice
      obtain ⟨applied, world', hrest⟩ := @ih progress.queue progress.totals world₁
        (spentMs + facts.loadMs slice) hb' hwork' hjobs' hroom.next (hserved.linked hroom hlink).1
        (hserved.loads.uuid_eq.trans hqueue) hs₁
      cases metric with
      | none => exact ⟨_, world', bind_ok.mpr ⟨(progress, none), world₁, hslice, bind_ok.mpr
          ⟨applied, world', hrest, rfl⟩⟩⟩
      | some metric => exact ⟨_, world', bind_ok.mpr ⟨(progress, some metric), world₁, hslice,
          bind_ok.mpr ⟨applied, world', hrest, rfl⟩⟩⟩

end Batch

/-- What is known of a replay between two passes. -/
structure Session.Live (engine : Engine C K) (instanceUuid : String) (bytesPerToken : ℕ)
    (good : C → Prop) (requests : List SimulationRequest) (session : Session) (world : World C K) :
    Prop where
  audited : session.Audited engine instanceUuid requests world
  decomposed : session.Decomposed engine bytesPerToken world
  misses : session.Throughout MissesOwn
  accrued : ∀ job ∈ session.running, job.state.Accrued
  sound : world.Sound engine good

section Pass

variable {session received : Session} {frontier : Frontier} {world world₁ : World C K}

theorem Receives.running_eq (h : Receives engine session received) :
    received.running = session.running := by
  obtain ⟨⟨_, _, -, he, -⟩, -⟩ := h
  rw [he]

/-- The line of received requests can be walked down. -/
theorem Session.Live.frontier_returns (he : engine.Reliable bytesPerToken good)
    (hw : session.Wf engine.config engine.timelineMode requests)
    (hr : ∀ request ∈ requests, request.Servable engine instanceUuid bytesPerToken)
    (h : session.Live engine instanceUuid bytesPerToken good requests world)
    (hreceive : Receives engine session received) :
    ∃ frontier world₁, engine.frontier received world = .ok frontier world₁ := by
  have hwf := hreceive.wf hw
  obtain ⟨hsized, hlost⟩ := h.decomposed.received hreceive
  unfold Engine.frontier
  split_ifs
  · exact ⟨_, world, rfl⟩
  · have hactive : ∀ entry ∈ received.waiting, entry.request.Accountable := fun entry hentry ↦
      (hr _ (hwf.request_mem entry (List.mem_append_right _ hentry))).toAccountable
    obtain ⟨scan, world₁, hscan⟩ := scan_returns he.serves he.splits he.kept hwf.waiting hactive
      (fun entry hentry _ job _ hlook hrem hload ↦ by
        have hwait := hwf.waiting entry hentry
        rw [hlost] at hwait
        have hkeeps := hlook.keeps (sized_kept he.splits) hwait (hsized.waiting entry hentry)
        exact (hwait.look hlook).complete_returns hkeeps.lost_eq hrem hload)
      _ _ h.sound
    exact ⟨_, world₁, bind_ok.mpr ⟨scan, world₁, hscan, rfl⟩⟩

theorem Session.Live.batch_accrued (he : engine.Reliable bytesPerToken good)
    (hw : session.Wf engine.config engine.timelineMode requests)
    (h : session.Live engine instanceUuid bytesPerToken good requests world)
    (hreceive : Receives engine session received)
    (hprepares : Prepares engine received world frontier world₁)
    {granted admitted : List (Job × ScheduledSlice)} (hg : sliceAll frontier.granted = .ok granted)
    (hadm : sliceAll (frontier.entering received.nowMs) = .ok admitted) :
    ∀ item ∈ batchOf granted frontier.idle admitted, item.1.state.Accrued := by
  have hwf := hreceive.wf hw
  have hprepared := hprepares.prepared hwf
  obtain ⟨hsized, hlost⟩ := h.decomposed.received hreceive
  obtain ⟨hadmitted, -⟩ := hprepares.keeps (sized_kept he.splits) hwf hsized
  refine hprepared.batch_forall (Q := fun job ↦ job.state.Accrued) hg hadm ?_ ?_
    (fun job hj ↦ hj.consumed) fun job hj ↦
      ⟨hj.compute_wait_nonneg, hj.kv_wait_nonneg, hj.prefill_nonneg⟩
  · rw [hreceive.running_eq]
    exact h.accrued
  · intro item hi
    have hready := (hprepared.admitted item hi).1
    rw [hlost] at hready
    exact hready.accrued (hadmitted item hi).lost_eq

theorem Session.Live.batch_carried (he : engine.Reliable bytesPerToken good)
    (hw : session.Wf engine.config engine.timelineMode requests)
    (hr : ∀ request ∈ requests, request.Servable engine instanceUuid bytesPerToken)
    (h : session.Live engine instanceUuid bytesPerToken good requests world)
    (hreceive : Receives engine session received)
    (hprepares : Prepares engine received world frontier world₁)
    {granted admitted : List (Job × ScheduledSlice)} (hg : sliceAll frontier.granted = .ok granted)
    (hadm : sliceAll (frontier.entering received.nowMs) = .ok admitted) :
    ∀ item ∈ batchOf granted frontier.idle admitted,
      item.1.Carried engine instanceUuid bytesPerToken := by
  have hwf := hreceive.wf hw
  have hprepared := hprepares.prepared hwf
  obtain ⟨hsized, -⟩ := h.decomposed.received hreceive
  have hmisses : received.Throughout MissesOwn :=
    hreceive.throughout (fun _ _ ↦ by simp [MissesOwn]) h.misses
  obtain ⟨hadmitted, -⟩ := hprepares.keeps (sized_kept he.splits) hwf hsized
  obtain ⟨hmissing, -⟩ := hprepares.keeps (misses_own_kept he.splits) hwf hmisses
  have hsizes := hprepared.batch_forall (Q := fun job ↦
    Sized bytesPerToken job.request job.lostMs (some job.lookup)) hg hadm hsized.running hadmitted
    (fun _ ↦ id) fun _ ↦ id
  have hmiss := hprepared.batch_forall (Q := fun job ↦
    MissesOwn job.request job.lostMs (some job.lookup)) hg hadm hmisses.running hmissing
    (fun _ ↦ id) fun _ ↦ id
  have hservices := hprepared.batch_services hprepares (hreceive.accounts h.audited.accounts) hg
    hadm
  intro item hi
  refine ⟨hr _ (hprepared.batch_requests hprepares hwf hg hadm item hi), (hsizes item hi).lost_eq,
    hmiss item hi, h.batch_accrued he hw hreceive hprepares hg hadm item hi, ?_⟩
  rw [← hservices item hi]
  exact services_fit h.decomposed.balanced.records _

/-- No batch is empty. -/
theorem Prepares.busy (hr : ∀ request ∈ requests, engine.config.enableChunkedPrefill = true ∨
      request.promptTokens ≤ engine.config.maxNumBatchedTokens)
    (h : Prepares engine session world frontier world₁)
    (hw : session.Wf engine.config engine.timelineMode requests)
    (hremembers : session.Remembers engine.config world.trace) (hleft : ¬frontier.Empty) :
    frontier.granted ≠ [] ∨ frontier.admitted ≠ [] := by
  by_contra! hnone
  obtain ⟨hc, item, hitem, hover⟩ := h.stuck hw hremembers hleft hnone.1 hnone.2
  -- whoever is too large is still waiting, and lacks no more than its prompt
  obtain ⟨entry, hentry, hid, hlookup⟩ := (h.remembers hw hremembers).2.2 hc item hitem hover
  have hwait := (h.prepared hw).waiting entry hentry
  obtain ⟨hledger, -⟩ := hwait.known item.2 hlookup
  have hsum : item.2.effectiveHitTokens + item.2.missTokens = entry.request.promptTokens :=
    hledger.knows.sum_eq.trans hwait.tracks.tokens_eq
  have hmem : entry.request ∈ requests := by
    rcases h.from_line.waiting entry hentry with hkept | ⟨source, hs, job, _, _, hlook, -, rfl⟩
    · exact hw.request_mem entry (List.mem_append_right _ hkept)
    · have hrequest : job.entry.request = source.request := hlook.request_eq
      rw [hrequest]
      exact hw.request_mem source (List.mem_append_right _ hs)
  rcases hr _ hmem with hchunked | hle
  · rw [hc] at hchunked
    cases hchunked
  · unfold LookupMetrics.Oversized at hover
    omega

theorem Session.Live.iterate_returns (he : engine.Reliable bytesPerToken good)
    (huuid : instanceUuid ≠ "") (hw : session.Wf engine.config engine.timelineMode requests)
    (hr : ∀ request ∈ requests, request.Servable engine instanceUuid bytesPerToken)
    (h : session.Live engine instanceUuid bytesPerToken good requests world)
    (hreceive : Receives engine session received)
    (hprepares : Prepares engine received world frontier world₁) (hs : world₁.Sound engine good)
    (hleft : ¬frontier.Empty) :
    ∃ next world', engine.iterate instanceUuid received frontier (engine.drained world₁) =
      .ok next world' := by
  have hwf := hreceive.wf hw
  have hprepared := hprepares.prepared hwf
  obtain ⟨hsized, hlost⟩ := h.decomposed.received hreceive
  obtain ⟨granted, hg⟩ := slice_all_exists hprepared.sliceable_granted
  obtain ⟨admitted, hadm⟩ := slice_all_exists hprepared.sliceable_entering
  obtain ⟨shape, hshape⟩ : ∃ shape, batchShape instanceUuid received
      ((granted ++ admitted).map Prod.snd) = .ok shape := by
    unfold batchShape
    rw [dif_neg (not_lt.mpr (hprepared.now_nonneg hleft))]
    exact ⟨_, rfl⟩
  obtain ⟨-, hslices, -⟩ := batch_shape_ok hshape
  have hsize : shape.batchSize ≠ 0 := by
    have hbusy := hprepares.busy (fun request hrequest ↦ (hr request hrequest).holds) hwf
      (hreceive.remembers h.audited.remembers) hleft
    have hgl := (hprepared.sliced_granted hg).length_eq
    have hal := (hprepared.sliced_admitted hadm).length_eq
    simp only [Frontier.entering, List.length_map] at hal
    unfold BatchShape.batchSize
    rw [hslices, List.length_map, List.length_append, ← hgl, ← hal]
    rcases hbusy with hbusy | hbusy
    · have hpos := List.length_pos_iff.mpr hbusy
      omega
    · have hpos := List.length_pos_iff.mpr hbusy
      omega
  -- whoever loads tokens loads bytes, so that the backend has an answer
  obtain ⟨hadmitted, -⟩ := hprepares.keeps (sized_kept he.splits) hwf hsized
  have hbytes : shape.LoadsBytes ∨
      ∃ latency, engine.latencyBackend.estimateIteration shape = .ok latency := by
    refine he.loads.imp (fun hpos htokens ↦ ?_) fun hall ↦ hall shape
    have hload := hprepared.load_bytes (fun item hi ↦ (hadmitted item hi).load _ rfl) hg hadm
    rw [← hslices] at hload
    have hsum : shape.kvLoadBytes = shape.kvLoadTokens * bytesPerToken := by
      unfold BatchShape.kvLoadBytes BatchShape.kvLoadTokens
      rw [List.map_congr_left hload, List.sum_map_mul_right]
    rw [hsum]
    exact Nat.mul_pos htokens hpos
  have hdrained : (engine.drained world₁).Sound engine good :=
    ⟨he.serves.drain hs.cache, hs.memo⟩
  obtain ⟨latency, memo, hget, breakdown, hbreakdown⟩ := hdrained.memo.answers he.backend hbytes
  have hestimate : engine.estimateLatency shape (engine.drained world₁) =
      .ok latency { engine.drained world₁ with memo } := by
    unfold Engine.estimateLatency onMemo
    exact zoom_ok.mpr ⟨memo, hget, rfl⟩
  have hs₂ := (he.kept.latency shape).ok hdrained hestimate
  -- the slices have room in the iteration
  have hest := he.backend.estimates
  have hbalanced : received.Balanced LatencyResult.Attributed (engine.drained world₁) :=
    h.decomposed.balanced.receive hreceive (hprepares.looks_only.drained engine)
  have hattributed := (hest.latency hbalanced.memo hestimate).1
  obtain ⟨hroom, hlink⟩ := hbalanced.room (h.decomposed.shares he.splits hw hreceive hprepares) hg
    hadm hshape hattributed hbreakdown (engine.clock.add received.nowMs latency.durationMs)
  obtain ⟨hsum, -⟩ := hattributed.fits breakdown hbreakdown
  have hbatched := hprepared.batched hg hadm
  rw [hlost] at hbatched
  obtain ⟨applied, world₃, happlied⟩ := @apply_batch_returns C K engine instanceUuid bytesPerToken
    good { shape := shape, breakdown := breakdown, durationMs := latency.durationMs,
           finishMs := engine.clock.add received.nowMs latency.durationMs } received.nowMs
    received.transferQueue {} { engine.drained world₁ with memo } he huuid
    (by rw [he.clock_eq]; rfl) latency.duration_nonneg hsum _ 0 hbatched
    (hprepared.slices_work hg hadm) (h.batch_carried he hw hr hreceive hprepares hg hadm) hroom
    hlink (hreceive.keeps.2.1 ▸ h.audited.queue_eq) hs₂
  obtain ⟨metric, hmetric⟩ := build_iteration_metrics_exists shape hbreakdown
    (engine.clock.add received.nowMs latency.durationMs) engine.timelineMode
    (engine.sittingOut latency.durationMs (frontier.waiting.length + frontier.idle.length))
    applied.totals
  unfold Engine.iterate
  rw [hg, hadm, check_ok_bind, check_ok_bind, hshape, check_ok_bind, if_neg hsize]
  exact ⟨_, _, bind_ok.mpr ⟨latency, _, hestimate, bind_ok.mpr ⟨breakdown, _,
    check_ok.mpr ⟨hbreakdown, rfl⟩, bind_ok.mpr ⟨applied, world₃, happlied,
      bind_ok.mpr ⟨metric, world₃, check_ok.mpr ⟨hmetric, rfl⟩, bind_ok.mpr ⟨(), _, rfl,
        bind_ok.mpr ⟨(), _, rfl, rfl⟩⟩⟩⟩⟩⟩⟩

/-- No pass over servable requests fails. -/
theorem Session.Live.pass_returns (he : engine.Reliable bytesPerToken good)
    (huuid : instanceUuid ≠ "") (hw : session.Wf engine.config engine.timelineMode requests)
    (hr : ∀ request ∈ requests, request.Servable engine instanceUuid bytesPerToken)
    (h : session.Live engine instanceUuid bytesPerToken good requests world) :
    ∃ flow world', engine.pass instanceUuid session world = .ok flow world' := by
  cases hreceived : engine.receive session with
  | error e =>
    obtain ⟨-, request, hrequest, hneg⟩ := receive_error hreceived
    exact absurd hneg (not_lt.mpr (hr _ (h.audited.pending hrequest)).start_nonneg)
  | ok received =>
    have hreceive := receives_of_receive hreceived
    unfold Engine.pass
    rw [hreceived, check_ok_bind]
    by_cases hidle : received.Idle
    · rw [if_pos hidle]
      cases received.pending <;> exact ⟨_, world, rfl⟩
    rw [if_neg hidle]
    obtain ⟨frontier, world₁, hfrontier⟩ := h.frontier_returns he hw hr hreceive
    have hs₁ := (he.kept.frontier received).ok h.sound hfrontier
    have hprepares := prepares_of_frontier hfrontier
    by_cases hempty : frontier.Empty
    · cases hpending : received.pending with
      | nil =>
        refine ⟨.stop (received.emptied frontier received.nowMs), engine.drained world₁,
          bind_ok.mpr ⟨frontier, world₁, hfrontier, bind_ok.mpr ⟨(), _, drain_ok.mpr rfl, ?_⟩⟩⟩
        rw [if_pos hempty]
        rfl
      | cons request pending =>
        refine ⟨.proceed (received.emptied frontier (max received.nowMs request.startTimeMs)),
          engine.drained world₁, bind_ok.mpr ⟨frontier, world₁, hfrontier,
            bind_ok.mpr ⟨(), _, drain_ok.mpr rfl, ?_⟩⟩⟩
        rw [if_pos hempty]
        rfl
    · obtain ⟨next, world', hnext⟩ := h.iterate_returns he huuid hw hr hreceive hprepares hs₁ hempty
      refine ⟨.proceed next, world', bind_ok.mpr ⟨frontier, world₁, hfrontier, bind_ok.mpr
        ⟨(), _, drain_ok.mpr rfl, ?_⟩⟩⟩
      rw [if_neg hempty]
      exact bind_ok.mpr ⟨next, world', hnext, rfl⟩

/-- Neither does it end what lets the next one return. -/
theorem Session.Live.next {flow : Flow Session} {world' : World C K}
    (he : engine.Reliable bytesPerToken good)
    (hw : session.Wf engine.config engine.timelineMode requests)
    (h : session.Live engine instanceUuid bytesPerToken good requests world)
    (hpass : engine.pass instanceUuid session world = .ok flow world') :
    flow.state.Live engine instanceUuid bytesPerToken good requests world' := by
  have hpasses := passes_of_pass hpass
  refine ⟨hpasses.audited hw h.audited, hpasses.decomposed he.clock_eq he.backend he.splits hw
    h.decomposed, hpasses.throughout (misses_own_kept he.splits) (fun _ _ ↦ by simp [MissesOwn]) hw
    h.misses, ?_, (he.kept.pass _ _).ok h.sound hpass⟩
  cases hpasses with
  | jump hreceive =>
    have hrunning := hreceive.running_eq
    exact fun job hj ↦ h.accrued job (hrunning ▸ hj)
  | idle hreceive => exact fun job hj ↦ h.accrued job (hreceive.running_eq ▸ hj)
  | skip => simp [Flow.state, Session.emptied]
  | finish => simp [Flow.state, Session.emptied]
  | batch hreceive _ hprepares _ hiterates =>
    have hprepared := hprepares.prepared (hreceive.wf hw)
    obtain ⟨hg, hadm, -, -, -, -, happlies, -⟩ := hiterates
    have haccrued := h.batch_accrued he hw hreceive hprepares hg hadm
    have houtcomes := happlies.outcomes (hprepared.batched hg hadm)
    intro job hj
    cases houtcomes.running job hj with
    | idle hjob => exact (haccrued _ hjob).sitOut _ (LatencyResult.duration_nonneg _)
    | served hjob _ hadvanced => exact hadvanced.accrued (haccrued _ hjob)

end Pass

/-- So with enough passes a replay comes to its end. -/
theorem serve_all_returns (he : engine.Reliable bytesPerToken good) (huuid : instanceUuid ≠ "")
    (hr : ∀ request ∈ requests, request.Servable engine instanceUuid bytesPerToken) {fuel : ℕ}
    {session : Session} {world : World C K}
    (hw : session.Wf engine.config engine.timelineMode requests)
    (h : session.Live engine instanceUuid bytesPerToken good requests world)
    (hfuel : session.potential < fuel) :
    ∃ final world', engine.serveAll instanceUuid fuel session world = .ok final world' ∧
      final.Wf engine.config engine.timelineMode requests ∧
      final.Live engine instanceUuid bytesPerToken good requests world' := by
  induction fuel generalizing session world with
  | zero => exact absurd hfuel (Nat.not_lt_zero _)
  | succ fuel ih =>
    unfold Engine.serveAll
    split_ifs
    · exact ⟨session, world, rfl, hw, h⟩
    obtain ⟨flow, world₁, hpass⟩ := h.pass_returns he huuid hw hr
    have hpasses := passes_of_pass hpass
    have hlive := h.next he hw hpass
    have hwf := hpasses.wf hw
    cases flow with
    | stop final => exact ⟨final, world₁, bind_ok.mpr ⟨.stop final, world₁, hpass, rfl⟩, hwf, hlive⟩
    | proceed next =>
      have hlt : next.potential < session.potential := hpasses.potential_lt hw
      obtain ⟨final, world', hserve, hfinal⟩ := @ih next world₁ hwf hlive (by omega)
      exact ⟨final, world', bind_ok.mpr ⟨.proceed next, world₁, hpass, hserve⟩, hfinal⟩

theorem Session.start_live (he : engine.Reliable bytesPerToken good) {request : SimulationRequest}
    {pending : List SimulationRequest} {world : World C K} (htrace : world.trace = [])
    (hs : world.Sound engine good)
    (hr : ∀ other ∈ request :: pending, other.Servable engine instanceUuid bytesPerToken) :
    (Session.start { instanceUuid } request pending).Live engine instanceUuid bytesPerToken good
      (request :: pending) world := by
  have hnone : iterationsOf world.trace = [] := by rw [htrace]; rfl
  have hestimates := he.backend.estimates
  refine ⟨Session.start_audited engine htrace (List.Subset.refl _), ⟨rfl, ?_, ?_, ?_, ?_, ?_, ?_⟩,
    ?_, by simp [Session.start], hs⟩
  · exact fun other ho ↦ ⟨rfl, (hr other ho).bytes, by simp⟩
  · exact ⟨by simp [Session.start], by simp [Session.start], by simp [Session.start]⟩
  · exact ⟨le_max_left _ _, by simp [hnone], hs.memo.holds hestimates.flag hestimates.backend⟩
  · exact Session.start_accounts _ _ _ _ hnone
  · rw [hnone]
    exact .start engine _
  · simp [Session.start]
  · exact ⟨by simp [Session.start], by simp [Session.start], by simp [Session.start]⟩

/-- A replay of an instance returns, and finishes each of its requests once. -/
theorem run_instance_returns (he : engine.Reliable bytesPerToken good)
    (huuid : requests ≠ [] → instanceUuid ≠ "")
    (hd : (requests.map SimulationRequest.requestId).Nodup)
    (hr : ∀ request ∈ requests, request.Servable engine instanceUuid bytesPerToken) {fuel : ℕ}
    (hfuel : replayFuel requests ≤ fuel) {world : World C K} (htrace : world.trace = [])
    (hs : world.Sound engine good) :
    ∃ result world', engine.runInstance instanceUuid fuel requests world = .ok result world' ∧
      result.Completes requests world'.trace ∧ world'.Sound engine good := by
  have hperm := SimulationRequest.sorted_perm requests
  have hagree := run_instance_agree engine instanceUuid fuel world hd
  have hfuel' := (replay_fuel_perm hperm).trans_le hfuel
  have hd' := (hperm.map SimulationRequest.requestId).nodup_iff.mpr hd
  have hr' : ∀ request ∈ SimulationRequest.sorted requests,
      request.Servable engine instanceUuid bytesPerToken :=
    fun request hrequest ↦ hr request (hperm.subset hrequest)
  suffices hserved : ∃ session world', engine.serveInstance instanceUuid fuel
      (SimulationRequest.sorted requests) world = .ok session world' ∧
        (∀ result, ResultAgrees result session →
          result.Completes (SimulationRequest.sorted requests) world'.trace) ∧
        world'.Sound engine good by
    obtain ⟨session, world', hserve, hcompletes, hs'⟩ := hserved
    rw [hserve] at hagree
    obtain ⟨result, world₁, hrun, rfl, hresult⟩ := hagree.ok_right
    have hdone := hcompletes result hresult
    exact ⟨result, world₁, hrun, ⟨hdone.once.trans (hperm.map _), hdone.delivered, hdone.tokens_eq,
      hdone.load_tokens_eq, hdone.load_bytes_eq⟩, hs'⟩
  cases hsorted : SimulationRequest.sorted requests with
  | nil =>
    refine ⟨none, world, rfl, ?_, hs⟩
    rintro result rfl
    exact ⟨.nil, by simp, rfl, rfl, rfl⟩
  | cons request pending =>
    rw [hsorted] at hperm hfuel' hd' hr'
    have huuid : instanceUuid ≠ "" := huuid fun hnil ↦ by
      rw [hnil] at hperm
      cases hperm.eq_nil
    have hcreate : SharedLinkFIFOTransferQueue.create instanceUuid = .ok { instanceUuid } :=
      if_neg huuid
    have hlt := (Session.start_potential { instanceUuid } request pending).trans_le hfuel'
    obtain ⟨session, world₁, hserve, hwf, hlive⟩ := serve_all_returns he huuid hr'
      (Session.start_wf engine.config engine.timelineMode { instanceUuid } hd')
      (Session.start_live he htrace hs hr') hlt
    obtain ⟨hpending, hidle⟩ := serve_all_idle hserve
    refine ⟨some session, engine.drained world₁, ?_, ?_, he.serves.drain hlive.sound.cache,
      hlive.sound.memo⟩
    · rw [Engine.serveInstance, hcreate, check_ok_bind]
      exact bind_ok.mpr ⟨session, world₁, hserve, rfl⟩
    · rintro result ⟨hmetrics, hiterations⟩
      exact hlive.audited.completes hwf hpending hidle hmetrics hiterations

theorem replay_fuel_sublist {requests' : List SimulationRequest} (h : requests.Sublist requests') :
    replayFuel requests ≤ replayFuel requests' := by
  unfold replayFuel pendingWork
  exact Nat.succ_le_succ ((h.map _).sum_le_sum fun _ _ ↦ Nat.zero_le _)

/-- One metric for each request, and the tokens of the two metric streams agree. -/
structure Settled (requestMetrics : List BatchAwareRequestMetrics)
    (iterationMetrics : List IterationMetrics) (requests : List SimulationRequest) : Prop where
  once : (requestMetrics.map fun metric ↦ (metric.requestId, metric.promptTokens)).Perm
    (requests.map fun request ↦ (request.requestId, request.promptTokens))
  tokens_eq : (iterationMetrics.map IterationMetrics.scheduledPrefillTokens).sum =
    (requestMetrics.map BatchAwareRequestMetrics.missTokens).sum
  load_tokens_eq : (iterationMetrics.map IterationMetrics.kvLoadTokens).sum =
    (requestMetrics.map BatchAwareRequestMetrics.kvLoadTokens).sum
  load_bytes_eq : (iterationMetrics.map IterationMetrics.kvLoadBytes).sum =
    (requestMetrics.map BatchAwareRequestMetrics.kvLoadBytes).sum

namespace Settled

variable {requestMetrics requestMetrics' : List BatchAwareRequestMetrics}
  {iterationMetrics iterationMetrics' : List IterationMetrics}
  {requests requests' : List SimulationRequest}

theorem append (h : Settled requestMetrics iterationMetrics requests)
    (h' : Settled requestMetrics' iterationMetrics' requests') :
    Settled (requestMetrics ++ requestMetrics') (iterationMetrics ++ iterationMetrics')
      (requests ++ requests') where
  once := by
    rw [List.map_append, List.map_append]
    exact h.once.append h'.once
  tokens_eq := by
    simp only [List.map_append, List.sum_append, h.tokens_eq, h'.tokens_eq]
  load_tokens_eq := by
    simp only [List.map_append, List.sum_append, h.load_tokens_eq, h'.load_tokens_eq]
  load_bytes_eq := by
    simp only [List.map_append, List.sum_append, h.load_bytes_eq, h'.load_bytes_eq]

theorem perm (h : Settled requestMetrics iterationMetrics requests)
    (hmetrics : requestMetrics'.Perm requestMetrics)
    (hiterations : iterationMetrics'.Perm iterationMetrics)
    (hrequests : requests.Perm requests') :
    Settled requestMetrics' iterationMetrics' requests' where
  once := ((hmetrics.map _).trans h.once).trans (hrequests.map _)
  tokens_eq := by
    rw [(hmetrics.map _).sum_eq, (hiterations.map _).sum_eq, h.tokens_eq]
  load_tokens_eq := by
    rw [(hmetrics.map _).sum_eq, (hiterations.map _).sum_eq, h.load_tokens_eq]
  load_bytes_eq := by
    rw [(hmetrics.map _).sum_eq, (hiterations.map _).sum_eq, h.load_bytes_eq]

end Settled

section Replay

variable {engine : BatchAwareReplayEngine C K} {requests : List SimulationRequest} {fuel : ℕ}

/-- The engine is put together from the backends and the caches of the repository, each with what
it needs. -/
structure BatchAwareReplayEngine.Reliable (engine : BatchAwareReplayEngine C K)
    (bytesPerToken : ℕ) : Prop where
  backend : ServingBackend engine.latencyBackend
  loads : 0 < bytesPerToken ∨
    ∀ shape, ∃ latency, engine.latencyBackend.estimateIteration shape = .ok latency
  fresh : ∀ instanceUuid, FreshCache C (engine.cacheFactory instanceUuid).1
    (engine.cacheFactory instanceUuid).2

/-- The request is one for a named instance of the engine, which can serve it. -/
structure SimulationRequest.Served (engine : BatchAwareReplayEngine C K) (bytesPerToken : ℕ)
    (request : SimulationRequest) : Prop where
  named : request.instanceUuid ≠ ""
  servable : request.Servable (engine.forInstance request.instanceUuid) request.instanceUuid
    bytesPerToken

theorem run_groups_return {bytesPerToken : ℕ} (hclock : engine.clock = .exact)
    (hpolicy : engine.materializationPolicy = defaultMaterializationPolicy engine.timelineMode)
    (he : engine.Reliable bytesPerToken)
    {groups : List (String × List SimulationRequest)}
    (hd : ((groups.flatMap Prod.snd).map SimulationRequest.requestId).Nodup)
    (hgroups : ∀ group ∈ groups, replayFuel group.2 ≤ fuel ∧
      ∀ request ∈ group.2, group.1 ≠ "" ∧
        request.Servable (engine.forInstance group.1) group.1 bytesPerToken)
    {shared : Shared K} (hmemo : shared.memo.FilledBy engine.latencyBackend) :
    ∃ result shared', engine.runGroups fuel groups shared = .ok result shared' ∧
      Settled result.requestMetrics result.iterationMetrics (groups.flatMap Prod.snd) := by
  induction groups generalizing shared with
  | nil => exact ⟨{}, shared, rfl, .nil, rfl, rfl, rfl⟩
  | cons group groups ih =>
    obtain ⟨instanceUuid, own⟩ := group
    obtain ⟨⟨hfuel, hr⟩, hgroups⟩ := List.forall_mem_cons.mp hgroups
    rw [List.flatMap_cons, List.map_append] at hd
    obtain ⟨good, hserves, hgood⟩ := (he.fresh instanceUuid).serves
    have hown : (engine.forInstance instanceUuid).Reliable bytesPerToken good :=
      ⟨hclock, hpolicy, he.backend, he.loads, hserves,
        (he.fresh instanceUuid).repository.splits⟩
    have hnamed : own ≠ [] → instanceUuid ≠ "" := fun hown ↦
      (hr _ (List.head_mem hown)).1
    have hstart : World.Sound (engine.forInstance instanceUuid) good
        { cache := (engine.cacheFactory instanceUuid).2, sink := shared.sink,
          memo := shared.memo } := ⟨hgood, hmemo⟩
    obtain ⟨result, world, hrun, hcompletes, hs⟩ := run_instance_returns hown hnamed
      hd.of_append_left (fun request hrequest ↦ (hr request hrequest).2) hfuel rfl hstart
    obtain ⟨rest, shared', hrest, hsettled⟩ := @ih hd.of_append_right hgroups
      { sink := world.sink, memo := world.memo } hs.memo
    have hfirst : onInstance (engine.cacheFactory instanceUuid).2
        ((engine.forInstance instanceUuid).runInstance instanceUuid fuel own) shared =
          .ok result { sink := world.sink, memo := world.memo } := zoom_ok.mpr ⟨world, hrun, rfl⟩
    refine ⟨_, shared', bind_ok.mpr ⟨result, _, hfirst, bind_ok.mpr ⟨rest, shared', hrest, rfl⟩⟩, ?_⟩
    rw [List.flatMap_cons]
    exact Settled.append ⟨hcompletes.once, hcompletes.tokens_eq, hcompletes.load_tokens_eq,
      hcompletes.load_bytes_eq⟩ hsettled

/-- With exact time a replay of servable requests returns, whatever instances they go to and
whoever comes when: no exception of a cache, a policy, a backend or the composer ends it. It
finishes each request once. -/
theorem servable_replays_return (engine : BatchAwareReplayEngine C K) (bytesPerToken : ℕ)
    (hclock : engine.clock = .exact)
    (hpolicy : engine.materializationPolicy = defaultMaterializationPolicy engine.timelineMode)
    (he : engine.Reliable bytesPerToken) (hd : (requests.map SimulationRequest.requestId).Nodup)
    (hr : ∀ request ∈ requests, request.Served engine bytesPerToken)
    (hfuel : replayFuel requests ≤ fuel) (shared : Shared K)
    (hmemo : shared.memo.FilledBy engine.latencyBackend) :
    ∃ result shared', engine.run fuel requests shared = .ok result shared' ∧
      Settled result.requestMetrics result.iterationMetrics requests := by
  have hperm := group_by_instance_perm requests
  have hgrouped := group_by_instance_grouped requests
  have hsorted := SimulationRequest.sorted_perm requests
  have hgroups : ∀ group ∈ groupByInstance requests, replayFuel group.2 ≤ fuel ∧
      ∀ request ∈ group.2, group.1 ≠ "" ∧
        request.Servable (engine.forInstance group.1) group.1 bytesPerToken := by
    intro group hgroup
    rw [hgrouped.items group hgroup]
    constructor
    · have hle := replay_fuel_sublist (itemsOf_sublist SimulationRequest.instanceUuid
        (SimulationRequest.sorted requests) group.1)
      exact hle.trans ((replay_fuel_perm hsorted).trans_le hfuel)
    · intro request hrequest
      obtain ⟨hrequest, hinstance⟩ := List.mem_filter.mp hrequest
      rw [← of_decide_eq_true hinstance]
      have hserved := hr request (hsorted.subset hrequest)
      exact ⟨hserved.named, hserved.servable⟩
  obtain ⟨merged, shared', hrun, hsettled⟩ := run_groups_return hclock hpolicy he
    ((hperm.map _).nodup_iff.mpr hd) hgroups hmemo
  refine ⟨_, shared', bind_ok.mpr ⟨merged, shared', hrun, bind_ok.mpr ⟨shared', shared', rfl, rfl⟩⟩,
    ?_⟩
  exact hsettled.perm (List.perm_insertionSort _ _) (List.perm_insertionSort _ _) hperm

theorem servable_replays_return_pair :
    ∃ result shared', (Sample.fleet Sample.config .progressive).run 13 Sample.pair
      { sink := (), memo := ∅ } = .ok result shared' ∧
        Settled result.requestMetrics result.iterationMetrics Sample.pair :=
  servable_replays_return (Sample.fleet Sample.config .progressive) 2 rfl rfl
    ⟨.prefill (.formula Sample.formula), .inl (by decide), fun _ ↦ .infinite⟩
    (by decide +kernel) (by
      intro request hrequest
      have hblocks : ∀ request ∈ Sample.pair, ∀ block ∈ request.promptBlocks,
          block.sizeBytes = block.tokenCount * 2 := by decide +kernel
      rcases List.mem_pair.mp hrequest with rfl | rfl
      · exact ⟨by decide, ⟨⟨le_rfl, by decide, rfl⟩, ⟨by simp [Sample.request], le_rfl⟩,
          hblocks _ hrequest, fun _ _ ↦ by decide, .inl rfl⟩⟩
      · exact ⟨by decide, ⟨⟨le_rfl, by decide, rfl⟩, ⟨by simp [Sample.request], le_rfl⟩,
          hblocks _ hrequest, fun _ _ ↦ by decide, .inl rfl⟩⟩)
    (by decide +kernel) _ (ShapeMemo.filled_by_empty _)

end Replay

end InferTwin
