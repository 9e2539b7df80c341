import InferTwin.Cache.Repository
import InferTwin.Properties.Link
import InferTwin.Refinement.ListReplay
import InferTwin.Sample
import InferTwin.Server.Outcome
import Mathlib.Algebra.BigOperators.Ring.List

namespace InferTwin

open Effect

variable {C K : Type} {engine : Engine C K} {requests : List SimulationRequest}

namespace Job

variable {finishMs lostMs : ℚ} {job : Job}

/-- The residual of a finished request is what it was served without being charged for it,
less what the clock has lost since its arrival. -/
theorem Closed.residual_eq (h : job.Closed .progressive finishMs lostMs) :
    RequestTTFTComposer.residualMs job.request job.state finishMs =
      job.servedMs - (job.state.kvLoadWaitMs + job.state.prefillComputeMs) -
        (lostMs - job.lostMs) := by
  unfold RequestTTFTComposer.residualMs
  rw [h.waited rfl, h.ledger.tracks.arrival_eq, h.ledger.tracks.unattributed_eq]
  ring

/-- Requests that were never charged for more than they were served. -/
theorem Ledger.charged_le {timelineMode : TimelineMode} (h : job.Ledger timelineMode)
    (hfits : ∀ service ∈ job.services, service.Fits) :
    job.state.kvLoadWaitMs + job.state.prefillComputeMs ≤ job.servedMs := by
  rw [h.kv_wait_eq, h.prefill_eq, servedMs, ← List.sum_map_add]
  exact List.sum_le_sum hfits

end Job

def ReplayError.IsNegativeResidual : ReplayError → Prop
  | negativeResidual .. => True
  | _ => False

theorem not_negative_residual {e : ReplayError} (h : e.origin ≠ .composer) :
    ¬e.IsNegativeResidual := by
  intro he
  cases e <;> first | exact he | exact h rfl

/-- The composer reports a negative residual only when the residual is below its tolerance. -/
theorem Job.Unclosed.residual_lt {finishMs lostMs : ℚ} {job : Job} {e : ReplayError}
    (h : job.Unclosed .progressive finishMs lostMs e) (he : e.IsNegativeResidual) :
    RequestTTFTComposer.residualMs job.request job.state finishMs <
      -RequestTTFTComposer.epsilonMs := by
  obtain ⟨firstMs, hfirst, -⟩ := h.scheduled
  have hc := build_request_metrics_error hfirst h.finish_eq h.metric_eq
  unfold RequestTTFTComposer.compose at hc
  split_ifs at hc
  · cases hc
    exact False.elim he
  · cases hc
    exact False.elim he
  · rw [h.ledger.tracks.mode_eq] at hc
    unfold RequestTTFTComposer.composeProgressive at hc
    dsimp only at hc
    by_contra hge
    rw [if_neg hge] at hc
    obtain ⟨field, rfl⟩ := validate_error hc
    exact he

/-- The parts of the TTFT of a request, against the time of the iterations that served it. -/
structure BatchAwareRequestMetrics.Closes (servedMs : ℚ) (metric : BatchAwareRequestMetrics) :
    Prop where
  compute_wait_eq :
    metric.computeWaitMs = metric.finishTimeMs - metric.arrivalTimeMs - servedMs
  attributed_le : metric.kvLoadWaitMs + metric.uncachedPrefillComputeMs ≤ servedMs
  ttft_eq : metric.ttftMs = metric.computeWaitMs + metric.kvLoadWaitMs +
    metric.uncachedPrefillComputeMs + metric.unattributedTtftMs
  unattributed_eq : metric.unattributedTtftMs =
    if servedMs - (metric.kvLoadWaitMs + metric.uncachedPrefillComputeMs) ≤
      RequestTTFTComposer.epsilonMs then 0
    else servedMs - (metric.kvLoadWaitMs + metric.uncachedPrefillComputeMs)
  observed_eq : |metric.ttftMs - (metric.finishTimeMs - metric.arrivalTimeMs)| ≤
    RequestTTFTComposer.epsilonMs

theorem Job.Finished.closes {finishMs lostMs : ℚ} {job : Job} {metric : BatchAwareRequestMetrics}
    (h : job.Finished .progressive finishMs lostMs metric) (hlost : lostMs = job.lostMs)
    (hfits : ∀ service ∈ job.services, service.Fits) : metric.Closes job.servedMs := by
  have hresidual := h.residual_eq
  have hcharged := h.ledger.charged_le hfits
  rw [hlost, sub_self, sub_zero] at hresidual
  have hwait := h.waited rfl
  rw [hlost, sub_self, add_zero] at hwait
  have hmetric := h.metric_eq
  obtain ⟨firstMs, hfirst, -⟩ := h.scheduled
  unfold buildRequestMetrics at hmetric
  simp only [hfirst, h.finish_eq, requiredTime, except_ok_bind] at hmetric
  obtain ⟨composition, hc, hmetric⟩ := except_bind_ok.mp hmetric
  cases hmetric
  unfold RequestTTFTComposer.compose at hc
  split_ifs at hc
  rw [h.ledger.tracks.mode_eq] at hc
  unfold RequestTTFTComposer.composeProgressive at hc
  dsimp only at hc
  have hnonneg : 0 ≤ job.servedMs - (job.state.kvLoadWaitMs + job.state.prefillComputeMs) := by
    linarith
  rw [hresidual, abs_of_nonneg hnonneg, h.ledger.tracks.unattributed_eq, zero_add] at hc
  split_ifs at hc with hneg hsmall
  all_goals
    unfold RequestTTFTComposition.validate at hc
    split_ifs at hc
    cases hc
  · have harrival := h.ledger.tracks.arrival_eq
    constructor
    · dsimp only
      rw [hwait, harrival]
    · exact hcharged
    · rfl
    · exact (if_pos hsmall).symm
    · dsimp only
      rw [hwait, harrival, abs_le]
      constructor <;> linarith
  · have harrival := h.ledger.tracks.arrival_eq
    constructor
    · dsimp only
      rw [hwait, harrival]
    · exact hcharged
    · rfl
    · exact (if_neg hsmall).symm
    · dsimp only
      rw [hwait, harrival]
      ring_nf
      norm_num [RequestTTFTComposer.epsilonMs]

/-- The time of the iterations whose metrics list a request. -/
def servedMs (metrics : List IterationMetrics) (requestId : String) : ℚ :=
  ((metrics.filter fun metric ↦ requestId ∈ metric.requestIds).map IterationMetrics.durationMs).sum

theorem IterationRecord.services_sum {record : IterationRecord} (hw : record.Wf)
    (requestId : String) :
    ((record.servicesOf requestId).map Service.durationMs).sum =
      if requestId ∈ record.shape.requestSlices.map ScheduledSlice.requestId then record.durationMs
      else 0 := by
  split_ifs with hid
  · obtain ⟨slice, hs, rfl⟩ := List.mem_map.mp hid
    have hslice : slice ∈ record.served.map Prod.fst := by
      rw [served, List.map_fst_zip hw.length_eq.le]
      exact hs
    obtain ⟨⟨_, sliceRecord⟩, hserved, rfl⟩ := List.mem_map.mp hslice
    rw [record.services_of_served hw hserved]
    simp
  · rw [record.services_of_absent hid]
    rfl

/-- The iteration metrics tell how long a request was served. -/
theorem Session.Accounts.served_ms {timelineMode : TimelineMode} {trace : List TraceEvent}
    {session : Session} (h : session.Accounts timelineMode trace) (requestId : String) :
    servedMs session.iterationMetrics requestId =
      ((servicesOf requestId trace).map Service.durationMs).sum := by
  have hwf := h.records
  have hmetrics := h.metrics
  unfold servicesOf servedMs
  generalize iterationsOf trace = records at hwf hmetrics
  generalize session.iterationMetrics = metrics at hmetrics
  induction hmetrics with
  | nil => rfl
  | @cons record metric records metrics hreports _ ih =>
    have hrest := ih (List.forall_mem_of_forall_mem_cons hwf)
    have hsum := IterationRecord.services_sum (hwf record (List.mem_cons_self ..)) requestId
    obtain ⟨latency, computeWait, totals, hduration, hbuild⟩ := hreports
    unfold buildIterationMetrics at hbuild
    obtain ⟨breakdown, -, hbuild⟩ := except_bind_ok.mp hbuild
    cases hbuild
    rw [List.flatMap_cons, List.map_append, List.sum_append, hsum, ← hrest, List.filter_cons]
    split_ifs <;> simp_all

/-- A request that has arrived by a clock that has lost nothing, with blocks of a fixed
number of bytes a token. -/
structure Sized (bytesPerToken : ℕ) (request : SimulationRequest) (lostMs : ℚ)
    (lookup : Option LookupMetrics) : Prop where
  lost_eq : lostMs = 0
  blocks : ∀ block ∈ request.promptBlocks, block.sizeBytes = block.tokenCount * bytesPerToken
  load : ∀ found ∈ lookup, found.ddrHitBytes = found.ddrHitTokens * bytesPerToken

theorem block_bytes {bytesPerToken : ℕ} {blocks : List PrefixBlock}
    (h : ∀ block ∈ blocks, block.sizeBytes = block.tokenCount * bytesPerToken) :
    (blocks.map PrefixBlock.sizeBytes).sum = blockTokens blocks * bytesPerToken := by
  rw [List.map_congr_left h, blockTokens, List.sum_map_mul_right]

theorem sized_kept {bytesPerToken : ℕ} (hcache : engine.cache.Splits) :
    KeptByLookups engine (Sized bytesPerToken) := by
  intro request lostMs nowMs requestId instanceUuid cache raw cache' lookup hs hraw hacc
  refine ⟨hs.lost_eq, hs.blocks, ?_⟩
  intro found hf
  obtain rfl : lookup = found := Option.some.inj hf
  unfold LookupMetrics.fromResult at hacc
  obtain ⟨accounted, haccounted, hacc⟩ := except_bind_ok.mp hacc
  cases hacc
  obtain ⟨-, hddr, -, -, hhits, -⟩ := account_spec haccounted
  have hsplit := hcache _ _ _ _ _ _ _ hraw
  dsimp only
  rw [hddr]
  refine block_bytes fun block hb ↦ hs.blocks block ?_
  rw [← hsplit]
  exact List.mem_append_left _ (List.mem_append_right _ (hhits.subset hb))

/-- What an exact clock and a latency model that accounts for its iterations maintain. -/
structure Session.Decomposed (engine : Engine C K) (bytesPerToken : ℕ) (session : Session)
    (world : World C K) : Prop where
  lost_eq : session.lostMs = 0
  pending : ∀ request ∈ session.pending, Sized bytesPerToken request 0 none
  sized : session.Throughout (Sized bytesPerToken)
  balanced : session.Balanced LatencyResult.Attributed world
  accounts : session.Accounts engine.timelineMode world.trace
  timeline : Timeline engine (iterationsOf world.trace) session.iterationId session.nowMs
  finished : ∀ completion ∈ session.completed, ∃ finishMs,
    completion.1.Finished engine.timelineMode finishMs 0 completion.2

section Decomposed

variable {bytesPerToken : ℕ} {session : Session}

theorem Session.Decomposed.received {received : Session} {world : World C K}
    (h : session.Decomposed engine bytesPerToken world) (hreceive : Receives engine session received) :
    received.Throughout (Sized bytesPerToken) ∧ received.lostMs = 0 := by
  refine ⟨hreceive.throughout (fun request hr ↦ ?_) h.sized, hreceive.keeps.2.2.trans h.lost_eq⟩
  rw [h.lost_eq]
  exact h.pending request hr

theorem Session.Decomposed.shares {received : Session} {frontier : Frontier}
    {world world' : World C K} (h : session.Decomposed engine bytesPerToken world)
    (hcache : engine.cache.Splits) (hw : session.Wf engine.config engine.timelineMode requests)
    (hreceive : Receives engine session received)
    (hprepares : Prepares engine received world frontier world') :
    frontier.Shares LatencyResult.Attributed received.nowMs := by
  have hwf := hreceive.wf hw
  obtain ⟨hsized, -⟩ := h.received hreceive
  obtain ⟨hadmitted, -⟩ := hprepares.keeps (sized_kept hcache) hwf hsized
  exact (hprepares.prepared hwf).shares _ fun item hi ↦ (hadmitted item hi).load _ rfl

theorem ServingBackend.estimates (h : ServingBackend engine.latencyBackend) :
    engine.Estimates LatencyResult.Attributed where
  flag _ _ h := h
  backend _ _ he := h.attributed he

theorem Passes.decomposed {instanceUuid : String} {flow : Flow Session} {world world' : World C K}
    (hclock : engine.clock = .exact) (hbackend : ServingBackend engine.latencyBackend)
    (hcache : engine.cache.Splits) (h : Passes engine instanceUuid session world flow world')
    (hw : session.Wf engine.config engine.timelineMode requests)
    (hd : session.Decomposed engine bytesPerToken world) :
    flow.state.Decomposed engine bytesPerToken world' := by
  have hmoves := h.moves hw
  have hlost : flow.state.lostMs = 0 := by
    cases hmoves with
    | quiet _ _ _ _ hlost => exact hlost.trans hd.lost_eq
    | iteration hrecorded =>
      rw [hrecorded.lost_eq, hd.lost_eq, hrecorded.finish_eq, hclock]
      simp [Clock.exact]
  constructor
  · exact hlost
  · exact fun request hr ↦ hd.pending request (h.pending_subset hr)
  · refine h.throughout (sized_kept hcache) (fun request hr ↦ ?_) hw hd.sized
    rw [hd.lost_eq]
    exact hd.pending request hr
  · refine h.balanced hbackend.estimates (fun latency hl ↦ hclock ▸ hl.fits) ?_ hw hd.balanced
    exact fun _ _ _ hreceive hprepares ↦ hd.shares hcache hw hreceive hprepares
  · exact h.accounts hw hd.accounts
  · exact hmoves.timeline hd.timeline
  · intro completion hc
    rcases h.finishes hw completion hc with hc | ⟨finishMs, lostMs, hf, hl, -⟩
    · exact hd.finished completion hc
    · refine ⟨finishMs, ?_⟩
      rcases hl with rfl | rfl
      · exact hd.lost_eq ▸ hf
      · exact hlost ▸ hf

/-- Where a negative residual can come from: a request that was not charged for more than
it was served, of whom the clock has lost track since its arrival. -/
theorem PassFails.unclosed {instanceUuid : String} {P : LatencyResult → Prop}
    {Q : SimulationRequest → ℚ → Option LookupMetrics → Prop} {world world' : World C K}
    {e : ReplayError} (hest : engine.Estimates P)
    (hfits : ∀ latency, P latency → latency.Fits engine.clock) (hQ : KeptByLookups engine Q)
    (hshares : ∀ received frontier world', Receives engine session received →
      Prepares engine received world frontier world' → frontier.Shares P received.nowMs)
    (hw : session.Wf engine.config engine.timelineMode requests)
    (hb : session.Balanced P world) (ha : session.Accounts engine.timelineMode world.trace)
    (harrive : ∀ request ∈ session.pending, Q request session.lostMs none)
    (ht : session.Throughout Q) (he : e.IsNegativeResidual)
    (h : PassFails engine instanceUuid session world e world') :
    ∃ (job : Job) (finishMs lostMs : ℚ), job.Unclosed engine.timelineMode finishMs lostMs e ∧
      (∀ service ∈ job.services, service.Fits) ∧ Q job.request job.lostMs (some job.lookup) ∧
      (lostMs = session.lostMs ∨ ∃ durationMs, lostMs = session.lostMs +
        (session.nowMs + durationMs - engine.clock.add session.nowMs durationMs)) := by
  cases h with
  | arrival => exact False.elim he
  | prepare hreceive h =>
    have hwf := hreceive.wf hw
    have htr := hreceive.throughout harrive ht
    cases h with
    | look _ h =>
      cases h with
      | cache => exact False.elim he
      | accounting _ _ hacc =>
        exact absurd he (not_negative_residual (by simp [from_result_error hacc]))
    | complete hentry hlook hr hload hdone =>
      have hwait := hwf.waiting _ hentry
      have hunclosed := ScanFails.unclosed hwait hlook hr hload hdone
      have hready := hwait.look hlook
      have hkeeps := hlook.keeps hQ hwait (htr.waiting _ hentry)
      refine ⟨_, _, _, hunclosed, ?_, hkeeps, .inl hreceive.keeps.2.2⟩
      simp [hready.unserved]
  | iterate hreceive hprepares hleft h =>
    have hwf := hreceive.wf hw
    have htr := hreceive.throughout harrive ht
    have hprepared := hprepares.prepared hwf
    have hlooks := hprepares.looks_only.drained engine
    cases h with
    | empty => exact False.elim he
    | latency h => exact absurd he (not_negative_residual (by simp [h]))
    | apply hg hadm hshape hlatency hbreakdown h =>
      rename_i received frontier world₁ granted admitted shape latency world₂ breakdown
      have hbalanced : received.Balanced P (engine.drained world₁) :=
        hb.receive hreceive hlooks
      obtain ⟨hP, -⟩ := hest.latency hbalanced.memo hlatency
      obtain ⟨hroom, hqueue⟩ := hbalanced.room (hshares _ _ _ hreceive hprepares) hg hadm hshape hP
        hbreakdown (engine.clock.add received.nowMs latency.durationMs)
      obtain ⟨hsum, -⟩ := hfits latency hP breakdown hbreakdown
      obtain ⟨hadmitted, -⟩ := hprepares.keeps hQ hwf htr
      rcases h.linked hroom hqueue with h | h | ⟨job, slice, progress, hjob, hkv, hprefill, hunclosed⟩
      · exact absurd he (not_negative_residual (by simp [h]))
      · exact absurd he (not_negative_residual (by simp [h]))
      · have hservices := hprepared.batch_services hprepares (hreceive.accounts ha) hg hadm _ hjob
        have hQjob := hprepared.batch_forall (Q := fun job ↦
          Q job.request job.lostMs (some job.lookup)) hg hadm htr.running hadmitted
          (fun _ ↦ id) (fun _ ↦ id) _ hjob
        refine ⟨_, _, _, hunclosed, ?_, hQjob, .inr ⟨latency.durationMs, ?_⟩⟩
        · rw [Job.served, ← hservices]
          refine List.forall_mem_append.mpr
            ⟨services_fit hb.records _, List.forall_mem_singleton.mpr ?_⟩
          exact (add_le_add hkv hprefill).trans hsum
        · rw [hreceive.keeps.2.2, hreceive.now_eq]

end Decomposed

/-- No request is charged for more than an iteration, and the KV link is free again before
the next one starts. -/
structure Paced (trace : List TraceEvent) : Prop where
  balanced : ∀ record ∈ iterationsOf trace, record.Balanced
  free : (iterationsOf trace).Pairwise fun record next ↦
    record.linkFreeMs ≤ next.shape.startTimeMs

theorem Timeline.paced {trace : List TraceEvent} {iterationId : ℕ} {nowMs : ℚ}
    (h : Timeline engine (iterationsOf trace) iterationId nowMs)
    (hb : ∀ record ∈ iterationsOf trace, record.Balanced) : Paced trace where
  balanced := hb
  free := by
    refine h.ordered.imp_of_mem fun {record next} hr _ hle ↦ ?_
    exact (hb record hr).link_le.trans hle

/-- The TTFT of every finished request is its waits and its compute: no residual is ever
negative, and what is left over is time of iterations that served the request and charged
it to others. -/
theorem progressive_ttft_closes (engine : Engine C K) (hmode : engine.timelineMode = .progressive)
    (hclock : engine.clock = .exact) (hbackend : ServingBackend engine.latencyBackend)
    (hcache : RepositoryCache C engine.cache) (bytesPerToken : ℕ)
    (hbytes : ∀ request ∈ requests, ∀ block ∈ request.promptBlocks,
      block.sizeBytes = block.tokenCount * bytesPerToken)
    (hd : (requests.map SimulationRequest.requestId).Nodup) (instanceUuid : String) {fuel : ℕ}
    (hfuel : replayFuel requests ≤ fuel) (world : World C K)
    (hmemo : world.memo.FilledBy engine.latencyBackend) (htrace : world.trace = []) :
    (∀ e world', engine.runInstance instanceUuid fuel requests world = .error e world' →
      ¬e.IsNegativeResidual ∧ Paced world'.trace) ∧
    ∀ result world', engine.runInstance instanceUuid fuel requests world = .ok result world' →
      Paced world'.trace ∧ ∀ metric ∈ result.requestMetrics,
        metric.Closes (servedMs result.iterationMetrics metric.requestId) := by
  have hsplits := hcache.splits
  have hperm := SimulationRequest.sorted_perm requests
  have hd' := (hperm.map SimulationRequest.requestId).nodup_iff.mpr hd
  have hends : Ends engine instanceUuid (SimulationRequest.sorted requests)
      (fun session world ↦ session.Decomposed engine bytesPerToken world) world
      (engine.serveInstance instanceUuid fuel (SimulationRequest.sorted requests) world) := by
    refine serve_instance_ends hd' ((replay_fuel_perm hperm).trans_le hfuel) ?_
      fun _ _ _ _ hw h hpass ↦ hpass.decomposed hclock hbackend hsplits hw h
    intro request pending hsorted _
    have hmem : ∀ other ∈ request :: pending, other ∈ requests :=
      fun other ho ↦ hperm.subset (hsorted ▸ ho)
    have hestimates := hbackend.estimates
    have hnone : iterationsOf world.trace = [] := by rw [htrace]; rfl
    constructor
    · rfl
    · exact fun other ho ↦ ⟨rfl, hbytes other (hmem other ho), by simp⟩
    · exact ⟨by simp [Session.start], by simp [Session.start], by simp [Session.start]⟩
    · exact ⟨le_max_left _ _, by simp [hnone], hmemo.holds hestimates.flag hestimates.backend⟩
    · exact Session.start_accounts _ _ _ _ hnone
    · rw [hnone]
      exact .start engine _
    · simp [Session.start]
  have hagree := run_instance_agree engine instanceUuid fuel world hd
  generalize engine.serveInstance instanceUuid fuel (SimulationRequest.sorted requests) world =
    served at hends hagree
  constructor
  · intro e world' hrun
    rw [hrun] at hagree
    cases hagree with
    | error hworld =>
      subst hworld
      cases hends with
      | refused =>
        exact ⟨id, by simp [htrace, iterationsOf], by simp [htrace, iterationsOf]⟩
      | @failed session world₁ _ _ hwf hp hpass =>
        have htrace' := pass_spares engine instanceUuid session world₁ _ _ rfl hpass
        refine ⟨fun he ↦ ?_, ?_⟩
        · obtain ⟨job, finishMs, lostMs, hunclosed, hfits, hsized, hlost⟩ := PassFails.unclosed
            hbackend.estimates (fun latency hl ↦ hclock ▸ hl.fits) (sized_kept hsplits)
            (fun _ _ _ hreceive hprepares ↦ hp.shares hsplits hwf hreceive hprepares) hwf
            hp.balanced hp.accounts (fun request hr ↦ hp.lost_eq ▸ hp.pending request hr) hp.sized
            he (fails_of_pass hwf hpass)
          have hzero : lostMs = 0 := by
            rcases hlost with rfl | ⟨durationMs, rfl⟩
            · exact hp.lost_eq
            · rw [hp.lost_eq, hclock]
              simp [Clock.exact]
          rw [hmode] at hunclosed
          have hresidual := hunclosed.residual_lt he
          rw [hunclosed.residual_eq, hzero, hsized.lost_eq] at hresidual
          have hcharged := hunclosed.ledger.charged_le hfits
          norm_num [RequestTTFTComposer.epsilonMs] at hresidual
          linarith
        · have hpaced := hp.timeline.paced hp.balanced.records
          exact ⟨htrace' ▸ hpaced.balanced, htrace' ▸ hpaced.free⟩
  · intro result world' hrun
    rw [hrun] at hagree
    cases hagree with
    | ok hworld hresult =>
      subst hworld
      cases hends with
      | nothing =>
        obtain rfl : result = {} := hresult
        exact ⟨⟨by simp [htrace, iterationsOf], by simp [htrace, iterationsOf]⟩, by simp⟩
      | @served session world₁ hwf hp _ _ =>
        refine ⟨hp.timeline.paced hp.balanced.records, ?_⟩
        rw [hresult.1, hresult.2]
        intro metric hm
        obtain ⟨completion, hc, rfl⟩ := List.mem_map.mp hm
        obtain ⟨finishMs, hfinished⟩ := hp.finished completion hc
        rw [hmode] at hfinished
        have hservices := hp.accounts.completed completion hc
        have hid : completion.2.requestId = completion.1.id := hfinished.metric_id
        have hsized := hp.sized.completed completion hc
        have hserved := hp.accounts.served_ms completion.2.requestId
        rw [hserved, hid, hservices]
        refine hfinished.closes hsized.lost_eq.symm ?_
        rw [← hservices]
        exact services_fit hp.balanced.records _

theorem progressive_ttft_closes_pair :
    (∀ e world', (Sample.engine Sample.config .progressive .exact).runInstance "instance" 13
        Sample.pair Sample.world = .error e world' → ¬e.IsNegativeResidual ∧ Paced world'.trace) ∧
    ∀ result world', (Sample.engine Sample.config .progressive .exact).runInstance "instance" 13
        Sample.pair Sample.world = .ok result world' →
      Paced world'.trace ∧ ∀ metric ∈ result.requestMetrics,
        metric.Closes (servedMs result.iterationMetrics metric.requestId) :=
  progressive_ttft_closes _ rfl rfl (.prefill (.formula Sample.formula)) .infinite 2
    (by decide +kernel) (by decide +kernel) "instance" (by decide +kernel) _
    (ShapeMemo.filled_by_empty _) rfl

end InferTwin
