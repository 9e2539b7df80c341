import InferTwin.Properties.Accounts
import InferTwin.Refinement.ListReplay
import InferTwin.Sample
import InferTwin.Server.Booked
import InferTwin.Server.Lookups
import InferTwin.Server.Outcome

namespace InferTwin

open Effect

variable {C K : Type} {engine : Engine C K} {requests : List SimulationRequest}
  {instanceUuid : String}

/-- The request passes the checks that the request state and the KV transfers make. -/
structure SimulationRequest.Admissible (instanceUuid : String) (request : SimulationRequest) :
    Prop where
  start_nonneg : 0 ≤ request.startTimeMs
  id_ne : request.requestId ≠ ""
  instance_eq : request.instanceUuid = instanceUuid

/-- The exception is raised by the accounting, by the backend, by the materialization policy
or by the TTFT composer. -/
def ReplayError.PassedOn (e : ReplayError) : Prop :=
  e.origin ∈ [ErrorOrigin.accounting, .latency, .materialization, .composer]

theorem ReplayError.passed_on {e : ReplayError} {origin : ErrorOrigin} (h : e.origin = origin)
    (ho : origin ∈ [ErrorOrigin.accounting, .latency, .materialization, .composer]) :
    e.PassedOn := by
  unfold PassedOn
  rw [h]
  exact ho

/-- The cache itself raises the exception at a lookup. -/
def Engine.LookupRaises (engine : Engine C K) (error : CacheError) : Prop :=
  ∃ blocks nowMs requestId instanceUuid cache cache',
    engine.cache.lookupPrefix blocks nowMs requestId instanceUuid cache = .error error cache'

/-- Some request looked up in the run lacks more tokens than a batch may hold. -/
def Overfull (config : SchedulerConfig) (trace : List TraceEvent) : Prop :=
  ∃ item ∈ lookupsOf trace, item.2.Oversized config

/-- How a replay of admissible requests may end with an exception. -/
def Engine.Refuses (engine : Engine C K) (e : ReplayError) (trace : List TraceEvent) : Prop :=
  e.PassedOn ∨ (∃ error, e = .cache error ∧ engine.LookupRaises error) ∨
    e = .emptyBatch ∧ engine.config.enableChunkedPrefill = false ∧ Overfull engine.config trace

section Transfer

variable {facts : IterationFacts} {nowMs lostMs : ℚ} {batch : List (Job × Option ScheduledSlice)}
  {queue : SharedLinkFIFOTransferQueue}

theorem Batched.tracks {timelineMode : TimelineMode} {item : Job × Option ScheduledSlice}
    (h : Batched timelineMode nowMs lostMs item) :
    item.1.state.Tracks timelineMode item.1.request := by
  obtain ⟨job, slice⟩ := item
  cases slice with
  | none =>
    have hrun : job.Running timelineMode nowMs lostMs := h
    exact hrun.ledger.tracks
  | some slice =>
    obtain ⟨planned, tokens, hin, hs⟩ := h
    have he : job = planned.handOver := hs.job_eq
    rw [he]
    exact hin.ledger.tracks.consumed

theorem Loads.uuid_eq {timelineMode : TimelineMode} {startTimeMs kvLoadMs elapsedMs : ℚ}
    {slice : ScheduledSlice} {queue' : SharedLinkFIFOTransferQueue}
    (h : Loads timelineMode startTimeMs slice kvLoadMs queue elapsedMs queue') :
    queue'.instanceUuid = queue.instanceUuid := by
  cases h with
  | none => rfl
  | link _ _ huuid _ => exact huuid

theorem Applies.queue_uuid {totals : IterationTotals} {world world' : World C K}
    {applied : Applied} (h : Applies engine facts batch queue totals world applied world')
    (hb : ∀ item ∈ batch, Batched engine.timelineMode nowMs lostMs item) :
    applied.transferQueue.instanceUuid = queue.instanceUuid := by
  induction h with
  | nil => rfl
  | idle _ ih => exact ih (List.forall_mem_of_forall_mem_cons hb)
  | advance hslice _ ih =>
    have hserved := (hb _ (List.mem_cons_self ..)).served hslice
    exact (ih (List.forall_mem_of_forall_mem_cons hb)).trans hserved.loads.uuid_eq
  | complete hslice _ ih =>
    have hserved := (hb _ (List.mem_cons_self ..)).served hslice
    exact (ih (List.forall_mem_of_forall_mem_cons hb)).trans hserved.loads.uuid_eq

/-- The transfers of admissible requests over the link of their instance do not fail. -/
theorem ApplyFails.passed_on {e : ReplayError}
    (h : ApplyFails engine facts lostMs batch queue e) (hqueue : queue.instanceUuid = instanceUuid)
    (huuid : instanceUuid ≠ "")
    (hb : ∀ item ∈ batch, item.1.request.Admissible instanceUuid ∧
      item.1.state.Tracks engine.timelineMode item.1.request) : e.PassedOn := by
  induction h with
  | @here job _ _ _ _ h =>
    obtain ⟨hadmissible, htracks⟩ := hb _ (List.mem_cons_self ..)
    have hid : job.state.requestId ≠ "" := htracks.id_eq ▸ hadmissible.id_ne
    have hown : job.state.instanceUuid = instanceUuid :=
      htracks.instance_eq.trans hadmissible.instance_eq
    cases h with
    | transfer h =>
      cases h with
      | request_id h => exact absurd h hid
      | instance_uuid h => exact absurd (hown.symm.trans h) huuid
      | mismatch h => exact absurd (hown.trans hqueue.symm) h
    | materialization => exact @ReplayError.passed_on _ .materialization rfl (by decide)
    | metric _ hunclosed => exact ReplayError.passed_on hunclosed.composer (by decide)
  | idle _ ih => exact ih hqueue (List.forall_mem_of_forall_mem_cons hb)
  | later hadvanced _ ih =>
    exact ih (hadvanced.loads.uuid_eq.trans hqueue) (List.forall_mem_of_forall_mem_cons hb)

end Transfer

/-- What is known of a replay between two passes. -/
structure Session.Audited (engine : Engine C K) (instanceUuid : String)
    (requests : List SimulationRequest) (session : Session) (world : World C K) : Prop where
  accounts : session.Accounts engine.timelineMode world.trace
  remembers : session.Remembers engine.config world.trace
  booked : ∀ count, session.Booked count world.trace
  queue_eq : session.transferQueue.instanceUuid = instanceUuid
  pending : session.pending ⊆ requests

theorem Session.start_audited (engine : Engine C K) {request : SimulationRequest}
    {pending : List SimulationRequest} {world : World C K} (htrace : world.trace = [])
    (hr : request :: pending ⊆ requests) :
    (Session.start { instanceUuid } request pending).Audited engine instanceUuid requests
      world where
  accounts := Session.start_accounts _ _ _ _ (by rw [htrace]; rfl)
  remembers := by
    rw [htrace]
    exact Session.start_remembers _ _ _ _
  booked count := by
    rw [htrace]
    rfl
  queue_eq := rfl
  pending := hr

theorem Passes.queue_uuid {session : Session} {flow : Flow Session} {world world' : World C K}
    (h : Passes engine instanceUuid session world flow world')
    (hw : session.Wf engine.config engine.timelineMode requests) :
    flow.state.transferQueue.instanceUuid = session.transferQueue.instanceUuid := by
  have hreceived : ∀ {received : Session}, Receives engine session received →
      received.transferQueue.instanceUuid = session.transferQueue.instanceUuid := by
    rintro received ⟨⟨_, _, -, he, -⟩, -⟩
    rw [he]
  cases h with
  | jump hreceive =>
    have hr := hreceived hreceive
    exact hr
  | idle hreceive => exact hreceived hreceive
  | skip hreceive =>
    have hr := hreceived hreceive
    exact hr
  | finish hreceive =>
    have hr := hreceived hreceive
    exact hr
  | batch hreceive _ hprepares _ hiterates =>
    have hprepared := hprepares.prepared (hreceive.wf hw)
    obtain ⟨hg, hadm, -, -, -, -, happlies, -⟩ := hiterates
    exact (happlies.queue_uuid (hprepared.batched hg hadm)).trans (hreceived hreceive)

theorem Passes.audited {session : Session} {flow : Flow Session} {world world' : World C K}
    (h : Passes engine instanceUuid session world flow world')
    (hw : session.Wf engine.config engine.timelineMode requests)
    (ha : session.Audited engine instanceUuid requests world) :
    flow.state.Audited engine instanceUuid requests world' where
  accounts := h.accounts hw ha.accounts
  remembers := h.remembers hw ha.remembers
  booked count := h.booked hw (ha.booked count)
  queue_eq := (h.queue_uuid hw).trans ha.queue_eq
  pending := List.Subset.trans h.pending_subset ha.pending

/-- The exceptions with which a pass over admissible requests can end. -/
theorem PassFails.refuses {session : Session} {world world' : World C K} {e : ReplayError}
    (hw : session.Wf engine.config engine.timelineMode requests)
    (ha : session.Audited engine instanceUuid requests world) (huuid : instanceUuid ≠ "")
    (hr : ∀ request ∈ requests, request.Admissible instanceUuid)
    (h : PassFails engine instanceUuid session world e world') :
    engine.Refuses e world'.trace := by
  cases h with
  | arrival hpending hneg =>
    exact absurd hneg (not_lt.mpr (hr _ (ha.pending hpending)).start_nonneg)
  | prepare hreceive h =>
    cases h with
    | look he h =>
      cases h with
      | cache hl hraw => exact .inr (.inl ⟨_, rfl, _, _, _, _, _, _, hraw⟩)
      | accounting _ _ hacc =>
        exact .inl (ReplayError.passed_on (from_result_error hacc) (by decide))
    | complete he hlook hrem hload hdone =>
      have hunclosed := ScanFails.unclosed ((hreceive.wf hw).waiting _ he) hlook hrem hload hdone
      exact .inl (ReplayError.passed_on hunclosed.composer (by decide))
  | @iterate received frontier _ world₁ _ hreceive hprepares hleft h =>
    have hwf := hreceive.wf hw
    have hprepared := hprepares.prepared hwf
    cases h with
    | empty hg hadm =>
      obtain ⟨hc, hover⟩ := hprepares.stuck hwf (hreceive.remembers ha.remembers) hleft hg hadm
      exact .inr (.inr ⟨rfl, hc, hover⟩)
    | latency h => exact .inl (ReplayError.passed_on h (by decide))
    | apply hg hadm hshape _ _ h =>
      have hqueue : received.transferQueue.instanceUuid = instanceUuid := by
        obtain ⟨⟨_, _, -, he, -⟩, -⟩ := hreceive
        rw [he]
        exact ha.queue_eq
      refine .inl (h.passed_on hqueue huuid fun item hi ↦ ?_)
      exact ⟨hr _ (hprepared.batch_requests hprepares hwf hg hadm item hi),
        (hprepared.batched hg hadm item hi).tracks⟩

theorem LoadsOnce.sums {load : ℕ × ℕ} {slices : List ScheduledSlice}
    (h : LoadsOnce load (0, 0) slices) :
    (slices.map ScheduledSlice.kvLoadTokens).sum = load.1 ∧
      (slices.map ScheduledSlice.kvLoadBytes).sum = load.2 := by
  cases slices with
  | nil =>
    cases h
    exact ⟨rfl, rfl⟩
  | cons slice slices =>
    obtain ⟨hfirst, -, hlater⟩ := h
    have htokens : (slices.map ScheduledSlice.kvLoadTokens).sum = 0 := by
      apply List.sum_eq_zero
      intro tokens ht
      obtain ⟨later, hl, rfl⟩ := List.mem_map.mp ht
      exact congrArg Prod.fst (hlater later hl)
    have hbytes : (slices.map ScheduledSlice.kvLoadBytes).sum = 0 := by
      apply List.sum_eq_zero
      intro bytes hb
      obtain ⟨later, hl, rfl⟩ := List.mem_map.mp hb
      exact congrArg Prod.snd (hlater later hl)
    have h₁ : slice.kvLoadTokens = load.1 := congrArg Prod.fst hfirst
    have h₂ : slice.kvLoadBytes = load.2 := congrArg Prod.snd hfirst
    rw [List.map_cons, List.sum_cons, List.map_cons, List.sum_cons, htokens, hbytes]
    omega

/-- The slices of a finished request, in the order of the iterations: end to end they cover
the prompt from the cached tokens on, and the first of them carries the KV load. -/
structure BatchAwareRequestMetrics.Delivered (metric : BatchAwareRequestMetrics)
    (trace : List TraceEvent) : Prop where
  tiles : Tiles (metric.hbmHitTokens + metric.ddrHitTokens) metric.promptTokens
    ((servicesOf metric.requestId trace).map Service.slice)
  loads : LoadsOnce (metric.kvLoadTokens, metric.kvLoadBytes) (0, 0)
    ((servicesOf metric.requestId trace).map Service.slice)
  misses_eq : metric.hbmHitTokens + metric.ddrHitTokens + metric.missTokens = metric.promptTokens

/-- One metric for each request, and the tokens of the two metric streams agree. -/
structure InstanceResult.Completes (requests : List SimulationRequest) (trace : List TraceEvent)
    (result : InstanceResult) : Prop where
  once : (result.requestMetrics.map fun metric ↦ (metric.requestId, metric.promptTokens)).Perm
    (requests.map fun request ↦ (request.requestId, request.promptTokens))
  delivered : ∀ metric ∈ result.requestMetrics, metric.Delivered trace
  tokens_eq : (result.iterationMetrics.map IterationMetrics.scheduledPrefillTokens).sum =
    (result.requestMetrics.map BatchAwareRequestMetrics.missTokens).sum
  load_tokens_eq : (result.iterationMetrics.map IterationMetrics.kvLoadTokens).sum =
    (result.requestMetrics.map BatchAwareRequestMetrics.kvLoadTokens).sum
  load_bytes_eq : (result.iterationMetrics.map IterationMetrics.kvLoadBytes).sum =
    (result.requestMetrics.map BatchAwareRequestMetrics.kvLoadBytes).sum

theorem IterationRecord.Reports.totals {timelineMode : TimelineMode} {record : IterationRecord}
    {metric : IterationMetrics} (h : record.Reports timelineMode metric) :
    metric.scheduledPrefillTokens = record.shape.scheduledPrefillTokens ∧
      metric.kvLoadTokens = record.shape.kvLoadTokens ∧
      metric.kvLoadBytes = record.shape.kvLoadBytes := by
  obtain ⟨latency, computeWait, totals, -, hbuild⟩ := h
  obtain ⟨breakdown, -, hbuild⟩ := except_bind_ok.mp hbuild
  cases hbuild
  exact ⟨rfl, rfl, rfl⟩

section Returned

variable {session : Session} {world : World C K}

/-- A quantity that the iteration metrics report slice by slice adds up to what the finished
requests were given of it. -/
theorem Session.Audited.total (ha : session.Audited engine instanceUuid requests world)
    (hidle : session.Idle) {report : IterationMetrics → ℕ} {count : ScheduledSlice → ℕ}
    (hreport : ∀ (record : IterationRecord) metric, record.Reports engine.timelineMode metric →
      report metric = (record.shape.requestSlices.map count).sum) :
    (session.iterationMetrics.map report).sum =
      (session.completed.map fun completion ↦ (completion.1.slices.map count).sum).sum := by
  have hmetrics : (session.iterationMetrics.map report).sum = traceTotal count world.trace := by
    unfold traceTotal
    have hall := ha.accounts.metrics
    generalize iterationsOf world.trace = records at hall
    generalize session.iterationMetrics = metrics at hall
    induction hall with
    | nil => rfl
    | cons hhead _ ih =>
      rw [List.map_cons, List.map_cons, List.sum_cons, List.sum_cons, ih, hreport _ _ hhead]
  have hbooked : traceTotal count world.trace = _ := ha.booked count
  rw [hidle.2, jobTotal_nil, Nat.add_zero] at hbooked
  rw [hmetrics, hbooked, jobTotal, List.map_map]
  rfl

theorem Job.Finished.delivered {timelineMode : TimelineMode} {finishMs lostMs : ℚ} {job : Job}
    {metric : BatchAwareRequestMetrics} {trace : List TraceEvent}
    (h : job.Finished timelineMode finishMs lostMs metric)
    (hs : servicesOf job.id trace = job.services) : metric.Delivered trace := by
  have hd := h.describes
  have hknows := h.ledger.knows
  have htokens := h.ledger.tracks.tokens_eq
  have hslices : (servicesOf metric.requestId trace).map Service.slice = job.slices := by
    rw [h.metric_id, hs, Job.slices]
  have hhits : metric.hbmHitTokens + metric.ddrHitTokens = job.state.cachedTokens := by
    have h₁ : metric.hbmHitTokens = job.lookup.hbmHitTokens := congrArg Prod.fst hd.hits_eq
    have h₂ : metric.ddrHitTokens = job.lookup.ddrHitTokens := congrArg Prod.snd hd.hits_eq
    rw [h₁, h₂, hknows.cached_eq, LookupMetrics.effectiveHitTokens]
  have hprompt : metric.promptTokens = job.state.numComputedTokens := by
    rw [hd.prompt_eq, ← htokens, h.done]
  refine ⟨?_, ?_, ?_⟩
  · rw [hslices, hhits, hprompt]
    exact h.ledger.tiles
  · rw [hslices, hd.load_eq, ← h.unloaded]
    exact h.ledger.loads
  · rw [hhits, hprompt, h.done, hd.misses_eq, ← hknows.sum_eq, hknows.cached_eq]

theorem Session.Audited.completes {result : InstanceResult}
    (ha : session.Audited engine instanceUuid requests world)
    (hw : session.Wf engine.config engine.timelineMode requests)
    (hpending : session.pending = []) (hidle : session.Idle)
    (hrequests : result.requestMetrics = session.completed.map Prod.snd)
    (hiterations : result.iterationMetrics = session.iterationMetrics) :
    result.Completes requests world.trace := by
  have hdelivered : ∀ completion ∈ session.completed, completion.2.Delivered world.trace := by
    intro completion hc
    obtain ⟨finishMs, lostMs, hf⟩ := hw.completed completion hc
    exact hf.delivered (ha.accounts.completed completion hc)
  -- what the slices of a finished request add up to, as its own metric reports it
  have htotals : ∀ completion ∈ session.completed,
      (completion.1.slices.map ScheduledSlice.scheduledPrefillTokens).sum =
        completion.2.missTokens ∧
      (completion.1.slices.map ScheduledSlice.kvLoadTokens).sum = completion.2.kvLoadTokens ∧
      (completion.1.slices.map ScheduledSlice.kvLoadBytes).sum = completion.2.kvLoadBytes := by
    intro completion hc
    obtain ⟨finishMs, lostMs, hf⟩ := hw.completed completion hc
    obtain ⟨htiles, hloads, hsum⟩ := hdelivered completion hc
    have hslices : (servicesOf completion.2.requestId world.trace).map Service.slice =
        completion.1.slices := by
      rw [hf.metric_id, ha.accounts.completed completion hc, Job.slices]
    rw [hslices] at htiles hloads
    have htokens := htiles.sum
    exact ⟨by omega, hloads.sums⟩
  have hsums : ∀ {report : IterationMetrics → ℕ} {count : ScheduledSlice → ℕ}
      {metric : BatchAwareRequestMetrics → ℕ},
      (∀ (record : IterationRecord) reported, record.Reports engine.timelineMode reported →
        report reported = (record.shape.requestSlices.map count).sum) →
      (∀ completion ∈ session.completed,
        (completion.1.slices.map count).sum = metric completion.2) →
      (result.iterationMetrics.map report).sum = (result.requestMetrics.map metric).sum := by
    intro report count metric hreport hmetric
    rw [hiterations, hrequests, ha.total hidle hreport, List.map_map]
    exact congrArg List.sum (List.map_congr_left hmetric)
  constructor
  · obtain ⟨arrived, hreq, -, hroster⟩ := hw.roster
    have hnone : session.active = [] := by
      unfold Session.active
      rw [hidle.1, hidle.2]
      rfl
    rw [hpending, List.append_nil] at hreq
    rw [hnone, List.map_nil, List.append_nil, ← hreq] at hroster
    have hnames := hroster.map fun ticket ↦ (ticket.1.requestId, ticket.1.promptTokens)
    have hright : requests.zipIdx.map (fun ticket ↦ (ticket.1.requestId, ticket.1.promptTokens)) =
        requests.map fun request ↦ (request.requestId, request.promptTokens) := by
      have hfst := congrArg (List.map fun request : SimulationRequest ↦
        (request.requestId, request.promptTokens)) (List.zipIdx_map_fst 0 requests)
      rw [List.map_map] at hfst
      exact hfst
    rw [hright, tickets, List.map_map] at hnames
    rw [hrequests, List.map_map]
    refine List.Perm.trans (List.Perm.of_eq (List.map_congr_left fun completion hc ↦ ?_)) hnames
    obtain ⟨finishMs, lostMs, hf⟩ := hw.completed completion hc
    exact Prod.ext hf.describes.id_eq hf.describes.prompt_eq
  · rw [hrequests]
    intro metric hm
    obtain ⟨completion, hc, rfl⟩ := List.mem_map.mp hm
    exact hdelivered completion hc
  · exact hsums (fun _ _ h ↦ h.totals.1) fun completion hc ↦ (htotals completion hc).1
  · exact hsums (fun _ _ h ↦ h.totals.2.1) fun completion hc ↦ (htotals completion hc).2.1
  · exact hsums (fun _ _ h ↦ h.totals.2.2) fun completion hc ↦ (htotals completion hc).2.2

end Returned

/-- Every replay of admissible requests ends: it finishes each of them exactly once, or it
stops at an exception of what it calls, or at a request that no batch can hold. -/
theorem instance_replay_completes (engine : Engine C K) (huuid : instanceUuid ≠ "")
    (hd : (requests.map SimulationRequest.requestId).Nodup)
    (hr : ∀ request ∈ requests, request.Admissible instanceUuid) {fuel : ℕ}
    (hfuel : replayFuel requests ≤ fuel) (cache : C) (sink : K) (memo : ShapeMemo) :
    (∀ e world', engine.runInstance instanceUuid fuel requests { cache, sink, memo } =
      .error e world' → engine.Refuses e world'.trace) ∧
    ∀ result world', engine.runInstance instanceUuid fuel requests { cache, sink, memo } =
        .ok result world' →
      (engine.config.enableChunkedPrefill = false → ¬Overfull engine.config world'.trace) ∧
        result.Completes requests world'.trace := by
  have hperm := SimulationRequest.sorted_perm requests
  have hd' := (hperm.map SimulationRequest.requestId).nodup_iff.mpr hd
  have hr' : ∀ request ∈ SimulationRequest.sorted requests, request.Admissible instanceUuid :=
    fun request hrequest ↦ hr request (hperm.subset hrequest)
  have hends : Ends engine instanceUuid (SimulationRequest.sorted requests)
      (fun session world ↦ session.Audited engine instanceUuid (SimulationRequest.sorted requests)
        world) { cache, sink, memo }
      (engine.serveInstance instanceUuid fuel (SimulationRequest.sorted requests)
        { cache, sink, memo }) := by
    refine serve_instance_ends hd' ((replay_fuel_perm hperm).trans_le hfuel) ?_
      fun _ _ _ _ hw ha hpass ↦ hpass.audited hw ha
    intro request pending hsorted _
    exact Session.start_audited engine rfl (hsorted ▸ List.Subset.refl _)
  have hagree := run_instance_agree engine instanceUuid fuel { cache, sink, memo } hd
  generalize engine.serveInstance instanceUuid fuel (SimulationRequest.sorted requests)
    { cache, sink, memo } = served at hends hagree
  constructor
  · intro e world' hrun
    rw [hrun] at hagree
    cases hagree with
    | error hworld =>
      subst hworld
      cases hends with
      | refused _ hnone => exact absurd hnone huuid
      | failed hwf ha hpass => exact (fails_of_pass hwf hpass).refuses hwf ha huuid hr'
  · intro result world' hrun
    rw [hrun] at hagree
    cases hagree with
    | ok hworld hresult =>
      subst hworld
      cases hends with
      | nothing hnil =>
        obtain rfl : result = {} := hresult
        obtain rfl : requests = [] := by
          rw [hnil] at hperm
          exact hperm.nil_eq.symm
        refine ⟨?_, ⟨.nil, by simp, rfl, rfl, rfl⟩⟩
        rintro - ⟨item, hitem, -⟩
        cases hitem
      | @served session world₁ hwf ha hpending hidle =>
        obtain ⟨hmetrics, hiterations⟩ := hresult
        have hcompletes := ha.completes hwf hpending hidle hmetrics hiterations
        refine ⟨?_, hcompletes.once.trans (hperm.map _), hcompletes.delivered,
          hcompletes.tokens_eq, hcompletes.load_tokens_eq, hcompletes.load_bytes_eq⟩
        rintro hc ⟨item, hitem, hover⟩
        obtain ⟨entry, he, -⟩ := ha.remembers.oversized hc item hitem hover
        rw [hidle.1] at he
        cases he

theorem instance_replay_completes_pair :
    (∀ e world', (Sample.engine Sample.config .progressive .exact).runInstance "instance" 13
        Sample.pair Sample.world = .error e world' →
      (Sample.engine Sample.config .progressive .exact).Refuses e world'.trace) ∧
    ∀ result world', (Sample.engine Sample.config .progressive .exact).runInstance "instance" 13
        Sample.pair Sample.world = .ok result world' →
      (Sample.config.enableChunkedPrefill = false → ¬Overfull Sample.config world'.trace) ∧
        result.Completes Sample.pair world'.trace :=
  instance_replay_completes (Sample.engine Sample.config .progressive .exact) (by decide)
    (by decide +kernel) (by
      intro request hr
      rcases List.mem_pair.mp hr with rfl | rfl <;>
        exact ⟨by decide +kernel, by decide +kernel, by decide +kernel⟩)
    (by decide +kernel) ∅ () ∅

/-- A cache that finds everything in its DDR tier. -/
def Sample.warm : PrefixCache Unit where
  lookupPrefix blocks _ _ _ := pure { hbmHitBlocks := [], ddrHitBlocks := blocks, missBlocks := [] }
  materialize _ _ _ _ _ := pure ()
  takeEvents c := ([], c)

def Sample.warmEngine : Engine Unit Unit where
  config := Sample.config
  latencyBackend := Sample.formula.toBackend
  cache := Sample.warm
  sink := NullCacheEventSink
  materializationPolicy := defaultMaterializationPolicy .progressive
  timelineMode := .progressive
  supports_chunks := fun _ ↦ rfl

/-- A start time before the epoch, an unnamed instance and an unnamed request with KV to load
each stop a replay. -/
theorem inadmissible_replays_stop :
    outcome ((Sample.engine Sample.config .progressive .exact).runInstance "instance" 13
      [Sample.request "a" (-1) [Sample.block "x" 0 2]] Sample.world) =
        .error .negativeArrivalTime ∧
    outcome ((Sample.engine Sample.config .progressive .exact).runInstance "" 13
      [Sample.request "a" 0 [Sample.block "x" 0 2]] Sample.world) =
        .error .transferInstanceRequired ∧
    outcome (Sample.warmEngine.runInstance "instance" 13
      [Sample.request "" 0 [Sample.block "x" 0 2, Sample.block "y" 1 1]]
      { cache := (), sink := (), memo := ∅ }) =
        .error .transferRequestIdRequired := by
  decide +kernel

end InferTwin
