import InferTwin.Properties.Aggregation
import InferTwin.Properties.Isolation
import InferTwin.Properties.ReplayAlone
import InferTwin.Server.WorkConserving
import InferTwin.Streaming.CacheFactory

namespace InferTwin

open Effect

variable {C K : Type} {engine : Engine C K} {requests : List SimulationRequest}
  {instanceUuid : String}

section Composition

/-- A composition is of the mode of the request, with the granularity of that mode. -/
theorem compose_mode {request : SimulationRequest} {state : RequestState}
    {finishTimeMs firstScheduledTimeMs : ℚ} {composition : RequestTTFTComposition}
    (h : RequestTTFTComposer.compose request state finishTimeMs firstScheduledTimeMs =
      .ok composition) :
    composition.timelineMode = state.timelineMode ∧
      composition.ttftGranularity = state.timelineMode.ttftGranularity := by
  have hvalidate {built : RequestTTFTComposition} (h : built.validate = .ok composition) :
      composition = built := by
    unfold RequestTTFTComposition.validate at h
    split_ifs at h
    cases h
    rfl
  unfold RequestTTFTComposer.compose at h
  split_ifs at h
  cases hmode : state.timelineMode with
  | legacy =>
    rw [hmode] at h
    rw [hvalidate h]
    exact ⟨rfl, rfl⟩
  | progressive =>
    rw [hmode] at h
    unfold RequestTTFTComposer.composeProgressive at h
    dsimp only at h
    split_ifs at h
    all_goals
      rw [hvalidate h]
      exact ⟨rfl, rfl⟩

theorem build_request_metrics_mode {request : SimulationRequest} {state : RequestState}
    {lookup : LookupMetrics} {metric : BatchAwareRequestMetrics}
    (h : buildRequestMetrics request state lookup = .ok metric) :
    metric.timelineMode = state.timelineMode ∧
      metric.ttftGranularity = state.timelineMode.ttftGranularity := by
  unfold buildRequestMetrics at h
  obtain ⟨_, -, h⟩ := except_bind_ok.mp h
  obtain ⟨_, -, h⟩ := except_bind_ok.mp h
  obtain ⟨composition, hcompose, h⟩ := except_bind_ok.mp h
  cases h
  exact compose_mode hcompose

theorem build_iteration_metrics_mode {shape : BatchShape} {latency : LatencyResult}
    {finishMs : ℚ} {timelineMode : TimelineMode} {computeWait : ComputeWaitAccounting}
    {totals : IterationTotals} {metric : IterationMetrics}
    (h : buildIterationMetrics shape latency finishMs timelineMode computeWait totals =
      .ok metric) :
    metric.timelineMode = timelineMode ∧
      metric.ttftGranularity = timelineMode.ttftGranularity := by
  obtain ⟨_, -, h⟩ := except_bind_ok.mp h
  cases h
  refine ⟨rfl, ?_⟩
  cases timelineMode <;> rfl

end Composition

/-- A finished request has the mode of the engine, and its tokens add up. -/
theorem Job.Finished.reportable {timelineMode : TimelineMode} {finishMs lostMs : ℚ} {job : Job}
    {metric : BatchAwareRequestMetrics} (h : job.Finished timelineMode finishMs lostMs metric) :
    metric.timelineMode = timelineMode ∧
      metric.ttftGranularity = timelineMode.ttftGranularity ∧
      metric.hbmHitTokens + metric.ddrHitTokens + metric.missTokens = metric.promptTokens := by
  obtain ⟨hmode, hgranularity⟩ := build_request_metrics_mode h.metric_eq
  rw [h.ledger.tracks.mode_eq] at hmode hgranularity
  refine ⟨hmode, hgranularity, ?_⟩
  have hdescribes := h.describes
  have hsum := h.ledger.knows.sum_eq
  rw [h.ledger.tracks.tokens_eq, ← hdescribes.prompt_eq] at hsum
  obtain ⟨hhbm, hddr⟩ := Prod.ext_iff.mp hdescribes.hits_eq
  dsimp only at hhbm hddr
  rw [hhbm, hddr, hdescribes.misses_eq]
  exact hsum

/-- All iterations so far were of one mode. -/
def Session.OfMode (timelineMode : TimelineMode) (session : Session) : Prop :=
  ∀ metric ∈ session.iterationMetrics, metric.timelineMode = timelineMode ∧
    metric.ttftGranularity = timelineMode.ttftGranularity

theorem Passes.of_mode {session : Session} {flow : Flow Session} {world world' : World C K}
    (h : Passes engine instanceUuid session world flow world')
    (hmode : session.OfMode engine.timelineMode) : flow.state.OfMode engine.timelineMode := by
  have hreceived {received : Session} (hreceive : Receives engine session received) :
      received.OfMode engine.timelineMode := by
    obtain ⟨⟨_, _, _, he, _⟩, _⟩ := hreceive
    rw [he]
    exact hmode
  cases h with
  | jump hreceive => exact fun metric hmetric ↦ hreceived hreceive metric hmetric
  | idle hreceive => exact hreceived hreceive
  | skip hreceive => exact fun metric hmetric ↦ hreceived hreceive metric hmetric
  | finish hreceive => exact fun metric hmetric ↦ hreceived hreceive metric hmetric
  | batch hreceive _ _ _ hiterates =>
    cases hiterates with
    | mk _ _ _ _ _ _ _ hmetric =>
      intro metric hmem
      rcases List.mem_append.mp hmem with hmem | hmem
      · exact hreceived hreceive metric hmem
      · rw [List.mem_singleton.mp hmem]
        exact build_iteration_metrics_mode hmetric

/-- A replay that returns has gone through passes that keep what they are to keep. -/
theorem serve_instance_kept {fuel : ℕ} {world world' : World C K} {P : Session → Prop}
    (hd : (requests.map SimulationRequest.requestId).Nodup)
    (hstart : ∀ queue request pending, P (Session.start queue request pending))
    (hstep : ∀ session world flow world', P session →
      Passes engine instanceUuid session world flow world' → P flow.state)
    {served : Option Session}
    (h : engine.serveInstance instanceUuid fuel requests world = .ok served world') :
    ∀ session ∈ served, session.Wf engine.config engine.timelineMode requests ∧ P session := by
  cases requests with
  | nil =>
    cases h
    simp
  | cons request pending =>
    rw [Engine.serveInstance] at h
    obtain ⟨queue, _, hqueue, h⟩ := bind_ok.mp h
    obtain ⟨session, world₁, hserve, h⟩ := bind_ok.mp h
    obtain ⟨_, _, -, h⟩ := bind_ok.mp h
    cases h
    have hkept := serve_all_induction (P := fun session _ ↦
      session.Wf engine.config engine.timelineMode (request :: pending) ∧ P session)
      (fun session world flow world' hp hpass ↦
        ⟨hpass.wf hp.1, hstep session world flow world' hp.2 hpass⟩)
      ⟨Session.start_wf _ _ queue hd, hstart queue request pending⟩ hserve
    rintro _ ⟨⟩
    exact hkept

/-- What a replay emits can be reported. -/
theorem run_instance_reportable {fuel : ℕ} {result : InstanceResult} {world world' : World C K}
    (hd : (requests.map SimulationRequest.requestId).Nodup)
    (hinstance : ∀ request ∈ requests, request.instanceUuid = instanceUuid)
    (hne : instanceUuid ≠ "")
    (h : engine.runInstance instanceUuid fuel requests world = .ok result world') :
    Reportable engine.timelineMode.value engine.timelineMode.ttftGranularity.value
      result.requestMetrics result.iterationMetrics := by
  have hon := run_instance_on hd hinstance h
  have hagree := run_instance_agree engine instanceUuid fuel world hd
  rw [h] at hagree
  obtain ⟨served, world₁, hserve, -, hresult⟩ := hagree.ok_left
  have hd' : ((SimulationRequest.sorted requests).map SimulationRequest.requestId).Nodup :=
    (((SimulationRequest.sorted_perm requests).map _).nodup_iff).mpr hd
  have hkept := serve_instance_kept (P := Session.OfMode engine.timelineMode) hd'
    (fun _ _ _ _ hmetric ↦ (by cases hmetric)) (fun _ _ _ _ hmode hpass ↦ hpass.of_mode hmode)
    hserve
  cases served with
  | none =>
    cases hresult
    exact ⟨by simp, by simp, by simp, by simp, by simp⟩
  | some session =>
    obtain ⟨hrequests, hiterations⟩ := hresult
    obtain ⟨hwf, hmode⟩ := hkept session rfl
    have hfinished : ∀ metric ∈ result.requestMetrics,
        metric.timelineMode = engine.timelineMode ∧
          metric.ttftGranularity = engine.timelineMode.ttftGranularity ∧
          metric.hbmHitTokens + metric.ddrHitTokens + metric.missTokens =
            metric.promptTokens := by
      intro metric hmetric
      rw [hrequests] at hmetric
      obtain ⟨completion, hcompletion, rfl⟩ := List.mem_map.mp hmetric
      obtain ⟨finishMs, lostMs, hdone⟩ := hwf.completed completion hcompletion
      exact hdone.reportable
    refine ⟨fun metric hmetric ↦ ?_, fun metric hmetric ↦ ?_, fun metric hmetric ↦ ?_,
      fun metric hmetric ↦ ?_, fun metric hmetric ↦ (hfinished metric hmetric).2.2⟩
    · obtain ⟨htimeline, hgranularity, -⟩ := hfinished metric hmetric
      rw [htimeline, hgranularity]
      exact ⟨rfl, rfl⟩
    · rw [hiterations] at hmetric
      obtain ⟨htimeline, hgranularity⟩ := hmode metric hmetric
      rw [htimeline, hgranularity]
      exact ⟨rfl, rfl⟩
    · rw [hon.requests metric hmetric]
      exact hne
    · rw [hon.iterations metric hmetric]
      exact hne

/-- What is known of the run of an instance that was replayed on its own. -/
structure InstanceRun.Complete (run : InstanceRun) (timelineMode : TimelineMode)
    (instanceUuid : String) (requests : List SimulationRequest) : Prop where
  instance_eq : run.instanceUuid = instanceUuid
  reportable : Reportable timelineMode.value timelineMode.ttftGranularity.value
    run.requestMetrics run.iterationMetrics
  requests_on : ∀ metric ∈ run.requestMetrics, metric.instanceUuid = instanceUuid
  iterations_on : ∀ metric ∈ run.iterationMetrics, metric.instanceUuid = instanceUuid
  accounted : Accounted run.requestMetrics run.iterationMetrics requests

theorem InstanceRun.Complete.length_eq {run : InstanceRun} {timelineMode : TimelineMode}
    (h : run.Complete timelineMode instanceUuid requests) :
    run.requestMetrics.length = requests.length := by
  have htags := h.accounted.tags.length_eq
  rwa [List.length_map, List.length_map] at htags

theorem replay_alone_complete {fuel : ℕ} {start : C} {run : InstanceRun}
    (hd : (requests.map SimulationRequest.requestId).Nodup)
    (hinstance : ∀ request ∈ requests, request.instanceUuid = instanceUuid)
    (hne : instanceUuid ≠ "")
    (h : engine.replayAlone start instanceUuid fuel requests = .ok run) :
    run.Complete engine.timelineMode instanceUuid requests := by
  unfold Engine.replayAlone at h
  cases hrun : (engine.withSink EventLogSink).runInstance instanceUuid fuel requests
    { cache := start, sink := [], memo := ∅ } with
  | error e world =>
    rw [hrun] at h
    cases h
  | ok result world =>
    rw [hrun] at h
    cases h
    have hon := run_instance_on hd hinstance hrun
    have hreportable := run_instance_reportable hd hinstance hne hrun
    exact ⟨rfl, hreportable, hon.requests, hon.iterations,
      run_instance_accounted (instance_registered_of_nodup hd) hrun⟩

end InferTwin
