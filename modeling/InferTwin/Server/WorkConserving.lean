import InferTwin.Server.Fcfs
import Mathlib.Data.List.Chain

namespace InferTwin

open Effect

variable {C K : Type} {engine : Engine C K} {requests : List SimulationRequest}

/-- A request that needed no iteration. -/
def BatchAwareRequestMetrics.ZeroMiss (metric : BatchAwareRequestMetrics) : Prop :=
  metric.missTokens = 0 ∧ metric.scheduledIterationCount = 0

/-- Of the requests that have come by the given time, those not finished by then need no
iteration. -/
def Session.Settled (requests : List SimulationRequest) (session : Session) (timeMs : ℚ) : Prop :=
  ∀ request ∈ requests, request.startTimeMs ≤ timeMs → ∃ completion ∈ session.completed,
    completion.1.request = request ∧ (completion.2.finishTimeMs ≤ timeMs ∨ completion.2.ZeroMiss)

theorem Session.Settled.mono {session session' : Session} {timeMs : ℚ}
    (h : session.Settled requests timeMs)
    (hsub : ∀ completion ∈ session.completed, completion ∈ session'.completed) :
    session'.Settled requests timeMs := by
  intro request hr hle
  obtain ⟨completion, hc, hdone⟩ := h request hr hle
  exact ⟨completion, hsub completion hc, hdone⟩

/-- Nobody is active and nobody has come late: all who have come are finished. -/
theorem Session.Wf.settled {config : SchedulerConfig} {timelineMode : TimelineMode}
    {session : Session} (hw : session.Wf config timelineMode requests) (hidle : session.Idle)
    {timeMs : ℚ} (hlater : ∀ request ∈ session.pending, timeMs < request.startTimeMs)
    (hdone : ∀ completion ∈ session.completed,
      completion.2.finishTimeMs ≤ timeMs ∨ completion.2.ZeroMiss) :
    session.Settled requests timeMs := by
  intro request hr hle
  obtain ⟨arrived, hreq, -, hperm⟩ := hw.roster
  rw [hreq] at hr
  rcases List.mem_append.mp hr with hr | hr
  · obtain ⟨seq, hlt, rfl⟩ := List.mem_iff_getElem.mp hr
    have hticket : (arrived[seq], seq) ∈ arrived.zipIdx := by
      rw [List.mem_zipIdx_iff_getElem?]
      exact List.getElem?_eq_getElem hlt
    have hmem := hperm.mem_iff.mpr hticket
    rw [Session.active, hidle.1, hidle.2] at hmem
    simp only [List.map_nil, List.append_nil] at hmem
    obtain ⟨completion, hc, he⟩ := List.mem_map.mp hmem
    exact ⟨completion, hc, congrArg Prod.fst he, hdone completion hc⟩
  · exact absurd hle (not_le.mpr (hlater request hr))

/-- The iterations of a session, one after the other: the server is left idle only when all
who have come are finished. -/
structure Session.OnTime (requests : List SimulationRequest) (session : Session) : Prop where
  numbered : session.iterationMetrics.map IterationMetrics.iterationId =
    List.range session.iterationId
  forward : ∀ metric ∈ session.iterationMetrics, metric.startTimeMs ≤ metric.finishTimeMs
  past : ∀ metric ∈ session.iterationMetrics, metric.finishTimeMs ≤ session.nowMs
  finished : ∀ completion ∈ session.completed, completion.2.finishTimeMs ≤ session.nowMs
  chain : session.iterationMetrics.IsChain fun metric next ↦
    metric.finishTimeMs ≤ next.startTimeMs ∧
      (metric.finishTimeMs < next.startTimeMs → session.Settled requests metric.finishTimeMs)
  last : ∀ metric ∈ session.iterationMetrics.getLast?,
    metric.finishTimeMs = session.nowMs ∨ session.Settled requests metric.finishTimeMs

/-- Whom moving the arrivals leaves for later comes later. -/
theorem Receives.later_all {session received : Session} (h : Receives engine session received)
    (hsorted : requests.Pairwise fun a b ↦ a.sortKey ≤ b.sortKey)
    (hw : session.Wf engine.config engine.timelineMode requests) :
    ∀ request ∈ received.pending, session.nowMs < request.startTimeMs := by
  obtain ⟨_, hreq, -⟩ := (h.wf hw).roster
  have hpending : received.pending.Pairwise fun a b ↦ a.sortKey ≤ b.sortKey := by
    rw [hreq] at hsorted
    exact (List.pairwise_append.mp hsorted).2.1
  have hlater := h.later
  cases hp : received.pending with
  | nil => simp
  | cons first rest =>
    rw [hp] at hpending hlater
    have hfirst := hlater first rfl
    refine List.forall_mem_cons.mpr ⟨hfirst, fun request hr ↦ ?_⟩
    exact hfirst.trans_le
      (SimulationRequest.startTime_le_of_sortKey_le (List.rel_of_pairwise_cons hpending hr))

namespace Session.OnTime

variable {session session' : Session}

/-- Nothing is iterated, and whoever is finished is finished at the present time. -/
theorem quiet (h : session.OnTime requests)
    (hiterations : session'.iterationMetrics = session.iterationMetrics)
    (hid : session'.iterationId = session.iterationId)
    (hsub : ∀ completion ∈ session.completed, completion ∈ session'.completed)
    (hnow : session.nowMs ≤ session'.nowMs)
    (hfinished : ∀ completion ∈ session'.completed, completion.2.finishTimeMs ≤ session'.nowMs)
    (hlast : session.nowMs = session'.nowMs ∨ session'.Settled requests session.nowMs) :
    session'.OnTime requests where
  numbered := by
    rw [hiterations, hid]
    exact h.numbered
  forward := by
    rw [hiterations]
    exact h.forward
  past := by
    rw [hiterations]
    exact fun metric hm ↦ (h.past metric hm).trans hnow
  finished := hfinished
  chain := by
    rw [hiterations]
    exact h.chain.imp fun _ _ hstep ↦ ⟨hstep.1, fun hlt ↦ (hstep.2 hlt).mono hsub⟩
  last := by
    rw [hiterations]
    intro metric hm
    rcases h.last metric hm with he | hsettled
    · rw [he]
      exact hlast.imp_right id
    · exact .inr (hsettled.mono hsub)

/-- An iteration starts at the present time. -/
theorem iteration (h : session.OnTime requests) {metric : IterationMetrics}
    (hiterations : session'.iterationMetrics = session.iterationMetrics ++ [metric])
    (hid : metric.iterationId = session.iterationId)
    (hnext : session'.iterationId = session.iterationId + 1)
    (hstart : metric.startTimeMs = session.nowMs) (hfinish : metric.finishTimeMs = session'.nowMs)
    (hsub : ∀ completion ∈ session.completed, completion ∈ session'.completed)
    (hnow : session.nowMs ≤ session'.nowMs)
    (hfinished : ∀ completion ∈ session'.completed, completion.2.finishTimeMs ≤ session'.nowMs) :
    session'.OnTime requests where
  numbered := by
    rw [hiterations, hnext, List.map_append, h.numbered, List.map_singleton, hid, List.range_succ]
  forward := by
    rw [hiterations]
    refine List.forall_mem_append.mpr ⟨h.forward, List.forall_mem_singleton.mpr ?_⟩
    rw [hstart, hfinish]
    exact hnow
  past := by
    rw [hiterations]
    refine List.forall_mem_append.mpr ⟨?_, List.forall_mem_singleton.mpr hfinish.le⟩
    exact fun other ho ↦ (h.past other ho).trans hnow
  finished := hfinished
  chain := by
    rw [hiterations]
    refine List.isChain_append.mpr ⟨?_, List.isChain_singleton _, ?_⟩
    · exact h.chain.imp fun _ _ hstep ↦ ⟨hstep.1, fun hlt ↦ (hstep.2 hlt).mono hsub⟩
    · intro last hlast next hn
      cases hn
      rw [hstart]
      refine ⟨h.past last (List.mem_of_getLast? hlast), fun hlt ↦ ?_⟩
      rcases h.last last hlast with he | hsettled
      · exact absurd he hlt.ne
      · exact hsettled.mono hsub
  last := by
    rw [hiterations, List.getLast?_concat]
    intro last hlast
    cases hlast
    exact .inl hfinish

end Session.OnTime

/-- Whoever a pass has finished is finished when the pass is over. -/
theorem Passes.finished_by {instanceUuid : String} {session : Session} {flow : Flow Session}
    {world world' : World C K} (h : Passes engine instanceUuid session world flow world')
    (hw : session.Wf engine.config engine.timelineMode requests)
    (hfinished : ∀ completion ∈ session.completed, completion.2.finishTimeMs ≤ session.nowMs) :
    ∀ completion ∈ flow.state.completed, completion.2.finishTimeMs ≤ flow.state.nowMs := by
  intro completion hc
  rcases h.finishes hw completion hc with hc | ⟨finishMs, lostMs, hfin, -, hle, hle'⟩
  · have hnow : session.nowMs ≤ flow.state.nowMs := by
      cases h.moves hw with
      | quiet _ _ _ _ _ hnow => exact hnow
      | iteration hrecorded => exact hrecorded.now_eq ▸ hrecorded.forward
    exact (hfinished completion hc).trans hnow
  · have he := hfin.finish_eq
    rw [hfin.describes.finish_eq] at he
    cases he
    exact hle'

/-- Nobody is left on the frontier: all who have come are finished. -/
theorem Prepares.settled {session : Session} {frontier : Frontier} {world world' : World C K}
    (h : Prepares engine session world frontier world')
    (hw : session.Wf engine.config engine.timelineMode requests) (hempty : frontier.Empty)
    (hlater : ∀ request ∈ session.pending, session.nowMs < request.startTimeMs)
    (hfinished : ∀ completion ∈ session.completed, completion.2.finishTimeMs ≤ session.nowMs)
    (nowMs : ℚ) : (session.emptied frontier nowMs).Settled requests session.nowMs := by
  refine ((h.prepared hw).emptied hw hempty nowMs).settled ⟨rfl, rfl⟩ hlater ?_
  intro completion hc
  rcases List.mem_append.mp hc with hc | hc
  · exact .inl (hfinished completion hc)
  · exact .inr (h.completed_now hw completion hc).2

theorem build_iteration_metrics_spans {shape : BatchShape} {latency : LatencyResult}
    {finishMs : ℚ} {timelineMode : TimelineMode} {computeWait : ComputeWaitAccounting}
    {totals : IterationTotals} {metric : IterationMetrics}
    (h : buildIterationMetrics shape latency finishMs timelineMode computeWait totals =
      .ok metric) :
    metric.iterationId = shape.iterationId ∧ metric.startTimeMs = shape.startTimeMs ∧
      metric.finishTimeMs = finishMs := by
  obtain ⟨_, -, h⟩ := except_bind_ok.mp h
  cases h
  exact ⟨rfl, rfl, rfl⟩

/-- One pass keeps the server at work. -/
theorem Passes.on_time {instanceUuid : String} {session : Session} {flow : Flow Session}
    {world world' : World C K} (h : Passes engine instanceUuid session world flow world')
    (hsorted : requests.Pairwise fun a b ↦ a.sortKey ≤ b.sortKey)
    (hw : session.Wf engine.config engine.timelineMode requests) (ht : session.OnTime requests) :
    flow.state.OnTime requests := by
  have hfinished := h.finished_by hw ht.finished
  have hreceived : ∀ {received : Session}, Receives engine session received →
      received.completed = session.completed ∧
        received.iterationMetrics = session.iterationMetrics := by
    intro received hreceive
    obtain ⟨⟨_, _, _, he, _⟩, _⟩ := hreceive
    rw [he]
    exact ⟨rfl, rfl⟩
  cases h with
  | @jump received request rest hreceive hidle hpending =>
    obtain ⟨hcompleted, hiterations⟩ := hreceived hreceive
    have hlater := hreceive.later_all hsorted hw
    have hsettled : received.Settled requests session.nowMs := by
      refine (hreceive.wf hw).settled hidle hlater fun completion hc ↦ .inl ?_
      exact ht.finished completion (hcompleted ▸ hc)
    refine ht.quiet hiterations hreceive.keeps.1 ?_ ?_ hfinished (.inr hsettled)
    · exact fun completion hc ↦ hcompleted.symm ▸ hc
    · exact (hlater request (by simp [hpending])).le
  | idle hreceive =>
    obtain ⟨hcompleted, hiterations⟩ := hreceived hreceive
    refine ht.quiet hiterations hreceive.keeps.1 ?_ hreceive.now_eq.ge hfinished
      (.inl hreceive.now_eq.symm)
    exact fun completion hc ↦ hcompleted.symm ▸ hc
  | @skip received frontier world₁ request rest hreceive hbusy hprepares hempty hpending =>
    obtain ⟨hcompleted, hiterations⟩ := hreceived hreceive
    have hlater := hreceive.later_all hsorted hw
    rw [← hreceive.now_eq] at hlater
    have hsettled := hprepares.settled (hreceive.wf hw) hempty hlater
      (by rw [hcompleted, hreceive.now_eq]; exact ht.finished)
      (max received.nowMs request.startTimeMs)
    rw [hreceive.now_eq] at hsettled
    refine ht.quiet hiterations hreceive.keeps.1 ?_ ?_ hfinished (.inr hsettled)
    · exact fun completion hc ↦ List.mem_append_left _ (hcompleted.symm ▸ hc)
    · rw [← hreceive.now_eq]
      exact le_max_left _ _
  | @finish received frontier world₁ hreceive hbusy hprepares hempty hpending =>
    obtain ⟨hcompleted, hiterations⟩ := hreceived hreceive
    refine ht.quiet hiterations hreceive.keeps.1 ?_ hreceive.now_eq.ge hfinished
      (.inl hreceive.now_eq.symm)
    exact fun completion hc ↦ List.mem_append_left _ (hcompleted.symm ▸ hc)
  | @batch received frontier world₁ session' world₂ hreceive hbusy hprepares hleft hiterates =>
    obtain ⟨hcompleted, hiterations⟩ := hreceived hreceive
    obtain ⟨-, -, hshape, -, -, -, -, hmetric⟩ := hiterates
    rename_i granted admitted shape latency world₃ breakdown applied world₄ metric
    obtain ⟨hid, hstart, hfinish⟩ := build_iteration_metrics_spans hmetric
    obtain ⟨-, -, hnow, hnumber, -⟩ := batch_shape_ok hshape
    have hle := engine.clock.le_add received.nowMs latency.durationMs latency.duration_nonneg
    refine ht.iteration (congrArg (· ++ [metric]) hiterations) ?_ ?_ ?_ hfinish ?_ ?_ hfinished
    · rw [hid, hnumber, hreceive.keeps.1]
    · exact congrArg (· + 1) hreceive.keeps.1
    · rw [hstart, hnow, hreceive.now_eq]
    · exact fun completion hc ↦ List.mem_append_left _
        (List.mem_append_left _ (hcompleted.symm ▸ hc))
    · rw [← hreceive.now_eq]
      exact hle

end InferTwin
