import InferTwin.Server.Failure
import InferTwin.Server.History

namespace InferTwin

open Effect

variable {C K : Type} {engine : Engine C K} {requests : List SimulationRequest}

/-- What an iteration adds to the trace, and where it takes the clock and the link. -/
structure Recorded (engine : Engine C K) (session : Session) (world : World C K)
    (session' : Session) (world' : World C K) (record : IterationRecord) : Prop where
  iterations_eq : iterationsOf world'.trace = iterationsOf world.trace ++ [record]
  id_eq : record.shape.iterationId = session.iterationId
  start_eq : record.shape.startTimeMs = session.nowMs
  finish_eq : record.finishTimeMs = engine.clock.add session.nowMs record.durationMs
  duration_nonneg : 0 ≤ record.durationMs
  link_eq : record.linkFreeMs = session'.transferQueue.nextAvailableTimeMs
  now_eq : session'.nowMs = record.finishTimeMs
  lost_eq : session'.lostMs =
    session.lostMs + (session.nowMs + record.durationMs - record.finishTimeMs)
  next_id : session'.iterationId = session.iterationId + 1

theorem Recorded.forward {session session' : Session} {world world' : World C K}
    {record : IterationRecord} (h : Recorded engine session world session' world' record) :
    session.nowMs ≤ record.finishTimeMs := by
  rw [h.finish_eq]
  exact engine.clock.le_add _ _ h.duration_nonneg

theorem estimate_latency_ok {shape : BatchShape} {latency : LatencyResult}
    {world world' : World C K} (h : engine.estimateLatency shape world = .ok latency world') :
    ∃ memo, ShapeMemo.getOrCompute (engine.latencyBackend.shapeKey shape)
        (engine.latencyBackend.estimateIteration shape) world.memo = .ok latency memo ∧
      world' = { world with memo } := by
  unfold Engine.estimateLatency onMemo at h
  exact zoom_ok.mp h

theorem Iterates.recorded {instanceUuid : String} {session session' : Session} {frontier : Frontier}
    {world world' : World C K} (h : frontier.Prepared engine session)
    (hi : Iterates engine instanceUuid session frontier world session' world') :
    ∃ record, Recorded engine session world session' world' record := by
  obtain ⟨hg, hadm, hshape, -, hlatency, -, happlies, -⟩ := hi
  rename_i granted admitted shape latency world₁ breakdown applied world₂ metric
  obtain ⟨-, -, hstart, hid, -⟩ := batch_shape_ok hshape
  obtain ⟨memo, -, hmemo⟩ := estimate_latency_ok hlatency
  have hworld := (happlies.outcomes (h.batched hg hadm)).world_eq
  refine ⟨{
    shape
    durationMs := latency.durationMs
    finishTimeMs := engine.clock.add session.nowMs latency.durationMs
    linkFreeMs := applied.transferQueue.nextAvailableTimeMs
    slices := applied.records },
    ?_, hid, hstart, rfl, latency.duration_nonneg, rfl, rfl, rfl, rfl⟩
  show iterationsOf (world₂.trace ++ [_]) = _
  rw [iterations_of_append, hworld, hmemo]
  rfl

/-- What a pass does to the clock, the link and the trace. -/
inductive Moves (engine : Engine C K) (session : Session) (world : World C K)
    (session' : Session) (world' : World C K) : Prop
  | quiet (hiterations : iterationsOf world'.trace = iterationsOf world.trace)
      (hmemo : world'.memo = world.memo) (hid : session'.iterationId = session.iterationId)
      (hqueue : session'.transferQueue = session.transferQueue)
      (hlost : session'.lostMs = session.lostMs) (hnow : session.nowMs ≤ session'.nowMs)
  | iteration {record} (hrecorded : Recorded engine session world session' world' record)

theorem Receives.keeps {session received : Session} (h : Receives engine session received) :
    received.iterationId = session.iterationId ∧
      received.transferQueue = session.transferQueue ∧ received.lostMs = session.lostMs := by
  obtain ⟨⟨_, _, _, he, _⟩, _⟩ := h
  rw [he]
  exact ⟨rfl, rfl, rfl⟩

theorem Passes.moves {instanceUuid : String} {session : Session} {flow : Flow Session}
    {world world' : World C K} (h : Passes engine instanceUuid session world flow world')
    (hw : session.Wf engine.config engine.timelineMode requests) :
    Moves engine session world flow.state world' := by
  cases h with
  | jump hreceive hidle hpending =>
    obtain ⟨hid, hqueue, hlost⟩ := hreceive.keeps
    have hlater := hreceive.later _ (by rw [hpending]; rfl)
    exact .quiet rfl rfl hid hqueue hlost hlater.le
  | idle hreceive hidle hpending =>
    obtain ⟨hid, hqueue, hlost⟩ := hreceive.keeps
    exact .quiet rfl rfl hid hqueue hlost hreceive.now_eq.ge
  | skip hreceive hbusy hprepares hempty hpending =>
    obtain ⟨hid, hqueue, hlost⟩ := hreceive.keeps
    have hlooks := hprepares.looks_only.drained engine
    refine .quiet hlooks.iterations_eq hlooks.memo_eq hid hqueue hlost ?_
    rw [← hreceive.now_eq]
    exact le_max_left _ _
  | finish hreceive hbusy hprepares hempty hpending =>
    obtain ⟨hid, hqueue, hlost⟩ := hreceive.keeps
    have hlooks := hprepares.looks_only.drained engine
    exact .quiet hlooks.iterations_eq hlooks.memo_eq hid hqueue hlost hreceive.now_eq.ge
  | batch hreceive hbusy hprepares hleft hiterates =>
    obtain ⟨hid, hqueue, hlost⟩ := hreceive.keeps
    have hlooks := hprepares.looks_only.drained engine
    obtain ⟨record, hrecorded⟩ := hiterates.recorded (hprepares.prepared (hreceive.wf hw))
    refine @Moves.iteration _ _ _ _ _ _ _ record { hrecorded with
      iterations_eq := ?_, id_eq := ?_, start_eq := ?_, finish_eq := ?_, lost_eq := ?_
      next_id := ?_ }
    · rw [hrecorded.iterations_eq, hlooks.iterations_eq]
    · rw [hrecorded.id_eq, hid]
    · rw [hrecorded.start_eq, hreceive.now_eq]
    · rw [hrecorded.finish_eq, hreceive.now_eq]
    · exact hrecorded.lost_eq.trans (by rw [hlost, hreceive.now_eq])
    · exact hrecorded.next_id.trans (by rw [hid])

/-- Whoever a pass finishes is finished at a time of the pass, when the clock had lost what
it had lost before the pass or what it has lost after it. -/
theorem Passes.finishes {instanceUuid : String} {session : Session} {flow : Flow Session}
    {world world' : World C K} (h : Passes engine instanceUuid session world flow world')
    (hw : session.Wf engine.config engine.timelineMode requests) :
    ∀ completion ∈ flow.state.completed, completion ∈ session.completed ∨
      ∃ finishMs lostMs,
        completion.1.Finished engine.timelineMode finishMs lostMs completion.2 ∧
        (lostMs = session.lostMs ∨ lostMs = flow.state.lostMs) ∧
        session.nowMs ≤ finishMs ∧ finishMs ≤ flow.state.nowMs := by
  have hkept : ∀ {received : Session}, Receives engine session received →
      received.completed = session.completed := by
    intro received hreceive
    obtain ⟨⟨_, _, _, he, _⟩, _⟩ := hreceive
    rw [he]
  have hemptied : ∀ {received : Session} {frontier : Frontier} {world' : World C K} (nowMs : ℚ),
      Receives engine session received → Prepares engine received world frontier world' →
      received.nowMs ≤ nowMs →
      ∀ completion ∈ (received.emptied frontier nowMs).completed, completion ∈ session.completed ∨
        ∃ finishMs lostMs,
          completion.1.Finished engine.timelineMode finishMs lostMs completion.2 ∧
          (lostMs = session.lostMs ∨ lostMs = (received.emptied frontier nowMs).lostMs) ∧
          session.nowMs ≤ finishMs ∧ finishMs ≤ (received.emptied frontier nowMs).nowMs := by
    intro received frontier world' nowMs hreceive hprepares hle completion hc
    rcases List.mem_append.mp hc with hc | hc
    · exact .inl (hkept hreceive ▸ hc)
    · have hfinished := (hprepares.prepared (hreceive.wf hw)).completed completion hc
      exact .inr ⟨_, _, hfinished, .inr rfl, hreceive.now_eq.ge, hle⟩
  cases h with
  | jump hreceive => exact fun completion hc ↦ .inl (hkept hreceive ▸ hc)
  | idle hreceive => exact fun completion hc ↦ .inl (hkept hreceive ▸ hc)
  | skip hreceive _ hprepares => exact hemptied _ hreceive hprepares (le_max_left _ _)
  | finish hreceive _ hprepares => exact hemptied _ hreceive hprepares le_rfl
  | @batch received frontier _ _ _ hreceive _ hprepares _ hiterates =>
    obtain ⟨-, -, hlost⟩ := hreceive.keeps
    have hprepared := hprepares.prepared (hreceive.wf hw)
    obtain ⟨hg, hadm, hshape, -, hlatency, -, happlies, -⟩ := hiterates
    rename_i granted admitted shape latency world₁ breakdown applied world₂ metric
    have hle := engine.clock.le_add received.nowMs latency.durationMs latency.duration_nonneg
    obtain ⟨-, hdone, -⟩ := happlies.stages hle (hprepared.batched hg hadm)
    intro completion hc
    rcases List.mem_append.mp hc with hc | hc
    · rcases List.mem_append.mp hc with hc | hc
      · exact .inl (hkept hreceive ▸ hc)
      · exact .inr ⟨_, _, hprepared.completed completion hc, .inl hlost, hreceive.now_eq.ge, hle⟩
    · exact .inr ⟨_, _, hdone completion hc, .inr rfl, hreceive.now_eq ▸ hle, le_rfl⟩

section Quiet

variable {records : List IterationRecord}

/-- The trace reports just these iterations. -/
def Reporting (records : List IterationRecord) (world : World C K) : Prop :=
  iterationsOf world.trace = records

/-- `P` holds of the trace. -/
def OnTrace (P : List TraceEvent → Prop) (world : World C K) : Prop := P world.trace

theorem record_quiet {event : TraceEvent} (h : event.iteration? = none) :
    Keeps (Reporting records) (record event : Replay C K Unit) := by
  intro world hw
  show iterationsOf (world.trace ++ [event]) = records
  rw [iterations_of_append, show iterationsOf world.trace = records from hw]
  simp [iterationsOf, h]

theorem look_quiet (engine : Engine C K) (nowMs : ℚ) (entry : Entry) :
    Keeps (Reporting records) (engine.look nowMs entry) := by
  unfold Engine.look
  split
  · exact .pure _
  · unfold Engine.lookupRequest
    refine .bind ?_ fun _ ↦ .pure _
    refine .bind (.zoom _ fun _ _ hw ↦ hw) fun raw ↦ .bind (record_quiet rfl) fun _ ↦ ?_
    exact .bind (.check _) fun lookup ↦ .bind (record_quiet rfl) fun _ ↦
      .bind (.check _) fun _ ↦ .pure _

theorem scan_quiet (engine : Engine C K) (nowMs : ℚ) (tokenBudget seats : ℕ)
    (entries : List Entry) :
    Keeps (Reporting records) (engine.scan nowMs tokenBudget seats entries) := by
  induction entries generalizing tokenBudget seats with
  | nil => exact .pure _
  | cons entry entries ih =>
    unfold Engine.scan
    split_ifs
    · exact .pure _
    refine .bind (look_quiet engine nowMs entry) fun job ↦ ?_
    dsimp only
    split_ifs
    · exact .bind (ih _ _) fun _ ↦ .pure _
    · exact .bind (.check _) fun _ ↦ .bind (ih _ _) fun _ ↦ .pure _
    · exact .pure _
    · exact .bind (ih _ _) fun _ ↦ .pure _

/-- Serving a slice adds nothing to the trace. -/
theorem apply_slice_quiet (P : List TraceEvent → Prop) (engine : Engine C K) (startMs finishMs : ℚ)
    (slice : ScheduledSlice) (contribution : IterationLatencyBreakdown) (state : RequestState)
    (lookup : LookupMetrics) (request : Except ReplayError SimulationRequest)
    (queue : SharedLinkFIFOTransferQueue) (totals : IterationTotals) :
    Keeps (OnTrace P) (engine.applySlice startMs finishMs slice contribution state lookup
      request queue totals) := by
  have hcall : ∀ x : EStateM MaterializationError C (List PrefixBlock),
      Keeps (OnTrace P) (onMaterialization x : Replay C K (List PrefixBlock)) :=
    fun x ↦ .zoom _ fun _ _ hw ↦ hw
  unfold Engine.applySlice
  refine .bind (.check _) fun charged ↦ .bind ?_ fun advanced ↦ ?_
  · unfold Engine.advanceSlice
    split_ifs
    · exact .bind (.check _) fun _ ↦ .pure _
    · refine .bind (.check _) fun _ ↦ ?_
      cases hmode : engine.timelineMode
      · simp only [Engine.materializeScheduledChunk, hmode]
        exact .pure _
      · simp only [Engine.materializeScheduledChunk, hmode]
        exact .bind (hcall _) fun _ ↦ .pure _
  · unfold Engine.completeSlice
    split_ifs
    · exact .bind (.pure _) fun _ ↦ .bind (.check _) fun _ ↦ .bind (.check _) fun _ ↦ .pure _
    · refine .bind ?_ fun _ ↦ .bind (.check _) fun _ ↦ .bind (.check _) fun _ ↦ .pure _
      cases hmode : engine.timelineMode
      all_goals
        simp only [Engine.materializeFinishedRequest, hmode]
        exact .bind (hcall _) fun _ ↦ .pure _
    · cases hmode : engine.timelineMode <;> exact .pure _

theorem apply_batch_quiet (P : List TraceEvent → Prop) (engine : Engine C K)
    (facts : IterationFacts) (batch : List (Job × Option ScheduledSlice))
    (queue : SharedLinkFIFOTransferQueue) (totals : IterationTotals) :
    Keeps (OnTrace P) (engine.applyBatch facts batch queue totals) := by
  induction batch generalizing queue totals with
  | nil => exact .pure _
  | cons item batch ih =>
    obtain ⟨job, slice⟩ := item
    cases slice with
    | none => exact .bind (ih _ _) fun _ ↦ .pure _
    | some slice =>
      refine .bind (apply_slice_quiet P engine _ _ _ _ _ _ _ _ _) fun served ↦
        .bind (ih _ _) fun applied ↦ ?_
      split <;> exact .pure _

theorem frontier_quiet (engine : Engine C K) (session : Session) :
    Keeps (Reporting records) (engine.frontier session) := by
  unfold Engine.frontier
  dsimp only
  split_ifs
  · exact .pure _
  · exact .bind (scan_quiet engine _ _ _ _) fun _ ↦ .pure _

/-- An iteration is reported once nothing can fail any more. -/
theorem iterate_spares (P : List TraceEvent → Prop) (engine : Engine C K) (instanceUuid : String)
    (session : Session) (frontier : Frontier) :
    Spares (OnTrace P) (engine.iterate instanceUuid session frontier) := by
  unfold Engine.iterate
  refine .bind (.check _) fun granted ↦ .bind (.check _) fun admitted ↦ .bind (.check _) fun shape ↦ ?_
  split_ifs
  · exact .throw_bind _ _
  refine .bind (.zoom _ fun _ _ hw ↦ hw) fun latency ↦ .bind (.check _) fun breakdown ↦ ?_
  refine .bind (apply_batch_quiet P engine _ _ _ _) fun applied ↦ .bind (.check _) fun metric ↦ ?_
  intro world e world' _ h
  rcases bind_error.mp h with h | ⟨_, _, -, h⟩
  · cases h
  · rcases bind_error.mp h with h | ⟨_, _, -, h⟩ <;> cases h

/-- A pass that fails has reported no iteration. -/
theorem pass_spares (engine : Engine C K) (instanceUuid : String) (session : Session) :
    Spares (Reporting records) (engine.pass instanceUuid session) := by
  unfold Engine.pass
  refine .bind (.check _) fun received ↦ ?_
  split_ifs
  · split <;> exact .pure _
  refine .bind (frontier_quiet engine received) fun frontier ↦ .bind (fun _ hw ↦ hw) fun _ ↦ ?_
  split_ifs
  · split <;> exact .pure _
  · exact .then_pure (iterate_spares (iterationsOf · = records) engine instanceUuid received frontier)

end Quiet

/-- The iterations are numbered in their order, and each starts once the one before it is
over. -/
structure Timeline (engine : Engine C K) (records : List IterationRecord) (iterationId : ℕ)
    (nowMs : ℚ) : Prop where
  ids_eq : records.map (·.shape.iterationId) = List.range iterationId
  finish_eq : ∀ record ∈ records,
    record.finishTimeMs = engine.clock.add record.shape.startTimeMs record.durationMs
  forward : ∀ record ∈ records, record.shape.startTimeMs ≤ record.finishTimeMs
  past : ∀ record ∈ records, record.finishTimeMs ≤ nowMs
  ordered : records.Pairwise fun record next ↦ record.finishTimeMs ≤ next.shape.startTimeMs

theorem Moves.timeline {session session' : Session} {world world' : World C K}
    (h : Moves engine session world session' world')
    (ht : Timeline engine (iterationsOf world.trace) session.iterationId session.nowMs) :
    Timeline engine (iterationsOf world'.trace) session'.iterationId session'.nowMs := by
  cases h with
  | quiet hiterations _ hid _ _ hnow =>
    rw [hiterations, hid]
    exact { ht with past := fun record hr ↦ (ht.past record hr).trans hnow }
  | @iteration record hrecorded =>
    have hforward := hrecorded.forward
    rw [hrecorded.iterations_eq, hrecorded.next_id, hrecorded.now_eq]
    constructor
    · rw [List.map_append, ht.ids_eq, List.map_singleton, hrecorded.id_eq, List.range_succ]
    · refine List.forall_mem_append.mpr ⟨ht.finish_eq, List.forall_mem_singleton.mpr ?_⟩
      rw [hrecorded.finish_eq, hrecorded.start_eq]
    · refine List.forall_mem_append.mpr ⟨ht.forward, List.forall_mem_singleton.mpr ?_⟩
      rw [hrecorded.start_eq]
      exact hforward
    · refine List.forall_mem_append.mpr ⟨?_, List.forall_mem_singleton.mpr le_rfl⟩
      exact fun other ho ↦ (ht.past other ho).trans hforward
    · refine List.pairwise_append.mpr ⟨ht.ordered, List.pairwise_singleton _ _, ?_⟩
      intro other ho next hn
      rw [List.mem_singleton.mp hn, hrecorded.start_eq]
      exact ht.past other ho

theorem Timeline.start (engine : Engine C K) (nowMs : ℚ) : Timeline engine [] 0 nowMs :=
  ⟨rfl, by simp, by simp, by simp, .nil⟩

end InferTwin
