import InferTwin.Server.Timeline

namespace InferTwin

open Effect

variable {C K : Type} {engine : Engine C K} {requests : List SimulationRequest}

section Totals

variable (count : ScheduledSlice → ℕ)

/-- What the slices of some requests add up to. -/
def jobTotal (jobs : List Job) : ℕ := (jobs.map fun job ↦ (job.slices.map count).sum).sum

/-- What the slices that a trace reports add up to. -/
def traceTotal (trace : List TraceEvent) : ℕ :=
  ((iterationsOf trace).map fun record ↦ (record.shape.requestSlices.map count).sum).sum

@[simp] theorem jobTotal_nil : jobTotal count [] = 0 := rfl

@[simp] theorem jobTotal_cons (job : Job) (jobs : List Job) :
    jobTotal count (job :: jobs) = (job.slices.map count).sum + jobTotal count jobs := rfl

@[simp] theorem jobTotal_append (jobs jobs' : List Job) :
    jobTotal count (jobs ++ jobs') = jobTotal count jobs + jobTotal count jobs' := by
  simp [jobTotal]

theorem jobTotal_unserved {jobs : List Job} (h : ∀ job ∈ jobs, job.services = []) :
    jobTotal count jobs = 0 := by
  unfold jobTotal
  apply List.sum_eq_zero
  intro total ht
  obtain ⟨job, hj, rfl⟩ := List.mem_map.mp ht
  simp [Job.slices, h job hj]

theorem Job.served_slices (job : Job) (slice : ScheduledSlice) (durationMs : ℚ)
    (progress : SliceProgress) :
    (job.served slice durationMs progress).slices = job.slices ++ [slice] := by
  simp [Job.served, Job.slices]

/-- An iteration adds its slices to those its requests had before. -/
theorem Applies.total {facts : IterationFacts} {batch : List (Job × Option ScheduledSlice)}
    {queue : SharedLinkFIFOTransferQueue} {totals : IterationTotals} {world world' : World C K}
    {applied : Applied} (h : Applies engine facts batch queue totals world applied world') :
    jobTotal count (applied.completed.map Prod.fst) + jobTotal count applied.running =
      jobTotal count (batch.map Prod.fst) + ((batch.filterMap Prod.snd).map count).sum := by
  induction h with
  | nil => rfl
  | @idle job _ _ _ _ _ _ _ ih =>
    have hsit : (job.sitOut engine.timelineMode facts.durationMs).slices = job.slices := rfl
    simp only [jobTotal_cons, List.map_cons, List.filterMap_cons, hsit]
    omega
  | advance _ _ ih =>
    simp only [jobTotal_cons, List.map_cons, List.filterMap_cons, Job.served_slices,
      List.map_append, List.sum_append, List.sum_cons, List.map_nil, List.sum_nil]
    omega
  | complete _ _ ih =>
    simp only [jobTotal_cons, List.map_cons, List.filterMap_cons, Job.served_slices,
      List.map_append, List.sum_append, List.sum_cons, List.map_nil, List.sum_nil]
    omega

/-- All the slices that were run belong to the requests in service and those done. -/
def Session.Booked (trace : List TraceEvent) (session : Session) : Prop :=
  traceTotal count trace =
    jobTotal count (session.completed.map Prod.fst) + jobTotal count session.running

theorem traceTotal_congr {trace trace' : List TraceEvent}
    (h : iterationsOf trace' = iterationsOf trace) :
    traceTotal count trace' = traceTotal count trace := by
  unfold traceTotal
  rw [h]

theorem sliced_total {planned : List (Job × ℕ)} {built : List (Job × ScheduledSlice)}
    (h : List.Forall₂ Sliced planned built) :
    jobTotal count (built.map Prod.fst) = jobTotal count (planned.map Prod.fst) := by
  induction h with
  | nil => rfl
  | @cons plan item _ _ hs _ ih =>
    have hsame : item.1.slices = plan.1.slices := by
      rw [hs.job_eq]
      rfl
    simp only [List.map_cons, jobTotal_cons, hsame, ih]

variable {count}

/-- Whoever the scan of the line finishes or admits has not been served before. -/
theorem Prepares.unserved {session : Session} {frontier : Frontier} {world world' : World C K}
    (h : Prepares engine session world frontier world') :
    (∀ job ∈ frontier.completed.map Prod.fst, job.services = []) ∧
      ∀ job ∈ (frontier.entering session.nowMs).map Prod.fst, job.services = [] := by
  constructor
  · intro job hj
    obtain ⟨completion, hc, rfl⟩ := List.mem_map.mp hj
    obtain ⟨entry, -, job, _, _, hlook, -, -, hdone⟩ := h.from_line.completed completion hc
    rw [(Job.complete_ok hdone).1]
    exact hlook.services_eq
  · intro job hj
    simp only [Frontier.entering, List.map_map, List.mem_map] at hj
    obtain ⟨item, hi, rfl⟩ := hj
    obtain ⟨entry, -, _, _, hlook⟩ := h.from_line.admitted item hi
    exact hlook.services_eq

theorem Prepares.booked {instanceUuid : String} {session session' : Session} {frontier : Frontier}
    {world world₁ world' : World C K} (h : Prepares engine session world frontier world₁)
    (hw : session.Wf engine.config engine.timelineMode requests)
    (hb : session.Booked count world.trace)
    (hi : Iterates engine instanceUuid session frontier (engine.drained world₁) session' world') :
    session'.Booked count world'.trace := by
  have hprepared := h.prepared hw
  obtain ⟨hcompleted, hentering⟩ := h.unserved
  have hlooks := (h.looks_only.drained engine).iterations_eq
  obtain ⟨hg, hadm, hshape, -, hlatency, -, happlies, -⟩ := hi
  rename_i granted admitted shape latency world₂ breakdown applied world₃ metric
  obtain ⟨memo, -, hmemo⟩ := estimate_latency_ok hlatency
  have hworld := (happlies.outcomes (hprepared.batched hg hadm)).world_eq
  have happlied := happlies.total count
  have hslices := (batch_shape_ok hshape).2.1
  have hbatch : jobTotal count ((batchOf granted frontier.idle admitted).map Prod.fst) =
      jobTotal count session.running := by
    have hrunning := congrArg (jobTotal count) hprepared.running_eq
    have hadmitted := sliced_total count (hprepared.sliced_admitted hadm)
    rw [jobTotal_append, ← sliced_total count (hprepared.sliced_granted hg)] at hrunning
    rw [jobTotal_unserved count hentering] at hadmitted
    have hsplit : (batchOf granted frontier.idle admitted).map Prod.fst =
        granted.map Prod.fst ++ frontier.idle ++ admitted.map Prod.fst := by
      simp only [batchOf, List.map_append, List.map_map, Function.comp_def, List.map_id']
    rw [hsplit, jobTotal_append, jobTotal_append]
    omega
  rw [batch_slices, ← hslices, hbatch] at happlied
  have htrace : iterationsOf (world₃.trace ++ [.iteration {
      shape
      durationMs := latency.durationMs
      finishTimeMs := engine.clock.add session.nowMs latency.durationMs
      linkFreeMs := applied.transferQueue.nextAvailableTimeMs
      slices := applied.records }]) = iterationsOf world.trace ++ [{
      shape
      durationMs := latency.durationMs
      finishTimeMs := engine.clock.add session.nowMs latency.durationMs
      linkFreeMs := applied.transferQueue.nextAvailableTimeMs
      slices := applied.records }] := by
    rw [iterations_of_append, hworld, hmemo, ← hlooks]
    rfl
  have hzero := jobTotal_unserved count hcompleted
  have hbefore : ((iterationsOf world.trace).map fun record ↦
      (record.shape.requestSlices.map count).sum).sum =
        jobTotal count (session.completed.map Prod.fst) + jobTotal count session.running := hb
  show ((iterationsOf (world₃.trace ++ [_])).map _).sum =
    jobTotal count ((session.completed ++ frontier.completed ++ applied.completed).map Prod.fst) +
      jobTotal count applied.running
  rw [htrace]
  simp only [List.map_append, List.sum_append, List.map_cons, List.sum_cons, List.map_nil,
    List.sum_nil, jobTotal_append]
  omega

theorem Receives.booked {session received : Session} {trace : List TraceEvent}
    (h : Receives engine session received) (hb : session.Booked count trace) :
    received.Booked count trace := by
  obtain ⟨⟨_, _, -, he, -⟩, -⟩ := h
  rw [he]
  exact hb

theorem Prepares.emptied_booked {session : Session} {frontier : Frontier}
    {world world' : World C K} (h : Prepares engine session world frontier world')
    (hb : session.Booked count world.trace) (hempty : frontier.Empty)
    (hw : session.Wf engine.config engine.timelineMode requests) (nowMs : ℚ) :
    (session.emptied frontier nowMs).Booked count (engine.drained world').trace := by
  have hrunning : session.running = [] := by
    rw [← (h.prepared hw).running_eq, hempty.2.2.1, hempty.2.2.2]
    rfl
  have hzero := jobTotal_unserved count h.unserved.1
  have hsame := traceTotal_congr count (h.looks_only.drained engine).iterations_eq
  unfold Session.Booked at hb ⊢
  rw [hsame, hb, hrunning]
  simp only [Session.emptied, List.map_append, jobTotal_append]
  omega

theorem Passes.booked {instanceUuid : String} {session : Session} {flow : Flow Session}
    {world world' : World C K} (h : Passes engine instanceUuid session world flow world')
    (hw : session.Wf engine.config engine.timelineMode requests)
    (hb : session.Booked count world.trace) : flow.state.Booked count world'.trace := by
  cases h with
  | jump hreceive => exact hreceive.booked hb
  | idle hreceive => exact hreceive.booked hb
  | skip hreceive _ hprepares hempty =>
    exact hprepares.emptied_booked (hreceive.booked hb) hempty (hreceive.wf hw) _
  | finish hreceive _ hprepares hempty =>
    exact hprepares.emptied_booked (hreceive.booked hb) hempty (hreceive.wf hw) _
  | batch hreceive _ hprepares _ hiterates =>
    exact hprepares.booked (hreceive.wf hw) (hreceive.booked hb) hiterates

end Totals

end InferTwin
