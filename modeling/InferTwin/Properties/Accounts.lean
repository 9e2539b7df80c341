import InferTwin.Refinement.Iteration
import InferTwin.Server.Failure
import InferTwin.Server.History

namespace InferTwin

open Effect

variable {C K : Type} {engine : Engine C K} {requests : List SimulationRequest}

theorem filter_key_eq {α κ : Type} [DecidableEq κ] {key : α → κ} {items : List α} {item : α}
    (hd : (items.map key).Nodup) (hi : item ∈ items) :
    items.filter (fun other ↦ key other = key item) = [item] := by
  induction items with
  | nil => cases hi
  | cons first items ih =>
    obtain ⟨hfirst, hrest⟩ := List.nodup_cons.mp hd
    rcases List.mem_cons.mp hi with rfl | hi
    · rw [List.filter_cons_of_pos (by simp), List.filter_eq_nil_iff.mpr]
      intro other ho he
      exact hfirst (List.mem_map.mpr ⟨other, ho, by simpa using he⟩)
    · have hne : key first ≠ key item := by
        intro he
        exact hfirst (he ▸ List.mem_map_of_mem hi)
      rw [List.filter_cons_of_neg (by simpa using hne), ih hrest hi]

/-- One record for each slice, and at most one slice for each request. -/
structure IterationRecord.Wf (record : IterationRecord) : Prop where
  ids : (record.shape.requestSlices.map ScheduledSlice.requestId).Nodup
  length_eq : record.shape.requestSlices.length = record.slices.length

namespace IterationRecord

variable {record : IterationRecord} {requestId : String}

theorem services_of_absent
    (h : requestId ∉ record.shape.requestSlices.map ScheduledSlice.requestId) :
    record.servicesOf requestId = [] := by
  unfold servicesOf
  rw [List.map_eq_nil_iff, List.filter_eq_nil_iff]
  intro served hs he
  have hmem := (List.of_mem_zip (a := served.1) (b := served.2) hs).1
  exact h (List.mem_map.mpr ⟨served.1, hmem, by simpa using he⟩)

theorem services_of_served (hw : record.Wf) {slice : ScheduledSlice} {sliceRecord : SliceRecord}
    (hs : (slice, sliceRecord) ∈ record.served) :
    record.servicesOf slice.requestId =
      [{ slice, durationMs := record.durationMs, record := sliceRecord }] := by
  have hkeys : (record.served.map fun served ↦ served.1.requestId).Nodup := by
    have hfst : record.served.map (fun served ↦ served.1.requestId) =
        (record.served.map Prod.fst).map ScheduledSlice.requestId := by
      rw [List.map_map]
      rfl
    rw [hfst, served, List.map_fst_zip hw.length_eq.le]
    exact hw.ids
  unfold servicesOf
  rw [filter_key_eq hkeys hs]
  rfl

/-- The metric of an iteration is built from what the trace reports of it. -/
def Reports (timelineMode : TimelineMode) (record : IterationRecord) (metric : IterationMetrics) :
    Prop :=
  ∃ latency computeWait totals, latency.durationMs = record.durationMs ∧
    buildIterationMetrics record.shape latency record.finishTimeMs timelineMode computeWait totals =
      .ok metric

end IterationRecord

/-- What the trace reports is what the requests were given. -/
structure Session.Accounts (timelineMode : TimelineMode) (trace : List TraceEvent)
    (session : Session) : Prop where
  pending : ∀ request ∈ session.pending, servicesOf request.requestId trace = []
  waiting : ∀ entry ∈ session.waiting, servicesOf entry.id trace = []
  running : ∀ job ∈ session.running, servicesOf job.id trace = job.services
  completed : ∀ completion ∈ session.completed,
    servicesOf completion.1.id trace = completion.1.services
  records : ∀ record ∈ iterationsOf trace, record.Wf
  metrics : List.Forall₂ (IterationRecord.Reports timelineMode) (iterationsOf trace)
    session.iterationMetrics

theorem Session.start_accounts (timelineMode : TimelineMode)
    (transferQueue : SharedLinkFIFOTransferQueue) (request : SimulationRequest)
    (pending : List SimulationRequest) {trace : List TraceEvent} (h : iterationsOf trace = []) :
    (Session.start transferQueue request pending).Accounts timelineMode trace where
  pending _ _ := services_of_none h
  waiting := by simp [Session.start]
  running := by simp [Session.start]
  completed := by simp [Session.start]
  records := by simp [h]
  metrics := by
    rw [h]
    exact .nil

theorem Receives.accounts {session received : Session} {timelineMode : TimelineMode}
    {trace : List TraceEvent} (h : Receives engine session received)
    (ha : session.Accounts timelineMode trace) : received.Accounts timelineMode trace := by
  obtain ⟨⟨entries, taken, hp, he, ht, hall, -⟩, -⟩ := h
  have hnew : ∀ entry ∈ entries, servicesOf entry.id trace = [] := by
    intro entry hentry
    have hticket : entry.ticket ∈ taken.zipIdx session.arrivals :=
      ht ▸ List.mem_map_of_mem hentry
    have hrequest : entry.request ∈ session.pending :=
      hp ▸ List.mem_append_left _ (List.fst_mem_of_mem_zipIdx hticket)
    have hid : entry.id = entry.request.requestId := (hall entry hentry).1.tracks.id_eq
    rw [hid]
    exact ha.pending _ hrequest
  rw [he]
  refine ⟨?_, ?_, ha.running, ha.completed, ha.records, ha.metrics⟩
  · exact fun request hr ↦ ha.pending request (hp ▸ List.mem_append_right _ hr)
  · intro entry hentry
    rcases List.mem_append.mp hentry with hentry | hentry
    · exact ha.waiting entry hentry
    · exact hnew entry hentry

theorem Session.Accounts.of_services {session : Session} {timelineMode : TimelineMode}
    {trace trace' : List TraceEvent} (ha : session.Accounts timelineMode trace)
    (hs : ∀ requestId, servicesOf requestId trace' = servicesOf requestId trace)
    (hi : iterationsOf trace' = iterationsOf trace) : session.Accounts timelineMode trace' where
  pending request hr := (hs _).trans (ha.pending request hr)
  waiting entry he := (hs _).trans (ha.waiting entry he)
  running job hj := (hs _).trans (ha.running job hj)
  completed completion hc := (hs _).trans (ha.completed completion hc)
  records := hi ▸ ha.records
  metrics := hi ▸ ha.metrics

section Scanned

variable {nowMs : ℚ} {entries : List Entry} {scan : Scan} {trace : List TraceEvent}

theorem Job.complete_services {job : Job} {completion : Completion}
    (h : job.complete nowMs = .ok completion) :
    completion.1.services = job.services ∧ completion.1.id = job.id := by
  rw [(Job.complete_ok h).1]
  exact ⟨rfl, rfl⟩

theorem Scanned.completed_services (h : Scanned engine nowMs entries scan)
    (hw : ∀ entry ∈ entries, servicesOf entry.id trace = []) :
    ∀ completion ∈ scan.completed,
      servicesOf completion.1.id trace = completion.1.services := by
  intro completion hc
  obtain ⟨entry, he, job, _, _, hlook, -, -, hdone⟩ := h.completed completion hc
  obtain ⟨hservices, hid⟩ := Job.complete_services hdone
  rw [hservices, hid, hlook.id_eq, hlook.services_eq]
  exact hw entry he

theorem Scanned.waiting_services (h : Scanned engine nowMs entries scan)
    (hw : ∀ entry ∈ entries, servicesOf entry.id trace = []) :
    ∀ entry ∈ scan.waiting, servicesOf entry.id trace = [] := by
  intro kept hk
  rcases h.waiting kept hk with hk | ⟨entry, he, job, _, _, hlook, -, rfl⟩
  · exact hw kept hk
  · rw [Job.entry_id, hlook.id_eq]
    exact hw entry he

end Scanned

namespace Frontier.Prepared

variable {session : Session} {frontier : Frontier} {granted admitted : List (Job × ScheduledSlice)}

/-- The requests of a batch bring along what they were given before. -/
theorem batch_services {world world' : World C K} {trace : List TraceEvent}
    (h : frontier.Prepared engine session) (hp : Prepares engine session world frontier world')
    (ha : session.Accounts engine.timelineMode trace)
    (hg : sliceAll frontier.granted = .ok granted)
    (hadm : sliceAll (frontier.entering session.nowMs) = .ok admitted) :
    ∀ item ∈ batchOf granted frontier.idle admitted,
      servicesOf item.1.id trace = item.1.services := by
  have hid : ∀ job : Job, job.handOver.id = job.id := fun job ↦
    RequestState.consumed_request_id job.state
  refine h.batch_forall (Q := fun job ↦ servicesOf job.id trace = job.services) hg hadm ha.running
    ?_ (fun job hj ↦ (hid job).symm ▸ hj) fun _ hj ↦ hj
  intro item hi
  obtain ⟨entry, hentry, _, _, hlook⟩ := hp.from_line.admitted item hi
  rw [hlook.id_eq, hlook.services_eq]
  exact ha.waiting entry hentry

/-- The requests that get a slice are none of the others. -/
theorem scheduled_apart (h : frontier.Prepared engine session)
    (hw : session.Wf engine.config engine.timelineMode requests)
    (hg : sliceAll frontier.granted = .ok granted)
    (hadm : sliceAll (frontier.entering session.nowMs) = .ok admitted) :
    (scheduledIds granted admitted).Nodup ∧
      (∀ entry ∈ frontier.waiting, entry.id ∉ scheduledIds granted admitted) ∧
      (∀ job ∈ frontier.idle, job.id ∉ scheduledIds granted admitted) ∧
      (∀ completion ∈ session.completed ++ frontier.completed,
        completion.1.id ∉ scheduledIds granted admitted) ∧
      ∀ request ∈ session.pending, request.requestId ∉ scheduledIds granted admitted := by
  have hd := h.batch_distinct hw hg hadm
  have hids := h.sliced_ids hg hadm
  obtain ⟨hwaiting, hidle, -⟩ := sitting_out_count hids hd
  have hnodup : (scheduledIds granted admitted).Nodup := by
    rw [scheduled_ids_eq hids]
    have hall := hd.ids
    rw [List.map_append] at hall
    refine hall.of_append_right.sublist ?_
    simp only [batchOf, List.map_append, List.map_map, Function.comp_def, Job.entry_id]
    exact (List.sublist_append_left _ _).append (List.Sublist.refl _)
  -- whoever gets a slice is on the frontier, and so neither finished nor still to come
  have hactive : ∀ id ∈ scheduledIds granted admitted,
      ∃ entry ∈ frontier.active session, entry.request.requestId = id := by
    intro id hid
    rw [scheduled_ids_eq hids] at hid
    obtain ⟨built, hb, rfl⟩ := List.mem_map.mp hid
    have hitem : (built.1, some built.2) ∈ batchOf granted frontier.idle admitted := by
      simp only [batchOf, List.mem_append, List.mem_map]
      rcases List.mem_append.mp hb with hb | hb
      · exact .inl (.inl ⟨built, hb, rfl⟩)
      · exact .inr ⟨built, hb, rfl⟩
    have hticket := List.mem_map_of_mem (f := fun item ↦ item.1.ticket) hitem
    rw [h.batch_tickets hg hadm] at hticket
    have hmem : built.1.ticket ∈ (frontier.active session).map Entry.ticket := by
      simp only [Frontier.active, List.map_append, List.map_map, Function.comp_def,
        Job.entry_ticket]
      rw [← List.append_assoc]
      exact List.mem_append_left _ hticket
    obtain ⟨entry, he, heq⟩ := List.mem_map.mp hmem
    refine ⟨entry, he, ?_⟩
    have hrequest : entry.request = built.1.request := congrArg Prod.fst heq
    have hid' := (h.batched hg hadm _ hitem).id_eq
    rw [hrequest]
    exact hid'.symm
  obtain ⟨arrived, hreq, -, hroster⟩ := hw.roster
  have hperm : (tickets (session.completed ++ frontier.completed) ++
      (frontier.active session).map Entry.ticket).Perm arrived.zipIdx := by
    rw [tickets_append, List.append_assoc]
    exact (h.active_perm.append_left _).trans hroster
  have hdistinct := hw.distinct
  rw [hreq, List.map_append] at hdistinct
  have harrived : ∀ entry ∈ frontier.active session, entry.request ∈ arrived := by
    intro entry he
    have hmem := hperm.mem_iff.mp (List.mem_append_right _ (List.mem_map_of_mem he))
    exact List.fst_mem_of_mem_zipIdx hmem
  refine ⟨hnodup, hwaiting, hidle, ?_, ?_⟩
  · intro completion hc hid
    obtain ⟨entry, he, hsame⟩ := hactive _ hid
    have hids : (arrived.zipIdx.map fun ticket ↦ ticket.1.requestId).Nodup := by
      have hfst : arrived.zipIdx.map (fun ticket ↦ ticket.1.requestId) =
          (arrived.zipIdx.map Prod.fst).map SimulationRequest.requestId := by
        rw [List.map_map]
        rfl
      rw [hfst, List.zipIdx_map_fst]
      exact hdistinct.of_append_left
    have hall := (hperm.map fun ticket ↦ ticket.1.requestId).nodup_iff.mpr hids
    rw [List.map_append] at hall
    have hnamed : completion.1.id = completion.1.request.requestId := by
      rcases List.mem_append.mp hc with hc | hc
      · obtain ⟨_, _, hf⟩ := hw.completed completion hc
        exact hf.ledger.tracks.id_eq
      · exact (h.completed completion hc).ledger.tracks.id_eq
    refine hall.disjoint (List.mem_map_of_mem (List.mem_map_of_mem hc))
      (List.mem_map.mpr ⟨entry.ticket, List.mem_map_of_mem he, ?_⟩)
    exact hsame.trans hnamed
  · intro request hr hid
    obtain ⟨entry, he, hsame⟩ := hactive _ hid
    refine hdistinct.disjoint ?_ (List.mem_map_of_mem hr)
    rw [← hsame]
    exact List.mem_map_of_mem (harrived entry he)

end Frontier.Prepared

/-- The trace after an iteration, and the metric that reports it. -/
theorem Iterates.accounts {instanceUuid : String} {session session' : Session}
    {frontier : Frontier} {world₀ world₁ world world' : World C K}
    (h : frontier.Prepared engine session) (hp : Prepares engine session world₀ frontier world₁)
    (hw : session.Wf engine.config engine.timelineMode requests)
    (ha : session.Accounts engine.timelineMode world.trace)
    (hi : Iterates engine instanceUuid session frontier world session' world') :
    session'.Accounts engine.timelineMode world'.trace := by
  obtain ⟨hg, hadm, hshape, -, hlatency, -, happlies, hmetric⟩ := hi
  rename_i granted admitted shape latency world₂ breakdown applied world₃ metric
  obtain ⟨hnodup, hwaiting, hidle, hdone, hpending⟩ := h.scheduled_apart hw hg hadm
  obtain ⟨hrecords, hrun, hcompleted, hworld⟩ := happlies.outcomes (h.batched hg hadm)
  have hslices := (batch_shape_ok hshape).2.1
  have htrace : world₂.trace = world.trace := by
    unfold Engine.estimateLatency onMemo at hlatency
    obtain ⟨memo, -, rfl⟩ := zoom_ok.mp hlatency
    rfl
  have htrace' : world₃.trace = world.trace := by rw [hworld, ← htrace]
  rw [batch_slices, ← hslices] at hrecords hrun hcompleted
  obtain ⟨record, hrecord⟩ : ∃ record : IterationRecord, record = {
    shape
    durationMs := latency.durationMs
    finishTimeMs := engine.clock.add session.nowMs latency.durationMs
    linkFreeMs := applied.transferQueue.nextAvailableTimeMs
    slices := applied.records } := ⟨_, rfl⟩
  have hids : record.shape.requestSlices.map ScheduledSlice.requestId =
      scheduledIds granted admitted := by rw [hrecord, hslices, scheduledIds]
  have hzip : shape.requestSlices.zip applied.records = record.served := by
    rw [hrecord, IterationRecord.served]
  have hrecord_wf : record.Wf := by
    refine ⟨by rw [hids]; exact hnodup, ?_⟩
    rw [hrecord]
    exact hrecords.length_eq
  rw [hzip] at hrun hcompleted
  have hbefore := h.batch_services hp ha hg hadm
  have hservices : ∀ requestId, servicesOf requestId (world.trace ++ [.iteration record]) =
      servicesOf requestId world.trace ++ record.servicesOf requestId := by
    intro requestId
    rw [services_of_append, services_of_iteration]
  have habsent : ∀ requestId, requestId ∉ scheduledIds granted admitted →
      servicesOf requestId (world.trace ++ [.iteration record]) =
        servicesOf requestId world.trace := by
    intro requestId hout
    rw [hservices, record.services_of_absent (by rw [hids]; exact hout), List.append_nil]
  have hslice_id : ∀ job slice, (job, some slice) ∈ batchOf granted frontier.idle admitted →
      slice.requestId = job.id := by
    intro job slice hmem
    simp only [batchOf, List.mem_append, List.mem_map, Prod.mk.injEq, reduceCtorEq, and_false,
      exists_false, or_false] at hmem
    rcases hmem with ⟨built, hb, rfl, he⟩ | ⟨built, hb, rfl, he⟩
    · cases he
      exact h.sliced_ids hg hadm built (List.mem_append_left _ hb)
    · cases he
      exact h.sliced_ids hg hadm built (List.mem_append_right _ hb)
  have houtcome : ∀ facts : IterationFacts, facts.durationMs = latency.durationMs → ∀ job,
      Outcome engine facts (batchOf granted frontier.idle admitted) record.served job →
      servicesOf job.id (world.trace ++ [.iteration record]) = job.services := by
    intro facts hduration job ho
    cases ho with
    | @idle job hjob =>
      have hmem : job ∈ frontier.idle := by simpa [batchOf] using hjob
      rw [Job.sitOut_id, habsent _ (hidle job hmem)]
      exact hbefore _ hjob
    | @served job slice progress _ hjob hserved hadvanced =>
      have hid := hslice_id job slice hjob
      have hsame : (job.served slice facts.durationMs progress).id = job.id :=
        (congrArg RequestState.requestId hadvanced.progressed.standing_eq :)
      have hone := record.services_of_served hrecord_wf hserved
      rw [hsame, hservices, hbefore _ hjob, ← hid, hone, hrecord, Job.served, hduration]
  have hgoal : ∀ trace, trace = world.trace ++ [.iteration record] →
      ({ session with
        nowMs := engine.clock.add session.nowMs latency.durationMs
        lostMs := session.lostMs + (session.nowMs + latency.durationMs -
          engine.clock.add session.nowMs latency.durationMs)
        iterationId := session.iterationId + 1
        waiting := frontier.waiting.map (Entry.sitOut engine.timelineMode latency.durationMs)
        running := applied.running
        completed := session.completed ++ frontier.completed ++ applied.completed
        iterationMetrics := session.iterationMetrics ++ [metric]
        transferQueue := applied.transferQueue } : Session).Accounts engine.timelineMode trace := by
    rintro _ rfl
    refine ⟨?_, ?_, fun job hj ↦ houtcome _ rfl job (hrun job hj), ?_, ?_, ?_⟩
    · intro request hr
      rw [habsent _ (hpending request hr)]
      exact ha.pending request hr
    · intro entry he
      obtain ⟨kept, hk, rfl⟩ := List.mem_map.mp he
      rw [Entry.sitOut_id, habsent _ (hwaiting kept hk)]
      exact hp.from_line.waiting_services ha.waiting kept hk
    · intro completion hc
      rcases List.mem_append.mp hc with hc | hc
      · rw [habsent _ (hdone completion hc)]
        rcases List.mem_append.mp hc with hc | hc
        · exact ha.completed completion hc
        · exact hp.from_line.completed_services ha.waiting completion hc
      · exact houtcome _ rfl completion.1 (hcompleted completion hc)
    · rw [iterations_of_append]
      refine List.forall_mem_append.mpr ⟨ha.records, ?_⟩
      simpa [iterationsOf, TraceEvent.iteration?] using hrecord_wf
    · rw [iterations_of_append]
      have hreports : record.Reports engine.timelineMode metric :=
        ⟨latency, _, applied.totals, by rw [hrecord], by rw [hrecord]; exact hmetric⟩
      exact List.rel_append ha.metrics (.cons hreports .nil)
  refine hgoal _ ?_
  rw [hrecord, ← htrace']
  rfl

theorem Passes.accounts {instanceUuid : String} {session : Session} {flow : Flow Session}
    {world world' : World C K} (h : Passes engine instanceUuid session world flow world')
    (hw : session.Wf engine.config engine.timelineMode requests)
    (ha : session.Accounts engine.timelineMode world.trace) :
    flow.state.Accounts engine.timelineMode world'.trace := by
  have hemptied : ∀ {received : Session} {frontier : Frontier} {world' : World C K} (nowMs : ℚ),
      Receives engine session received → Prepares engine received world frontier world' →
      (received.emptied frontier nowMs).Accounts engine.timelineMode
        (engine.drained world').trace := by
    intro received frontier world' nowMs hreceive hprepares
    have hr := hreceive.accounts ha
    have hlooks := hprepares.looks_only.drained engine
    refine Session.Accounts.of_services ?_ hlooks.services_eq hlooks.iterations_eq
    refine ⟨hr.pending, by simp [Session.emptied], by simp [Session.emptied], ?_, hr.records,
      hr.metrics⟩
    intro completion hc
    rcases List.mem_append.mp hc with hc | hc
    · exact hr.completed completion hc
    · exact hprepares.from_line.completed_services hr.waiting completion hc
  cases h with
  | jump hreceive hidle hpending =>
    have hr := hreceive.accounts ha
    exact ⟨hr.pending, hr.waiting, hr.running, hr.completed, hr.records, hr.metrics⟩
  | idle hreceive hidle hpending => exact hreceive.accounts ha
  | skip hreceive _ hprepares => exact hemptied _ hreceive hprepares
  | finish hreceive _ hprepares => exact hemptied _ hreceive hprepares
  | batch hreceive hbusy hprepares hleft hiterates =>
    have hwf := hreceive.wf hw
    have hlooks := hprepares.looks_only.drained engine
    have hr := (hreceive.accounts ha).of_services hlooks.services_eq hlooks.iterations_eq
    exact Iterates.accounts (hprepares.prepared hwf) hprepares hwf hr hiterates

end InferTwin
