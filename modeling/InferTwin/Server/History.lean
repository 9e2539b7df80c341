import InferTwin.Server.Run

namespace InferTwin

open Effect

variable {C K : Type} {engine : Engine C K} {requests : List SimulationRequest}

def TraceEvent.iteration? : TraceEvent → Option IterationRecord
  | lookup _ _ _ => none
  | accounted _ _ => none
  | iteration record => some record

/-- The iterations that a trace reports. -/
def iterationsOf (trace : List TraceEvent) : List IterationRecord :=
  trace.filterMap TraceEvent.iteration?

@[simp] theorem iterations_of_append (trace trace' : List TraceEvent) :
    iterationsOf (trace ++ trace') = iterationsOf trace ++ iterationsOf trace' :=
  List.filterMap_append ..

namespace IterationRecord

/-- The slices of an iteration with what was recorded of them. -/
def served (record : IterationRecord) : List (ScheduledSlice × SliceRecord) :=
  record.shape.requestSlices.zip record.slices

/-- What the iteration gave a request. -/
def servicesOf (requestId : String) (record : IterationRecord) : List Service :=
  (record.served.filter fun served ↦ served.1.requestId = requestId).map fun served ↦
    { slice := served.1, durationMs := record.durationMs, record := served.2 }

end IterationRecord

/-- What a request was given, as a trace reports it. -/
def servicesOf (requestId : String) (trace : List TraceEvent) : List Service :=
  (iterationsOf trace).flatMap (IterationRecord.servicesOf requestId)

@[simp] theorem services_of_append (requestId : String) (trace trace' : List TraceEvent) :
    servicesOf requestId (trace ++ trace') =
      servicesOf requestId trace ++ servicesOf requestId trace' := by
  simp [servicesOf]

theorem services_of_iteration (requestId : String) (record : IterationRecord) :
    servicesOf requestId [.iteration record] = record.servicesOf requestId := by
  simp [servicesOf, iterationsOf, TraceEvent.iteration?]

@[simp] theorem iterations_of_iteration (record : IterationRecord) :
    iterationsOf [.iteration record] = [record] := rfl

theorem services_of_none {requestId : String} {trace : List TraceEvent}
    (h : iterationsOf trace = []) : servicesOf requestId trace = [] := by
  simp [servicesOf, h]

/-- What walking down the waiting line does to the world: it looks requests up. -/
structure LooksOnly (world world' : World C K) : Prop where
  trace_eq : ∃ looked, world'.trace = world.trace ++ looked ∧ iterationsOf looked = []
  memo_eq : world'.memo = world.memo

namespace LooksOnly

theorem refl (world : World C K) : LooksOnly world world := ⟨⟨[], by simp, rfl⟩, rfl⟩

theorem trans {world world' world'' : World C K} (h : LooksOnly world world')
    (h' : LooksOnly world' world'') : LooksOnly world world'' := by
  obtain ⟨looked, ht, hn⟩ := h.trace_eq
  obtain ⟨looked', ht', hn'⟩ := h'.trace_eq
  refine ⟨⟨looked ++ looked', ?_, ?_⟩, h'.memo_eq.trans h.memo_eq⟩
  · rw [ht', ht, List.append_assoc]
  · rw [iterations_of_append, hn, hn', List.append_nil]

theorem services_eq {world world' : World C K} (h : LooksOnly world world') (requestId : String) :
    servicesOf requestId world'.trace = servicesOf requestId world.trace := by
  obtain ⟨looked, ht, hn⟩ := h.trace_eq
  rw [ht, services_of_append, services_of_none hn, List.append_nil]

theorem iterations_eq {world world' : World C K} (h : LooksOnly world world') :
    iterationsOf world'.trace = iterationsOf world.trace := by
  obtain ⟨looked, ht, hn⟩ := h.trace_eq
  rw [ht, iterations_of_append, hn, List.append_nil]

theorem drained {world world' : World C K} (h : LooksOnly world world') (engine : Engine C K) :
    LooksOnly world (engine.drained world') := ⟨h.trace_eq, h.memo_eq⟩

end LooksOnly

theorem Looks.looks_only {nowMs : ℚ} {entry : Entry} {world world' : World C K} {job : Job}
    (h : Looks engine nowMs entry world job world') : LooksOnly world world' := by
  cases h with
  | known => exact .refl world
  | fresh => exact ⟨⟨_, rfl, rfl⟩, rfl⟩

theorem Scans.looks_only {nowMs : ℚ} {tokenBudget seats : ℕ} {entries : List Entry} {scan : Scan}
    {world world' : World C K}
    (h : Scans engine nowMs tokenBudget seats entries world scan world') :
    LooksOnly world world' := by
  induction h with
  | nil => exact .refl _
  | full => exact .refl _
  | load hlook _ _ _ ih => exact hlook.looks_only.trans ih
  | finish hlook _ _ _ _ ih => exact hlook.looks_only.trans ih
  | stop hlook => exact hlook.looks_only
  | enter hlook _ _ _ ih => exact hlook.looks_only.trans ih

theorem Prepares.looks_only {session : Session} {frontier : Frontier} {world world' : World C K}
    (h : Prepares engine session world frontier world') : LooksOnly world world' := by
  rcases h.scanned with ⟨-, -, rfl⟩ | ⟨-, hscan⟩
  · exact .refl _
  · exact hscan.looks_only

/-- Where those on a scanned line come from. -/
structure Scanned (engine : Engine C K) (nowMs : ℚ) (entries : List Entry) (scan : Scan) :
    Prop where
  admitted : ∀ admitted ∈ scan.admitted, ∃ entry ∈ entries, ∃ world world',
    Looks engine nowMs entry world admitted.1 world'
  completed : ∀ completion ∈ scan.completed, ∃ entry ∈ entries, ∃ job world world',
    Looks engine nowMs entry world job world' ∧ job.state.remaining = 0 ∧
      job.state.pendingLoad = (0, 0) ∧ job.complete nowMs = .ok completion
  waiting : ∀ kept ∈ scan.waiting, kept ∈ entries ∨ ∃ entry ∈ entries, ∃ job world world',
    Looks engine nowMs entry world job world' ∧ job.state.remaining ≠ 0 ∧ kept = job.entry

theorem Scanned.cons {nowMs : ℚ} {entries : List Entry} {scan : Scan}
    (h : Scanned engine nowMs entries scan) (entry : Entry) :
    Scanned engine nowMs (entry :: entries) scan where
  admitted admitted ha := by
    obtain ⟨source, hs, hlook⟩ := h.admitted admitted ha
    exact ⟨source, List.mem_cons_of_mem _ hs, hlook⟩
  completed completion hc := by
    obtain ⟨source, hs, hlook⟩ := h.completed completion hc
    exact ⟨source, List.mem_cons_of_mem _ hs, hlook⟩
  waiting kept hk := by
    rcases h.waiting kept hk with hk | ⟨source, hs, hlook⟩
    · exact .inl (List.mem_cons_of_mem _ hk)
    · exact .inr ⟨source, List.mem_cons_of_mem _ hs, hlook⟩

theorem Scans.scanned {nowMs : ℚ} {tokenBudget seats : ℕ} {entries : List Entry} {scan : Scan}
    {world world' : World C K}
    (h : Scans engine nowMs tokenBudget seats entries world scan world') :
    Scanned engine nowMs entries scan := by
  induction h with
  | nil => exact ⟨by simp, by simp, by simp⟩
  | full => exact ⟨by simp, by simp, fun kept hk ↦ .inl hk⟩
  | @load _ _ entry _ _ _ _ _ _ hlook _ _ _ ih =>
    have hrest := ih.cons entry
    exact ⟨List.forall_mem_cons.mpr ⟨⟨_, List.mem_cons_self .., _, _, hlook⟩, hrest.admitted⟩,
      hrest.completed, hrest.waiting⟩
  | @finish _ _ entry _ _ _ _ _ _ _ hlook hr hload hdone _ ih =>
    have hrest := ih.cons entry
    exact ⟨hrest.admitted, List.forall_mem_cons.mpr
      ⟨⟨_, List.mem_cons_self .., _, _, _, hlook, hr, hload, hdone⟩, hrest.completed⟩,
      hrest.waiting⟩
  | stop hlook hr =>
    refine ⟨by simp, by simp, List.forall_mem_cons.mpr ⟨?_, ?_⟩⟩
    · exact .inr ⟨_, List.mem_cons_self .., _, _, _, hlook, hr, rfl⟩
    · exact fun kept hk ↦ .inl (List.mem_cons_of_mem _ hk)
  | @enter _ _ entry _ _ _ _ _ _ hlook _ _ _ ih =>
    have hrest := ih.cons entry
    exact ⟨List.forall_mem_cons.mpr ⟨⟨_, List.mem_cons_self .., _, _, hlook⟩, hrest.admitted⟩,
      hrest.completed, hrest.waiting⟩

theorem Prepares.from_line {session : Session} {frontier : Frontier} {world world' : World C K}
    (h : Prepares engine session world frontier world') :
    Scanned engine session.nowMs session.waiting frontier.toScan := by
  rcases h.scanned with ⟨-, hscan, -⟩ | ⟨-, hscan⟩
  · rw [hscan]
    exact ⟨by simp, by simp, fun kept hk ↦ .inl hk⟩
  · exact hscan.scanned

/-- What a request of a batch has become. -/
inductive Outcome (engine : Engine C K) (facts : IterationFacts)
    (batch : List (Job × Option ScheduledSlice)) (served : List (ScheduledSlice × SliceRecord)) :
    Job → Prop
  | idle {job} (hjob : (job, none) ∈ batch) :
      Outcome engine facts batch served (job.sitOut engine.timelineMode facts.durationMs)
  | served {job slice progress queue} (hjob : (job, some slice) ∈ batch)
      (hrecord : (slice, progress.record) ∈ served)
      (hadvanced : Advanced engine.timelineMode facts.shape.startTimeMs facts.finishMs slice
        (sliceContribution facts.breakdown facts.shape slice) job.state queue progress) :
      Outcome engine facts batch served (job.served slice facts.durationMs progress)

theorem Outcome.mono {facts : IterationFacts} {batch batch' : List (Job × Option ScheduledSlice)}
    {served served' : List (ScheduledSlice × SliceRecord)} {job : Job}
    (h : Outcome engine facts batch served job) (hb : ∀ item ∈ batch, item ∈ batch')
    (hs : ∀ item ∈ served, item ∈ served') : Outcome engine facts batch' served' job := by
  cases h with
  | idle hjob => exact .idle (hb _ hjob)
  | served hjob hrecord hadvanced => exact .served (hb _ hjob) (hs _ hrecord) hadvanced

theorem Outcome.cons {facts : IterationFacts} {batch : List (Job × Option ScheduledSlice)}
    {served : List (ScheduledSlice × SliceRecord)} {job : Job}
    (h : Outcome engine facts batch served job) (item : Job × Option ScheduledSlice) :
    Outcome engine facts (item :: batch) served job :=
  h.mono (fun _ ↦ List.mem_cons_of_mem _) fun _ ↦ id

theorem Outcome.cons_served {facts : IterationFacts} {batch : List (Job × Option ScheduledSlice)}
    {served : List (ScheduledSlice × SliceRecord)} {job : Job}
    (h : Outcome engine facts batch served job) (item : Job × Option ScheduledSlice)
    (slice : ScheduledSlice × SliceRecord) :
    Outcome engine facts (item :: batch) (slice :: served) job :=
  h.mono (fun _ ↦ List.mem_cons_of_mem _) fun _ ↦ List.mem_cons_of_mem _

/-- What has become of a batch: a record for each of its slices, an outcome for each of its
requests. -/
structure Outcomes (engine : Engine C K) (facts : IterationFacts)
    (batch : List (Job × Option ScheduledSlice)) (world : World C K) (applied : Applied)
    (world' : World C K) : Prop where
  records : List.Forall₂ (fun slice record ↦ record.requestId = slice.requestId)
    (batch.filterMap Prod.snd) applied.records
  running : ∀ job ∈ applied.running,
    Outcome engine facts batch ((batch.filterMap Prod.snd).zip applied.records) job
  completed : ∀ completion ∈ applied.completed,
    Outcome engine facts batch ((batch.filterMap Prod.snd).zip applied.records) completion.1
  world_eq : world' = { world with cache := world'.cache }

theorem Applies.outcomes {facts : IterationFacts} {nowMs lostMs : ℚ}
    {batch : List (Job × Option ScheduledSlice)} {queue : SharedLinkFIFOTransferQueue}
    {totals : IterationTotals} {world world' : World C K} {applied : Applied}
    (h : Applies engine facts batch queue totals world applied world')
    (hb : ∀ item ∈ batch, Batched engine.timelineMode nowMs lostMs item) :
    Outcomes engine facts batch world applied world' := by
  induction h with
  | nil => exact ⟨.nil, by simp, by simp, rfl⟩
  | idle _ ih =>
    obtain ⟨hrec, hrun, hdone, hworld⟩ := ih (List.forall_mem_of_forall_mem_cons hb)
    refine ⟨hrec, List.forall_mem_cons.mpr ⟨.idle (List.mem_cons_self ..), ?_⟩, ?_, hworld⟩
    · exact fun job hj ↦ (hrun job hj).cons _
    · exact fun completion hc ↦ (hdone completion hc).cons _
  | advance hslice _ ih =>
    obtain ⟨hrec, hrun, hdone, hworld⟩ := ih (List.forall_mem_of_forall_mem_cons hb)
    have hserved := (hb _ (List.mem_cons_self ..)).served hslice
    refine ⟨.cons hserved.id_eq hrec, List.forall_mem_cons.mpr ⟨?_, ?_⟩, ?_, ?_⟩
    · exact .served (List.mem_cons_self ..) (List.mem_cons_self ..) hserved.toAdvanced
    · exact fun job hj ↦ (hrun job hj).cons_served _ _
    · exact fun completion hc ↦ (hdone completion hc).cons_served _ _
    · rw [hworld, hserved.world_eq]
  | complete hslice _ ih =>
    obtain ⟨hrec, hrun, hdone, hworld⟩ := ih (List.forall_mem_of_forall_mem_cons hb)
    have hserved := (hb _ (List.mem_cons_self ..)).served hslice
    refine ⟨.cons hserved.id_eq hrec, ?_, List.forall_mem_cons.mpr ⟨?_, ?_⟩, ?_⟩
    · exact fun job hj ↦ (hrun job hj).cons_served _ _
    · exact .served (List.mem_cons_self ..) (List.mem_cons_self ..) hserved.toAdvanced
    · exact fun completion hc ↦ (hdone completion hc).cons_served _ _
    · rw [hworld, hserved.world_eq]

/-- What holds of those in service and of those admitted holds of a whole batch. -/
theorem Frontier.Prepared.batch_forall {session : Session} {frontier : Frontier}
    {granted admitted : List (Job × ScheduledSlice)} {Q : Job → Prop}
    (h : frontier.Prepared engine session) (hg : sliceAll frontier.granted = .ok granted)
    (hadm : sliceAll (frontier.entering session.nowMs) = .ok admitted)
    (hrunning : ∀ job ∈ session.running, Q job) (hadmitted : ∀ item ∈ frontier.admitted, Q item.1)
    (hand : ∀ job, Q job → Q job.handOver) (henter : ∀ job, Q job → Q (job.enter session.nowMs)) :
    ∀ item ∈ batchOf granted frontier.idle admitted, Q item.1 := by
  have hrunning' : ∀ job, job ∈ frontier.granted.map Prod.fst ∨ job ∈ frontier.idle → Q job := by
    intro job hj
    exact hrunning job (h.running_eq ▸ List.mem_append.mpr hj)
  intro item hi
  simp only [batchOf, List.mem_append, List.mem_map] at hi
  rcases hi with (⟨built, hb, rfl⟩ | ⟨job, hj, rfl⟩) | ⟨built, hb, rfl⟩
  · obtain ⟨planned, hplan, hs⟩ := sliced_mem (h.sliced_granted hg) hb
    rw [hs.job_eq]
    exact hand _ (hrunning' planned.1 (.inl (List.mem_map_of_mem hplan)))
  · exact hrunning' job (.inr hj)
  · obtain ⟨planned, hplan, hs⟩ := sliced_mem (h.sliced_admitted hadm) hb
    obtain ⟨entering, he, rfl⟩ := List.mem_map.mp hplan
    rw [hs.job_eq]
    exact hand _ (henter _ (hadmitted entering he))

/-- Whoever is in the system is one of the requests. -/
theorem Session.Wf.request_mem {config : SchedulerConfig} {timelineMode : TimelineMode}
    {session : Session} (hw : session.Wf config timelineMode requests) :
    ∀ entry ∈ session.active, entry.request ∈ requests := by
  intro entry he
  obtain ⟨arrived, hreq, -, hroster⟩ := hw.roster
  have hmem := hroster.mem_iff.mp (List.mem_append_right _ (List.mem_map_of_mem he))
  rw [hreq]
  exact List.mem_append_left _ (List.fst_mem_of_mem_zipIdx hmem)

theorem Frontier.Prepared.batch_requests {session : Session} {frontier : Frontier}
    {world world' : World C K} {granted admitted : List (Job × ScheduledSlice)}
    (h : frontier.Prepared engine session) (hp : Prepares engine session world frontier world')
    (hw : session.Wf engine.config engine.timelineMode requests)
    (hg : sliceAll frontier.granted = .ok granted)
    (hadm : sliceAll (frontier.entering session.nowMs) = .ok admitted) :
    ∀ item ∈ batchOf granted frontier.idle admitted, item.1.request ∈ requests := by
  have hactive := hw.request_mem
  refine h.batch_forall (Q := fun job ↦ job.request ∈ requests) hg hadm ?_ ?_ (fun _ ↦ id)
    fun _ ↦ id
  · intro job hj
    exact hactive _ (List.mem_append_left _ (List.mem_map_of_mem hj))
  · intro item hi
    obtain ⟨entry, he, _, _, hlook⟩ := hp.from_line.admitted item hi
    rw [hlook.request_eq]
    exact hactive _ (List.mem_append_right _ he)

/-- Every request that has arrived satisfies `P`, with the loss of the clock at its arrival
and its lookup. -/
structure Session.Throughout (P : SimulationRequest → ℚ → Option LookupMetrics → Prop)
    (session : Session) : Prop where
  waiting : ∀ entry ∈ session.waiting, P entry.request entry.lostMs entry.lookup
  running : ∀ job ∈ session.running, P job.request job.lostMs (some job.lookup)
  completed : ∀ completion ∈ session.completed,
    P completion.1.request completion.1.lostMs (some completion.1.lookup)

/-- A lookup that the cache can answer leaves `P` true. -/
def KeptByLookups (engine : Engine C K) (P : SimulationRequest → ℚ → Option LookupMetrics → Prop) :
    Prop :=
  ∀ request lostMs nowMs requestId instanceUuid cache raw cache' lookup,
    P request lostMs none →
    engine.cache.lookupPrefix request.promptBlocks nowMs requestId instanceUuid cache =
      .ok raw cache' →
    LookupMetrics.fromResult raw request = .ok lookup → P request lostMs (some lookup)

section Throughout

variable {P : SimulationRequest → ℚ → Option LookupMetrics → Prop}

theorem Looks.keeps {nowMs lostMs : ℚ} {entry : Entry} {job : Job} {world world' : World C K}
    (hP : KeptByLookups engine P) (h : Looks engine nowMs entry world job world')
    (hw : entry.Waiting engine.timelineMode nowMs lostMs)
    (he : P entry.request entry.lostMs entry.lookup) :
    P job.request job.lostMs (some job.lookup) := by
  cases h with
  | known hl =>
    rw [hl] at he
    exact he
  | fresh hl hraw hacc =>
    rw [hl] at he
    rw [hw.tracks.blocks_eq] at hraw
    exact hP _ _ _ _ _ _ _ _ _ he hraw hacc

theorem Prepares.keeps {session : Session} {frontier : Frontier} {world world' : World C K}
    (hP : KeptByLookups engine P) (h : Prepares engine session world frontier world')
    (hw : session.Wf engine.config engine.timelineMode requests) (ht : session.Throughout P) :
    (∀ admitted ∈ frontier.admitted,
      P admitted.1.request admitted.1.lostMs (some admitted.1.lookup)) ∧
    (∀ completion ∈ frontier.completed,
      P completion.1.request completion.1.lostMs (some completion.1.lookup)) ∧
    ∀ entry ∈ frontier.waiting, P entry.request entry.lostMs entry.lookup := by
  have hline := h.from_line
  refine ⟨?_, ?_, ?_⟩
  · intro admitted ha
    obtain ⟨entry, he, _, _, hlook⟩ := hline.admitted admitted ha
    exact hlook.keeps hP (hw.waiting entry he) (ht.waiting entry he)
  · intro completion hc
    obtain ⟨entry, he, job, _, _, hlook, -, -, hdone⟩ := hline.completed completion hc
    have hjob := hlook.keeps hP (hw.waiting entry he) (ht.waiting entry he)
    rw [(Job.complete_ok hdone).1]
    exact hjob
  · intro kept hk
    rcases hline.waiting kept hk with hk | ⟨entry, he, job, _, _, hlook, -, rfl⟩
    · exact ht.waiting kept hk
    · exact hlook.keeps hP (hw.waiting entry he) (ht.waiting entry he)

theorem Outcome.keeps {facts : IterationFacts} {batch : List (Job × Option ScheduledSlice)}
    {served : List (ScheduledSlice × SliceRecord)} {job : Job}
    (h : Outcome engine facts batch served job)
    (hb : ∀ item ∈ batch, P item.1.request item.1.lostMs (some item.1.lookup)) :
    P job.request job.lostMs (some job.lookup) := by
  cases h with
  | idle hjob => exact hb _ hjob
  | served hjob => exact hb _ hjob

theorem Receives.throughout {session received : Session} (h : Receives engine session received)
    (harrive : ∀ request ∈ session.pending, P request session.lostMs none)
    (ht : session.Throughout P) : received.Throughout P := by
  obtain ⟨⟨entries, taken, hp, he, htickets, hall, -⟩, -⟩ := h
  rw [he]
  refine ⟨?_, ht.running, ht.completed⟩
  intro entry hentry
  rcases List.mem_append.mp hentry with hentry | hentry
  · exact ht.waiting entry hentry
  · have hrequest : entry.request ∈ session.pending := by
      have hticket : entry.ticket ∈ taken.zipIdx session.arrivals :=
        htickets ▸ List.mem_map_of_mem hentry
      exact hp ▸ List.mem_append_left _ (List.fst_mem_of_mem_zipIdx hticket)
    obtain ⟨hnone, hlost⟩ := (hall entry hentry).2
    rw [hlost, hnone]
    exact harrive _ hrequest

theorem Passes.throughout {instanceUuid : String} {session : Session} {flow : Flow Session}
    {world world' : World C K} (hP : KeptByLookups engine P)
    (harrive : ∀ request ∈ session.pending, P request session.lostMs none)
    (h : Passes engine instanceUuid session world flow world')
    (hw : session.Wf engine.config engine.timelineMode requests) (ht : session.Throughout P) :
    flow.state.Throughout P := by
  have hreceived : ∀ {received : Session}, Receives engine session received →
      received.Throughout P := fun hr ↦ hr.throughout harrive ht
  have hemptied : ∀ {received : Session} {frontier : Frontier} {world' : World C K} (nowMs : ℚ),
      Receives engine session received → Prepares engine received world frontier world' →
      (received.emptied frontier nowMs).Throughout P := by
    intro received frontier world' nowMs hr hprepares
    have htr := hreceived hr
    obtain ⟨-, hdone, -⟩ := hprepares.keeps hP (hr.wf hw) htr
    refine ⟨by simp [Session.emptied], by simp [Session.emptied], ?_⟩
    intro completion hc
    rcases List.mem_append.mp hc with hc | hc
    · exact htr.completed completion hc
    · exact hdone completion hc
  cases h with
  | jump hr => exact ⟨(hreceived hr).waiting, (hreceived hr).running, (hreceived hr).completed⟩
  | idle hr => exact hreceived hr
  | skip hr _ hprepares => exact hemptied _ hr hprepares
  | finish hr _ hprepares => exact hemptied _ hr hprepares
  | @batch received frontier _ _ _ hr hbusy hprepares hleft hiterates =>
    have hwf := hr.wf hw
    have htr := hreceived hr
    have hprepared := hprepares.prepared hwf
    obtain ⟨hadmitted, hdone, hwaiting⟩ := hprepares.keeps hP hwf htr
    obtain ⟨hg, hadm, -, -, -, -, happlies, -⟩ := hiterates
    have houtcomes := happlies.outcomes (hprepared.batched hg hadm)
    have hbatch := hprepared.batch_forall (Q := fun job ↦
      P job.request job.lostMs (some job.lookup)) hg hadm htr.running hadmitted
      (fun _ ↦ id) fun _ ↦ id
    refine ⟨?_, fun job hj ↦ (houtcomes.running job hj).keeps hbatch, ?_⟩
    · intro entry he
      obtain ⟨kept, hk, rfl⟩ := List.mem_map.mp he
      exact hwaiting kept hk
    · intro completion hc
      rcases List.mem_append.mp hc with hc | hc
      · rcases List.mem_append.mp hc with hc | hc
        · exact htr.completed completion hc
        · exact hdone completion hc
      · exact (houtcomes.completed completion hc).keeps hbatch

end Throughout

end InferTwin
