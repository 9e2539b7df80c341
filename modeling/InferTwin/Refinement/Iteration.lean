import InferTwin.Refinement.Schedule

namespace InferTwin

open Effect

variable {C K : Type}

/-- The source's loop over the active requests makes those wait that were not scheduled. -/
theorem compute_wait_loop_eq (scheduled : List String) {durationMs : ℚ} (hd0 : 0 ≤ durationMs)
    {entries : List Entry} (seen : List String) (wait : ComputeWaitAccounting) (heap : Heap)
    (hd : Distinct entries) (hh : ∀ entry ∈ entries, heap entry.seq = entry.state)
    (hs : ∀ entry ∈ entries, entry.state.status ≠ .finished)
    (hseen : ∀ entry ∈ entries, entry.id ∉ seen) :
    ∃ heap', computeWaitLoop scheduled durationMs (entries.map Entry.seq) seen wait heap =
        .ok ({
          waitingForComputeCount := wait.waitingForComputeCount +
            entries.countP (·.id ∉ scheduled)
          computeWaitMs := wait.computeWaitMs +
            entries.countP (·.id ∉ scheduled) * durationMs }, heap') ∧
      (∀ entry ∈ entries, heap' entry.seq =
        if entry.id ∈ scheduled then entry.state
        else entry.state.sitOut .progressive durationMs) ∧
      ∀ ref ∉ entries.map Entry.seq, heap' ref = heap ref := by
  induction entries generalizing seen wait heap with
  | nil => exact ⟨heap, by simp [computeWaitLoop], by simp, by simp⟩
  | cons entry entries ih =>
    have hheap := hh _ (List.mem_cons_self ..)
    have hstatus := hs _ (List.mem_cons_self ..)
    have hid : entry.state.requestId = entry.id := rfl
    have hne : ∀ other ∈ entries, other.seq ≠ entry.seq :=
      fun other ho he ↦ hd.head_seq (he ▸ List.mem_map_of_mem ho)
    have hseen' : ∀ other ∈ entries, other.id ∉ entry.id :: seen := by
      intro other ho
      refine List.not_mem_cons_of_ne_of_not_mem (fun he ↦ ?_)
        (hseen other (List.mem_cons_of_mem _ ho))
      exact hd.head_id (he ▸ List.mem_map_of_mem ho)
    simp only [List.map_cons, computeWaitLoop, hheap, hid, if_neg (hseen _ (List.mem_cons_self ..))]
    by_cases hsch : entry.id ∈ scheduled
    · obtain ⟨heap', heq, hin, hout⟩ := ih (entry.id :: seen) wait heap hd.tail
        (List.forall_mem_of_forall_mem_cons hh) (List.forall_mem_of_forall_mem_cons hs) hseen'
      refine ⟨heap', ?_, List.forall_mem_cons.mpr ⟨?_, hin⟩, ?_⟩
      · rw [if_pos (.inr hsch), heq]
        simp [hsch]
      · rw [if_pos hsch, hout _ hd.head_seq, hheap]
      · exact fun ref hr ↦ hout ref fun hmem ↦ hr (List.mem_cons_of_mem _ hmem)
    · obtain ⟨heap', heq, hin, hout⟩ := ih (entry.id :: seen)
        { waitingForComputeCount := wait.waitingForComputeCount + 1
          computeWaitMs := wait.computeWaitMs + durationMs }
        (Function.update heap entry.seq (entry.state.sitOut .progressive durationMs)) hd.tail
        (fun other ho ↦ (Function.update_of_ne (hne other ho) _ _).trans
          (hh other (List.mem_cons_of_mem _ ho)))
        (List.forall_mem_of_forall_mem_cons hs) hseen'
      have hwait : entry.state.recordComputeWait durationMs =
          .ok (entry.state.sitOut .progressive durationMs) := by
        unfold RequestState.recordComputeWait
        rw [if_neg (not_lt.mpr hd0)]
        rfl
      refine ⟨heap', ?_, List.forall_mem_cons.mpr ⟨?_, hin⟩, ?_⟩
      · rw [if_neg (not_or.mpr ⟨hstatus, hsch⟩), hwait]
        simp only [bind, Except.bind, heq]
        simp [hsch, Nat.add_comm 1, add_mul, add_assoc, add_comm durationMs]
      · rw [if_neg hsch, hout _ hd.head_seq, Function.update_self]
      · intro ref hr
        have hr' := List.ne_and_not_mem_of_not_mem_cons hr
        rw [hout ref hr'.2, Function.update_of_ne hr'.1]

/-- The compute waits of an iteration, in either mode. -/
theorem compute_wait_eq (engine : Engine C K) (scheduled : List String) {durationMs : ℚ}
    (hd0 : 0 ≤ durationMs) {entries : List Entry} {waiting running : List ℕ} {heap : Heap}
    (hrefs : waiting ++ running = entries.map Entry.seq) (hd : Distinct entries)
    (hh : ∀ entry ∈ entries, heap entry.seq = entry.state)
    (hs : ∀ entry ∈ entries, entry.state.status ≠ .finished) :
    ∃ heap', recordIterationComputeWait waiting running scheduled durationMs engine.timelineMode
        heap = .ok (engine.sittingOut durationMs (entries.countP (·.id ∉ scheduled)), heap') ∧
      ∀ entry ∈ entries, heap' entry.seq =
        if entry.id ∈ scheduled then entry.state
        else entry.state.sitOut engine.timelineMode durationMs := by
  unfold recordIterationComputeWait Engine.sittingOut
  cases engine.timelineMode with
  | legacy => exact ⟨heap, rfl, fun entry he ↦ by simp [hh entry he, RequestState.sitOut]⟩
  | progressive =>
    obtain ⟨heap', heq, hin, -⟩ := compute_wait_loop_eq scheduled hd0 [] {} heap hd hh hs
      (fun entry _ ↦ List.not_mem_nil)
    refine ⟨heap', ?_, hin⟩
    rw [hrefs, heq]
    simp

/-- What an item of a batch has to find in heap and dictionaries when it is served. A
request that sits out has had its wait recorded before. -/
def ItemHeld (timelineMode : TimelineMode) (facts : IterationFacts)
    (contributions : Dict String IterationLatencyBreakdown) (locals : Locals)
    (item : Job × Option ScheduledSlice) : Prop :=
  match item.2 with
  | none => Held locals (item.1.sitOut timelineMode facts.durationMs).entry
  | some slice => Held locals item.1.entry ∧ slice.requestId = item.1.id ∧
      contributions.lookup item.1.id = some (sliceContribution facts.breakdown facts.shape slice)

theorem Held.congr {locals locals' : Locals} {entry : Entry} (h : Held locals entry)
    (hheap : locals'.heap entry.seq = locals.heap entry.seq)
    (hs : locals'.statesById = locals.statesById) (hr : locals'.requestsById = locals.requestsById)
    (hl : locals'.lookupById = locals.lookupById) : Held locals' entry :=
  ⟨hheap.trans h.heap_eq, hs ▸ h.state_eq, hr ▸ h.request_eq, hl ▸ h.lookup_eq⟩

theorem ItemHeld.congr {timelineMode : TimelineMode} {facts : IterationFacts}
    {contributions : Dict String IterationLatencyBreakdown} {locals locals' : Locals}
    {item : Job × Option ScheduledSlice} (h : ItemHeld timelineMode facts contributions locals item)
    (hheap : locals'.heap item.1.seq = locals.heap item.1.seq)
    (hs : locals'.statesById = locals.statesById) (hr : locals'.requestsById = locals.requestsById)
    (hl : locals'.lookupById = locals.lookupById) :
    ItemHeld timelineMode facts contributions locals' item := by
  obtain ⟨job, slice⟩ := item
  cases slice with
  | none => exact Held.congr h (by simpa using hheap) hs hr hl
  | some slice => exact ⟨h.1.congr hheap hs hr hl, h.2⟩

/-- The locals after a slice has been applied to its request. -/
def Locals.served (locals : Locals) (ref : ℕ) (progress : SliceProgress)
    (metric : Option BatchAwareRequestMetrics) : Locals :=
  { locals with
    heap := Function.update locals.heap ref progress.state
    transferQueue := progress.queue
    requestMetrics := locals.requestMetrics ++ metric.toList }

/-- What the batch has done, with one more request served in front. -/
def Applied.cons (applied : Applied) (served : Job) (record : SliceRecord) :
    Option BatchAwareRequestMetrics → Applied
  | some metric => { applied with
    completed := (served, metric) :: applied.completed
    records := record :: applied.records }
  | none => { applied with
    running := served :: applied.running
    records := record :: applied.records }

/-- What the source's slice loop leaves, against what serving the batch has done. -/
structure ApplyAgrees (batch : List (Job × Option ScheduledSlice)) (records : List SliceRecord)
    (locals : Locals) (result : IterationTotals × List SliceRecord × Locals)
    (applied : Applied) : Prop where
  totals_eq : result.1 = applied.totals
  records_eq : result.2.1 = records ++ applied.records
  locals_eq : result.2.2 = { locals with
    heap := result.2.2.heap
    transferQueue := applied.transferQueue
    requestMetrics := locals.requestMetrics ++ applied.completed.map Prod.snd }
  heap_eq : ∀ ref ∉ batch.map (·.1.seq), result.2.2.heap ref = locals.heap ref
  running : ∀ job ∈ applied.running, Held result.2.2 job.entry
  running_eq : (batch.map (·.1.seq)).filter
    (fun ref ↦ (result.2.2.heap ref).status ≠ .finished) = applied.running.map Job.seq

namespace ApplyAgrees

variable {engine : Engine C K} {facts : IterationFacts} {nowMs lostMs : ℚ} {job : Job}
  {batch : List (Job × Option ScheduledSlice)} {records : List SliceRecord} {locals : Locals}
  {result : IterationTotals × List SliceRecord × Locals} {applied : Applied}

theorem held (h : ApplyAgrees batch records locals result applied) {entry : Entry}
    (hh : Held locals entry) (hseq : entry.seq ∉ batch.map (·.1.seq)) : Held result.2.2 entry :=
  
  hh.congr (h.heap_eq _ hseq) (by rw [h.locals_eq]) (by rw [h.locals_eq]) (by rw [h.locals_eq])

theorem idle (h : ApplyAgrees batch records locals result applied)
    (hrun : job.Running engine.timelineMode nowMs lostMs)
    (hheld : Held locals (job.sitOut engine.timelineMode facts.durationMs).entry)
    (hseq : job.seq ∉ batch.map (·.1.seq)) :
    ApplyAgrees ((job, none) :: batch) records locals result { applied with
      running := job.sitOut engine.timelineMode facts.durationMs :: applied.running } where
  totals_eq := h.totals_eq
  records_eq := h.records_eq
  locals_eq := h.locals_eq
  heap_eq ref hr := h.heap_eq ref fun hmem ↦ hr (List.mem_cons_of_mem _ hmem)
  running := List.forall_mem_cons.mpr ⟨h.held hheld (by simpa using hseq), h.running⟩
  running_eq := by
    have hheap := (h.held hheld (by simpa using hseq)).heap_eq
    rw [Job.entry_seq, Job.sitOut_seq] at hheap
    have hstatus : (result.2.2.heap job.seq).status ≠ .finished := by
      rw [hheap]
      show (job.sitOut engine.timelineMode facts.durationMs).state.status ≠ _
      rw [Job.sitOut_status, hrun.running]
      decide
    simp only [List.map_cons, List.filter_cons, hstatus, h.running_eq, ne_eq, not_false_eq_true,
      decide_true, if_true, Job.sitOut_seq]

theorem serve {startMs finishMs : ℚ} {slice : ScheduledSlice}
    {contribution : IterationLatencyBreakdown} {request : Except ReplayError SimulationRequest}
    {queue : SharedLinkFIFOTransferQueue} {progress : SliceProgress}
    {metric : Option BatchAwareRequestMetrics} {world world' : World C K} (durationMs : ℚ)
    (h : ApplyAgrees batch (records ++ [progress.record])
      (locals.served job.seq progress metric) result applied)
    (hserved : Served engine startMs finishMs slice contribution job.state job.lookup request queue
      world progress metric world')
    (hheld : Held locals job.entry) (hseq : job.seq ∉ batch.map (·.1.seq)) :
    ApplyAgrees ((job, some slice) :: batch) records locals result
      (applied.cons (job.served slice durationMs progress) progress.record metric) := by
  have hstanding := hserved.progressed.standing_eq
  have hseq' : (job.served slice durationMs progress).seq = job.seq :=
    (congrArg RequestState.arrivalSeq hstanding :)
  have hid : (job.served slice durationMs progress).id = job.id :=
    (congrArg RequestState.requestId hstanding :)
  have hheap : result.2.2.heap job.seq = progress.state :=
    (h.heap_eq _ hseq).trans (Function.update_self ..)
  have hheld' : Held result.2.2 (job.served slice durationMs progress).entry := by
    rw [h.locals_eq]
    have hrestate := hheld.restate (job.served slice durationMs progress).entry hseq' hid rfl rfl
      ((congrArg result.2.2.heap hseq').trans hheap)
    exact hrestate.congr rfl rfl rfl rfl
  have hother : ∀ ref ∉ job.seq :: batch.map (·.1.seq),
      result.2.2.heap ref = locals.heap ref := by
    intro ref hr
    obtain ⟨hne, hr⟩ := List.ne_and_not_mem_of_not_mem_cons hr
    exact (h.heap_eq ref hr).trans (Function.update_of_ne hne _ _)
  have hrest := h.running_eq
  cases metric with
  | none =>
    have hstatus := hserved.unfinished rfl
    refine ⟨h.totals_eq, ?_, ?_, hother, List.forall_mem_cons.mpr ⟨hheld', h.running⟩, ?_⟩
    · rw [h.records_eq]
      simp [Applied.cons]
    · rw [h.locals_eq]
      simp [Applied.cons, Locals.served]
    · simp only [List.map_cons, List.filter_cons, hheap, hstatus, hrest, ne_eq, not_false_eq_true,
        decide_true, if_true, Applied.cons, hseq']
  | some metric =>
    have hstatus := (hserved.finished metric rfl).1
    refine ⟨h.totals_eq, ?_, ?_, hother, h.running, ?_⟩
    · rw [h.records_eq]
      simp [Applied.cons]
    · rw [h.locals_eq]
      simp [Applied.cons, Locals.served]
    · simp only [List.map_cons, List.filter_cons, hheap, hstatus, hrest, ne_eq, not_true_eq_false,
        decide_false, Bool.false_eq_true, if_false, Applied.cons]

end ApplyAgrees

/-- The slice loop of the source serves the batch. -/
theorem apply_slices_agree (engine : Engine C K) (facts : IterationFacts) {nowMs lostMs : ℚ}
    (contributions : Dict String IterationLatencyBreakdown)
    (batch : List (Job × Option ScheduledSlice)) (totals : IterationTotals)
    (records : List SliceRecord) (locals : Locals) (world : World C K)
    (hd : Distinct (batch.map (·.1.entry)))
    (hb : ∀ item ∈ batch, Batched engine.timelineMode nowMs lostMs item)
    (hh : ∀ item ∈ batch, ItemHeld engine.timelineMode facts contributions locals item) :
    Agree Eq (ApplyAgrees batch records locals)
      (engine.applySlices facts.shape.startTimeMs facts.finishMs contributions
        (batch.filterMap Prod.snd) totals records locals world)
      (engine.applyBatch facts batch locals.transferQueue totals world) := by
  induction batch generalizing totals records locals world with
  | nil => exact .ok rfl ⟨rfl, by simp, by simp, by simp, by simp, rfl⟩
  | cons item batch ih =>
    obtain ⟨job, slice⟩ := item
    have hitem := hb _ (List.mem_cons_self ..)
    have hheld := hh _ (List.mem_cons_self ..)
    have hseq : job.seq ∉ batch.map (·.1.seq) := by
      simpa [Function.comp_def] using hd.head_seq
    have hne : ∀ other ∈ batch, other.1.seq ≠ job.seq :=
      fun other ho he ↦ hseq (he ▸ List.mem_map_of_mem ho)
    cases slice with
    | none =>
      have hrun : job.Running engine.timelineMode nowMs lostMs := hitem
      have hheld : Held locals (job.sitOut engine.timelineMode facts.durationMs).entry := hheld
      simp only [List.filterMap_cons_none, Engine.applyBatch]
      refine (ih totals records locals world hd.tail (List.forall_mem_of_forall_mem_cons hb)
        (List.forall_mem_of_forall_mem_cons hh)).map_right ?_
      intro result applied hagree
      exact hagree.idle hrun hheld hseq
    | some slice =>
      obtain ⟨hheld, hid, hcontribution⟩ :
        Held locals job.entry ∧ slice.requestId = job.id ∧ contributions.lookup job.id =
          some (sliceContribution facts.breakdown facts.shape slice) := hheld
      have hstate : locals.heap job.seq = job.state := hheld.heap_eq
      have href : locals.statesById.getItem slice.requestId = .ok job.seq := by
        rw [hid]
        exact Dict.getItem_eq_ok hheld.state_eq
      have hlookup : locals.lookupById.getItem job.state.requestId = .ok job.lookup :=
        Dict.getItem_eq_ok (hheld.lookup_eq _ rfl)
      have hshare : contributions.getItem slice.requestId =
          .ok (sliceContribution facts.breakdown facts.shape slice) := by
        rw [hid]
        exact Dict.getItem_eq_ok hcontribution
      have hrequest : locals.requestsById.getItem job.state.requestId = .ok job.request :=
        Dict.getItem_eq_ok hheld.request_eq
      simp only [List.filterMap_cons, Engine.applySlices, Engine.applyBatch, href,
        check_ok_bind, hstate, hlookup, hshare, hrequest]
      refine Agree.bind_same ?_
      rintro ⟨progress, metric⟩ world' hslice
      have hserved := hitem.served hslice
      have hheld' : ∀ other ∈ batch, ItemHeld engine.timelineMode facts contributions
          (locals.served job.seq progress metric) other := by
        intro other ho
        exact (hh other (List.mem_cons_of_mem _ ho)).congr
          (Function.update_of_ne (hne other ho) _ _) rfl rfl rfl
      have hrest := ih progress.totals (records ++ [progress.record])
        (locals.served job.seq progress metric) world' hd.tail
        (List.forall_mem_of_forall_mem_cons hb) hheld'
      cases metric with
      | none =>
        refine hrest.map_right fun result applied hagree ↦ ?_
        exact hagree.serve facts.durationMs hserved hheld hseq
      | some metric =>
        refine hrest.map_right fun result applied hagree ↦ ?_
        exact hagree.serve facts.durationMs hserved hheld hseq

/-- The shares of a split, by request id. -/
def contributionsOf (breakdown : IterationLatencyBreakdown) (shape : BatchShape)
    (slices : List ScheduledSlice) (contributions : Dict String IterationLatencyBreakdown) :
    Dict String IterationLatencyBreakdown :=
  slices.foldl (fun contributions slice ↦
    contributions.insert slice.requestId (sliceContribution breakdown shape slice)) contributions

theorem split_contributions_eq (shape : BatchShape) (latency : LatencyResult) :
    splitIterationLatencyContributions shape latency =
      (latencyBreakdownFromResult latency).map fun breakdown ↦
        contributionsOf breakdown shape shape.requestSlices ∅ := rfl

/-- Every slice finds its own share in the split of the iteration. -/
theorem contributions_lookup (breakdown : IterationLatencyBreakdown) (shape : BatchShape)
    {slices : List ScheduledSlice} (hd : (slices.map ScheduledSlice.requestId).Nodup)
    (contributions : Dict String IterationLatencyBreakdown) :
    (∀ slice ∈ slices,
        (contributionsOf breakdown shape slices contributions).lookup slice.requestId =
          some (sliceContribution breakdown shape slice)) ∧
      ∀ id ∉ slices.map ScheduledSlice.requestId,
        (contributionsOf breakdown shape slices contributions).lookup id =
          contributions.lookup id := by
  induction slices generalizing contributions with
  | nil => exact ⟨by simp, fun _ _ ↦ rfl⟩
  | cons slice slices ih =>
    simp only [List.map_cons, List.nodup_cons] at hd
    obtain ⟨hin, hout⟩ := ih hd.2
      (contributions.insert slice.requestId (sliceContribution breakdown shape slice))
    refine ⟨List.forall_mem_cons.mpr ⟨?_, hin⟩, fun id hid ↦ ?_⟩
    · exact (hout _ hd.1).trans (Finmap.lookup_insert _)
    · obtain ⟨hne, hid⟩ := List.ne_and_not_mem_of_not_mem_cons hid
      exact (hout id hid).trans (Finmap.lookup_insert_of_ne _ hne)

/-- The ids that the slices of a batch carry. -/
def scheduledIds (granted admitted : List (Job × ScheduledSlice)) : List String :=
  ((granted ++ admitted).map Prod.snd).map ScheduledSlice.requestId

section Batch

variable {granted admitted : List (Job × ScheduledSlice)} {idle : List Job}
  {waiting : List Entry}

theorem scheduled_ids_eq
    (hid : ∀ built ∈ granted ++ admitted, built.2.requestId = built.1.id) :
    scheduledIds granted admitted = (granted ++ admitted).map (·.1.id) := by
  rw [scheduledIds, List.map_map]
  exact List.map_congr_left hid

/-- Of the requests on the frontier, just those without a slice sit out. -/
theorem sitting_out_count
    (hid : ∀ built ∈ granted ++ admitted, built.2.requestId = built.1.id)
    (hd : Distinct (waiting ++ (batchOf granted idle admitted).map (·.1.entry))) :
    (∀ entry ∈ waiting, entry.id ∉ scheduledIds granted admitted) ∧
      (∀ job ∈ idle, job.id ∉ scheduledIds granted admitted) ∧
      (waiting ++ (batchOf granted idle admitted).map (·.1.entry)).countP
        (·.id ∉ scheduledIds granted admitted) = waiting.length + idle.length := by
  have hids := hd.ids
  simp only [batchOf, List.map_append, List.map_map, Function.comp_def, Job.entry_id] at hids
  have hperm : (waiting.map Entry.id ++ (idle.map Job.id ++
      (granted ++ admitted).map (·.1.id))).Nodup := by
    refine (List.Perm.nodup_iff ?_).mp hids
    rw [List.map_append]
    refine List.Perm.append_left _ ?_
    rw [← List.append_assoc]
    exact List.perm_append_comm.append_right _
  have hwaiting : ∀ entry ∈ waiting, entry.id ∉ scheduledIds granted admitted := by
    intro entry he hmem
    rw [scheduled_ids_eq hid] at hmem
    exact hperm.disjoint (List.mem_map_of_mem he) (List.mem_append_right _ hmem)
  have hidle : ∀ job ∈ idle, job.id ∉ scheduledIds granted admitted := by
    intro job hj hmem
    rw [scheduled_ids_eq hid] at hmem
    exact hperm.of_append_right.disjoint (List.mem_map_of_mem hj) hmem
  have hin : ∀ built ∈ granted ++ admitted, built.1.id ∈ scheduledIds granted admitted := by
    intro built hb
    rw [scheduled_ids_eq hid]
    exact List.mem_map_of_mem hb
  refine ⟨hwaiting, hidle, ?_⟩
  have hw : waiting.countP (·.id ∉ scheduledIds granted admitted) = waiting.length :=
    List.countP_eq_length.mpr fun entry he ↦ decide_eq_true (hwaiting entry he)
  have hi : (idle.map fun job ↦ job.entry).countP (·.id ∉ scheduledIds granted admitted) =
      idle.length := by
    rw [List.countP_map]
    exact List.countP_eq_length.mpr fun job hj ↦ decide_eq_true (hidle job hj)
  have hb : ∀ built : List (Job × ScheduledSlice), (∀ item ∈ built, item ∈ granted ++ admitted) →
      (built.map (·.1.entry)).countP (·.id ∉ scheduledIds granted admitted) = 0 := by
    intro built hsub
    rw [List.countP_map]
    refine List.countP_eq_zero.mpr fun item hi ↦ ?_
    simp [hin item (hsub item hi)]
  have hg := hb granted fun item hi ↦ List.mem_append_left _ hi
  have ha := hb admitted fun item hi ↦ List.mem_append_right _ hi
  simp only [batchOf, List.map_append, List.map_map, Function.comp_def, List.countP_append] at *
  omega

end Batch

theorem Batched.id_eq {timelineMode : TimelineMode} {nowMs lostMs : ℚ}
    {item : Job × Option ScheduledSlice} (h : Batched timelineMode nowMs lostMs item) :
    item.1.id = item.1.request.requestId := by
  obtain ⟨job, slice⟩ := item
  cases slice with
  | none =>
    have hrun : job.Running timelineMode nowMs lostMs := h
    exact hrun.ledger.tracks.id_eq
  | some slice =>
    obtain ⟨planned, tokens, hin, hs⟩ := h
    have he : job = planned.handOver := hs.job_eq
    rw [he]
    exact (RequestState.consumed_request_id _).trans hin.ledger.tracks.id_eq

theorem Batched.unfinished {timelineMode : TimelineMode} {nowMs lostMs : ℚ}
    {item : Job × Option ScheduledSlice} (h : Batched timelineMode nowMs lostMs item) :
    item.1.state.status ≠ .finished := by
  obtain ⟨job, slice⟩ := item
  cases slice with
  | none =>
    have hrun : job.Running timelineMode nowMs lostMs := h
    simp [hrun.running]
  | some slice =>
    obtain ⟨planned, tokens, hin, hs⟩ := h
    have he : job = planned.handOver := hs.job_eq
    simp [he, Job.handOver, hin.running]

section Prepared

variable {engine : Engine C K} {session : Session} {frontier : Frontier} {locals : Locals}
  {requests : List SimulationRequest} {granted admitted : List (Job × ScheduledSlice)}

/-- The requests of a batch, and those left waiting, are distinct. -/
theorem Frontier.Prepared.batch_distinct (h : frontier.Prepared engine session)
    (hw : session.Wf engine.config engine.timelineMode requests)
    (hg : sliceAll frontier.granted = .ok granted)
    (ha : sliceAll (frontier.entering session.nowMs) = .ok admitted) :
    Distinct (frontier.waiting ++ (batchOf granted frontier.idle admitted).map (·.1.entry)) := by
  have hd := h.distinct hw
  have hbatched := h.batched hg ha
  have hperm : (frontier.waiting ++ (session.running.map Job.entry ++
      frontier.admitted.map (·.1.entry))).Perm (frontier.active session) := by
    rw [Frontier.active, ← List.append_assoc (List.map _ _)]
    exact List.perm_append_comm
  refine (hd.perm hperm).of_tickets ?_ ?_ ?_
  · exact fun entry he ↦ h.named hw entry (hperm.mem_iff.mp he)
  · intro entry he
    rcases List.mem_append.mp he with he | he
    · exact (h.waiting entry he).tracks.id_eq
    · obtain ⟨item, hi, rfl⟩ := List.mem_map.mp he
      exact (hbatched item hi).id_eq
  · have ht := h.batch_tickets hg ha
    simp only [List.map_append, List.map_map, Function.comp_def, Job.entry_ticket] at ht ⊢
    rw [ht]

/-- Every slice carries the id of the request it was built for. -/
theorem Frontier.Prepared.sliced_ids (h : frontier.Prepared engine session)
    (hg : sliceAll frontier.granted = .ok granted)
    (ha : sliceAll (frontier.entering session.nowMs) = .ok admitted) :
    ∀ built ∈ granted ++ admitted, built.2.requestId = built.1.id := by
  intro built hb
  have hsliced : ∃ planned, Sliced planned built := by
    rcases List.mem_append.mp hb with hb | hb
    · obtain ⟨planned, -, hs⟩ := sliced_mem (h.sliced_granted hg) hb
      exact ⟨planned, hs⟩
    · obtain ⟨planned, -, hs⟩ := sliced_mem (h.sliced_admitted ha) hb
      exact ⟨planned, hs⟩
  obtain ⟨planned, hs⟩ := hsliced
  rw [hs.describes.id_eq, hs.job_eq]
  exact (RequestState.consumed_request_id _).symm

/-- The queues of the source, once it has admitted, are the line and the batch. -/
theorem Frontier.Prepared.batch_refs (h : frontier.Prepared engine session)
    (hg : sliceAll frontier.granted = .ok granted)
    (ha : sliceAll (frontier.entering session.nowMs) = .ok admitted) :
    (batchOf granted frontier.idle admitted).map (·.1.seq) =
      session.running.map Job.seq ++ frontier.admitted.map (·.1.seq) := by
  have ht := congrArg (List.map Prod.snd) (h.batch_tickets hg ha)
  simpa [Job.ticket, Function.comp_def] using ht

/-- Nobody on the frontier is finished before the batch is served. -/
theorem Frontier.Prepared.unfinished (h : frontier.Prepared engine session)
    (hg : sliceAll frontier.granted = .ok granted)
    (ha : sliceAll (frontier.entering session.nowMs) = .ok admitted) :
    ∀ entry ∈ frontier.waiting ++ (batchOf granted frontier.idle admitted).map (·.1.entry),
      entry.state.status ≠ .finished := by
  intro entry he
  rcases List.mem_append.mp he with he | he
  · rw [(h.waiting entry he).waiting]
    decide
  · obtain ⟨item, hi, rfl⟩ := List.mem_map.mp he
    exact (h.batched hg ha item hi).unfinished

/-- Once the slices are built, the heap holds their requests with the KV load handed over. -/
theorem RepresentsFrontier.batch_held (hr : RepresentsFrontier locals session frontier)
    (h : frontier.Prepared engine session)
    (hw : session.Wf engine.config engine.timelineMode requests)
    (hg : sliceAll frontier.granted = .ok granted)
    (ha : sliceAll (frontier.entering session.nowMs) = .ok admitted) :
    ∀ entry ∈ frontier.waiting ++ (batchOf granted frontier.idle admitted).map (·.1.entry),
      Held { locals with heap := (locals.heap.putAll granted).putAll admitted } entry := by
  have hd := (h.batch_distinct hw hg ha).seqs
  simp only [batchOf, List.map_append, List.map_map, Function.comp_def, Job.entry_seq] at hd
  have hbatch := hd.of_append_right
  have hgranted : ∀ {ref : ℕ}, ref ∈ granted.map (·.1.seq) → ref ∉ admitted.map (·.1.seq) :=
    fun hmem ↦ hbatch.disjoint (List.mem_append_left _ hmem)
  have hother : ∀ {ref : ℕ}, ref ∉ granted.map (·.1.seq) → ref ∉ admitted.map (·.1.seq) →
      (locals.heap.putAll granted).putAll admitted ref = locals.heap ref :=
    fun hng hna ↦ (Heap.putAll_other hna).trans (Heap.putAll_other hng)
  intro entry he
  simp only [batchOf, List.map_append, List.map_map, List.mem_append, List.mem_map,
    Function.comp_apply] at he
  rcases he with he | ((⟨built, hb, rfl⟩ | ⟨job, hj, rfl⟩) | ⟨built, hb, rfl⟩)
  · have hseq := List.mem_map_of_mem (f := Entry.seq) he
    refine (hr.waiting entry he).restate entry rfl rfl rfl rfl ?_
    rw [hother (fun hm ↦ hd.disjoint hseq (List.mem_append_left _ (List.mem_append_left _ hm)))
      (fun hm ↦ hd.disjoint hseq (List.mem_append_right _ hm))]
    exact (hr.waiting entry he).heap_eq
  · obtain ⟨planned, hp, hs⟩ := sliced_mem (h.sliced_granted hg) hb
    have hmem : planned.1 ∈ session.running := by
      rw [← h.running_eq]
      exact List.mem_append_left _ (List.mem_map_of_mem hp)
    refine (hr.running _ hmem).restate built.1.entry ?_ ?_ ?_ ?_ ?_
    · simp [hs.job_eq, Job.handOver, Job.seq]
    · simp [hs.job_eq, Job.handOver, Job.id]
    · simp [hs.job_eq, Job.handOver, Job.entry]
    · simp [hs.job_eq, Job.handOver, Job.entry]
    · rw [Job.entry_seq, Heap.putAll_other (hgranted (List.mem_map_of_mem hb)),
        Heap.putAll_mem hbatch.of_append_left.of_append_left hb]
      rfl
  · have hmem : job ∈ session.running := by
      rw [← h.running_eq]
      exact List.mem_append_right _ hj
    refine (hr.running _ hmem).restate job.entry rfl rfl rfl rfl ?_
    rw [Job.entry_seq, hother
      (fun hm ↦ hbatch.of_append_left.disjoint hm (List.mem_map_of_mem hj))
      (fun hm ↦ hbatch.disjoint (List.mem_append_right _ (List.mem_map_of_mem hj)) hm)]
    exact (hr.running _ hmem).heap_eq
  · obtain ⟨planned, hp, hs⟩ := sliced_mem (h.sliced_admitted ha) hb
    obtain ⟨item, hi, rfl⟩ := List.mem_map.mp hp
    refine (hr.admitted _ hi).restate built.1.entry ?_ ?_ ?_ ?_ ?_
    · simp [hs.job_eq, Job.handOver, Job.seq, Job.enter]
    · simp [hs.job_eq, Job.handOver, Job.id, Job.enter]
    · simp [hs.job_eq, Job.handOver, Job.entry, Job.enter]
    · simp [hs.job_eq, Job.handOver, Job.entry, Job.enter]
    · exact Heap.putAll_mem hbatch.of_append_right hb

/-- After the waits are recorded, everything is ready for the slices to be applied. -/
theorem RepresentsFrontier.waited_held {heap : Heap} (facts : IterationFacts)
    (h : frontier.Prepared engine session)
    (hw : session.Wf engine.config engine.timelineMode requests)
    (hg : sliceAll frontier.granted = .ok granted)
    (ha : sliceAll (frontier.entering session.nowMs) = .ok admitted)
    (hshape : facts.shape.requestSlices = (granted ++ admitted).map Prod.snd)
    (hheld : ∀ entry ∈ frontier.waiting ++
      (batchOf granted frontier.idle admitted).map (·.1.entry), Held locals entry)
    (hheap : ∀ entry ∈ frontier.waiting ++
      (batchOf granted frontier.idle admitted).map (·.1.entry),
      heap entry.seq = if entry.id ∈ scheduledIds granted admitted then entry.state
        else entry.state.sitOut engine.timelineMode facts.durationMs) :
    (∀ item ∈ batchOf granted frontier.idle admitted,
      ItemHeld engine.timelineMode facts
        (contributionsOf facts.breakdown facts.shape facts.shape.requestSlices ∅)
        { locals with heap } item) ∧
      ∀ entry ∈ frontier.waiting,
        Held { locals with heap } (entry.sitOut engine.timelineMode facts.durationMs) := by
  have hid := h.sliced_ids hg ha
  have hd := h.batch_distinct hw hg ha
  obtain ⟨hwaiting, hidle, -⟩ := sitting_out_count hid hd
  have hids := scheduled_ids_eq hid
  have hnodup : (facts.shape.requestSlices.map ScheduledSlice.requestId).Nodup := by
    have hall := hd.ids
    simp only [batchOf, List.map_append, List.map_map, Function.comp_def, Job.entry_id] at hall
    rw [hshape]
    show (scheduledIds granted admitted).Nodup
    rw [hids, List.map_append]
    refine hall.of_append_right.sublist ?_
    exact (List.sublist_append_left _ _).append (List.Sublist.refl _)
  obtain ⟨hshare, -⟩ := contributions_lookup facts.breakdown facts.shape hnodup ∅
  have hbuilt : ∀ built ∈ granted ++ admitted,
      (built.1, some built.2) ∈ batchOf granted frontier.idle admitted := by
    intro built hb
    rcases List.mem_append.mp hb with hb | hb
    · exact List.mem_append_left _ (List.mem_append_left _ (List.mem_map.mpr ⟨built, hb, rfl⟩))
    · exact List.mem_append_right _ (List.mem_map.mpr ⟨built, hb, rfl⟩)
  have hslice : ∀ built ∈ granted ++ admitted,
      Held { locals with heap } built.1.entry ∧ built.2.requestId = built.1.id ∧
        (contributionsOf facts.breakdown facts.shape facts.shape.requestSlices ∅).lookup
          built.1.id = some (sliceContribution facts.breakdown facts.shape built.2) := by
    intro built hb
    have hmem : built.1.entry ∈ frontier.waiting ++
        (batchOf granted frontier.idle admitted).map (·.1.entry) :=
      List.mem_append_right _ (List.mem_map.mpr ⟨_, hbuilt built hb, rfl⟩)
    have hsch : built.1.entry.id ∈ scheduledIds granted admitted := by
      rw [hids]
      exact List.mem_map.mpr ⟨built, hb, rfl⟩
    refine ⟨(hheld _ hmem).restate _ rfl rfl rfl rfl ?_, hid built hb, ?_⟩
    · rw [hheap _ hmem, if_pos hsch]
    · rw [← hid built hb]
      refine hshare built.2 ?_
      rw [hshape]
      exact List.mem_map_of_mem hb
  constructor
  · intro item hi
    simp only [batchOf, List.mem_append, List.mem_map] at hi
    rcases hi with (⟨built, hb, rfl⟩ | ⟨job, hj, rfl⟩) | ⟨built, hb, rfl⟩
    · exact hslice built (List.mem_append_left _ hb)
    · have hmem : job.entry ∈ frontier.waiting ++
          (batchOf granted frontier.idle admitted).map (·.1.entry) := by
        refine List.mem_append_right _ (List.mem_map.mpr ⟨(job, none), ?_, rfl⟩)
        exact List.mem_append_left _ (List.mem_append_right _ (List.mem_map.mpr ⟨job, hj, rfl⟩))
      refine (hheld _ hmem).restate (job.sitOut engine.timelineMode facts.durationMs).entry
        (by simp) (by simp) rfl rfl ?_
      have hstate := hheap _ hmem
      rw [Job.entry_id, if_neg (hidle job hj)] at hstate
      rw [Job.entry_seq, Job.sitOut_seq]
      exact hstate
    · exact hslice built (List.mem_append_right _ hb)
  · intro entry he
    have hmem := List.mem_append_left
      ((batchOf granted frontier.idle admitted).map (·.1.entry)) he
    refine (hheld _ hmem).restate (entry.sitOut engine.timelineMode facts.durationMs)
      (by simp) (by simp) rfl rfl ?_
    rw [Entry.sitOut_seq, hheap _ hmem, if_neg (hwaiting entry he)]
    rfl

/-- What an iteration of the source leaves, against the next session. `locals` is the
source's state before the iteration, `frontier` the batch it was prepared for. -/
structure IterationAgrees (session : Session) (frontier : Frontier) (locals : Locals)
    (result : ℚ × Locals) (session' : Session) : Prop where
  now_eq : result.1 = session'.nowMs
  represents : Represents result.2 session'
  states_eq : result.2.statesById = locals.statesById
  completed : ∃ news, session'.completed = session.completed ++ frontier.completed ++ news ∧
    result.2.requestMetrics = locals.requestMetrics ++ news.map Prod.snd
  iterations : ∃ metric, session'.iterationMetrics = session.iterationMetrics ++ [metric] ∧
    result.2.iterationMetrics = locals.iterationMetrics ++ [metric]
  iteration_id : session'.iterationId = session.iterationId + 1
  pending_eq : session'.pending = session.pending
  arrivals_eq : session'.arrivals = session.arrivals

/-- The source runs the iteration of the session. -/
theorem run_iteration_agree {world₀ world world₁ : World C K}
    (hw : session.Wf engine.config engine.timelineMode requests)
    (hprepares : Prepares engine session world₀ frontier world₁)
    (hr : RepresentsFrontier locals session frontier) (instanceUuid : String) :
    Agree Eq (IterationAgrees session frontier locals)
      (engine.runIteration instanceUuid session.nowMs session.iterationId locals world)
      (engine.iterate instanceUuid session frontier world) := by
  have h := hprepares.prepared hw
  rw [Engine.runIteration, schedule_eq hw hprepares hr, Engine.iterate]
  cases hg : sliceAll frontier.granted with
  | error e => exact .error rfl
  | ok granted =>
  cases ha : sliceAll (frontier.entering session.nowMs) with
  | error e => exact .error rfl
  | ok admitted =>
  simp only [except_ok_bind, check_ok_bind]
  refine Agree.bind_check fun shape hshape ↦ ?_
  by_cases hne : shape.batchSize = 0
  · simp only [if_pos hne]
    exact .error rfl
  simp only [if_neg hne]
  refine Agree.bind_same fun latency world' _ ↦ ?_
  have hd := h.batch_distinct hw hg ha
  have hheld := hr.batch_held h hw hg ha
  have hslices := (batch_shape_ok hshape).2.1
  have hrefs : frontier.waiting.map Entry.seq ++
      (session.running.map Job.seq ++ frontier.admitted.map (·.1.seq)) =
        (frontier.waiting ++ (batchOf granted frontier.idle admitted).map (·.1.entry)).map
          Entry.seq := by
    rw [← h.batch_refs hg ha]
    simp [Function.comp_def]
  obtain ⟨heap, hwait, hheap⟩ := compute_wait_eq engine (scheduledIds granted admitted)
    latency.duration_nonneg hrefs hd (fun entry he ↦ (hheld entry he).heap_eq)
    (h.unfinished hg ha)
  rw [(sitting_out_count (h.sliced_ids hg ha) hd).2.2, scheduledIds, ← hslices] at hwait
  simp only [hwait, check_ok_bind, Engine.applyScheduleResult, split_contributions_eq, bind_assoc,
    pure_bind]
  refine Agree.bind_check fun breakdown _ ↦ ?_
  obtain ⟨hitems, hleft⟩ := RepresentsFrontier.waited_held
    { shape, breakdown, durationMs := latency.durationMs,
      finishMs := engine.clock.add session.nowMs latency.durationMs }
    h hw hg ha hslices hheld hheap
  have happly := apply_slices_agree engine
    { shape, breakdown, durationMs := latency.durationMs,
      finishMs := engine.clock.add session.nowMs latency.durationMs }
    (contributionsOf breakdown shape shape.requestSlices ∅)
    (batchOf granted frontier.idle admitted) {} [] { locals with
      heap
      waiting := frontier.waiting.map Entry.seq
      running := session.running.map Job.seq ++ frontier.admitted.map (·.1.seq) } world'
    (hd.sublist (List.sublist_append_right _ _)) (h.batched hg ha)
    (fun item hi ↦ (hitems item hi).congr rfl rfl rfl rfl)
  rw [batch_slices, ← hslices] at happly
  rw [← hr.queue_eq]
  refine Agree.bind happly ?_
  rintro ⟨totals, records, locals'⟩ applied world'' _ - - rfl hagree
  obtain ⟨rfl, rfl, hlocals, hother, hrunning, hfilter⟩ := hagree
  obtain ⟨heap', rfl⟩ : ∃ heap', locals' = { locals with
      heap := heap'
      waiting := frontier.waiting.map Entry.seq
      running := session.running.map Job.seq ++ frontier.admitted.map (·.1.seq)
      requestMetrics := locals.requestMetrics ++ applied.completed.map Prod.snd
      transferQueue := applied.transferQueue } := ⟨locals'.heap, hlocals⟩
  dsimp only [List.nil_append] at hother hrunning hfilter ⊢
  refine Agree.bind_same fun metric _ _ ↦ Agree.bind_same fun _ _ _ ↦ ?_
  refine Agree.bind_same fun _ _ _ ↦ .ok rfl ?_
  refine ⟨rfl, ⟨?_, ?_, ?_, rfl⟩, rfl, ⟨applied.completed, rfl, rfl⟩, ⟨metric, rfl, rfl⟩, rfl, rfl,
    rfl⟩
  · simp [Function.comp_def]
  · rw [h.batch_refs hg ha] at hfilter
    exact hfilter
  · intro entry he
    rcases List.mem_append.mp he with hmem | hmem
    · obtain ⟨job, hj, rfl⟩ := List.mem_map.mp hmem
      exact (hrunning job hj).congr rfl rfl rfl rfl
    · obtain ⟨kept, hkept, rfl⟩ := List.mem_map.mp hmem
      have hseq := (hd.apart hkept).1
      rw [List.map_map] at hseq
      refine (hleft kept hkept).congr ?_ rfl rfl rfl
      exact hother _ (by simpa [Function.comp_def] using hseq)

end Prepared

end InferTwin
