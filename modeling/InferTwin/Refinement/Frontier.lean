import InferTwin.Refinement.Held

namespace InferTwin

open Effect

variable {C K : Type}

section Running

variable {timelineMode : TimelineMode} {nowMs lostMs : ℚ} {jobs : List Job} {locals : Locals}

/-- The running requests were looked up before, so preparing them does nothing. -/
theorem prepare_running_eq (engine : Engine C K) (atMs : ℚ)
    (hr : ∀ job ∈ jobs, job.Running timelineMode nowMs lostMs)
    (hh : ∀ job ∈ jobs, Held locals job.entry) :
    engine.prepareRunning atMs (jobs.map Job.seq) locals = pure locals := by
  induction jobs with
  | nil => rfl
  | cons job jobs ih =>
    have hheld := hh _ (List.mem_cons_self ..)
    have hheap : locals.heap job.seq = job.state := hheld.heap_eq
    have hdone := (hr _ (List.mem_cons_self ..)).ledger.knows.done
    have hreq : locals.requestsById.getItem (locals.heap job.seq).requestId = .ok job.request := by
      rw [hheap]
      exact Dict.getItem_eq_ok hheld.request_eq
    have hrest := ih (List.forall_mem_of_forall_mem_cons hr) (List.forall_mem_of_forall_mem_cons hh)
    funext world
    simp only [List.map_cons, Engine.prepareRunning, Engine.ensureLookup, hreq, bind_apply,
      check_ok_apply]
    simp only [hheap, hdone, if_true, pure_apply]
    exact congrFun hrest world

/-- No running request is finished before it is served. -/
theorem finish_zero_miss_running (atMs : ℚ)
    (hr : ∀ job ∈ jobs, job.Running timelineMode nowMs lostMs)
    (hh : ∀ job ∈ jobs, Held locals job.entry) :
    Engine.finishZeroMissRequests atMs (jobs.map Job.seq) locals = .ok locals := by
  induction jobs with
  | nil => rfl
  | cons job jobs ih =>
    have hheap : locals.heap job.seq = job.state := (hh _ (List.mem_cons_self ..)).heap_eq
    have hrun := hr _ (List.mem_cons_self ..)
    have hrem := hrun.ledger.knows.looked_up.remaining_eq
    simp only [List.map_cons, Engine.finishZeroMissRequests, hheap, hrem, bind, Except.bind]
    rw [if_pos hrun.remaining_pos.ne']
    exact ih (List.forall_mem_of_forall_mem_cons hr) (List.forall_mem_of_forall_mem_cons hh)

theorem filter_running (hr : ∀ job ∈ jobs, job.Running timelineMode nowMs lostMs)
    (hh : ∀ job ∈ jobs, Held locals job.entry) :
    (jobs.map Job.seq).filter (fun ref ↦ (locals.heap ref).status ≠ .finished) =
      jobs.map Job.seq := by
  refine List.filter_eq_self.mpr fun ref href ↦ ?_
  obtain ⟨job, hj, rfl⟩ := List.mem_map.mp href
  have hheap : locals.heap job.seq = job.state := (hh job hj).heap_eq
  simp [hheap, (hr job hj).running]

/-- The frontier of the source counts the running requests that are served. -/
theorem plan_running_eq (engine : Engine C K) (frontier : FrontierPlan)
    (hc : engine.config.enableChunkedPrefill = false → jobs = [])
    (hr : ∀ job ∈ jobs, job.Running timelineMode nowMs lostMs)
    (hh : ∀ job ∈ jobs, Held locals job.entry) (hb : frontier.tokenBudget ≠ 0)
    (hs : frontier.plannedSlices < engine.config.maxNumSeqs) :
    let served := serve engine.config frontier.tokenBudget
      (engine.config.maxNumSeqs - frontier.plannedSlices) jobs
    engine.planRunning locals.heap (jobs.map Job.seq) frontier =
      .ok (decide (frontier.tokenBudget - grantedTokens served.1 = 0 ∨
          frontier.plannedSlices + served.1.length ≥ engine.config.maxNumSeqs),
        { tokenBudget := frontier.tokenBudget - grantedTokens served.1
          plannedSlices := frontier.plannedSlices + served.1.length
          plan := frontier.plan ++ served.1.map fun granted ↦ (granted.1.seq, granted.2) }) := by
  induction jobs generalizing frontier with
  | nil =>
    have hs' : ¬ engine.config.maxNumSeqs ≤ frontier.plannedSlices := not_le.mpr hs
    simp [Engine.planRunning, serve, grantedTokens, hb, hs']
  | cons job jobs ih =>
    have hheap : locals.heap job.seq = job.state := (hh _ (List.mem_cons_self ..)).heap_eq
    have hrun := hr _ (List.mem_cons_self ..)
    have hplan := hrun.ledger.knows.looked_up.planned_eq engine.config frontier.tokenBudget
    have hchunk : engine.config.enableChunkedPrefill = true := by
      cases he : engine.config.enableChunkedPrefill with
      | true => rfl
      | false => exact absurd (hc he) (by simp)
    have hpos := engine.config.grant_pos hrun.remaining_pos (Nat.pos_of_ne_zero hb) (.inl hchunk)
    have hle := engine.config.grant_le_budget job.state.remaining frontier.tokenBudget
    have hseats : ¬(frontier.tokenBudget = 0 ∨
        engine.config.maxNumSeqs - frontier.plannedSlices = 0) := by
      rintro (h | h)
      · exact hb h
      · omega
    simp only [List.map_cons, Engine.planRunning, hheap, hrun.running, hplan, bind, Except.bind,
      ne_eq, not_true_eq_false, if_false, hpos.ne', serve, if_neg hseats, grantedTokens,
      List.sum_cons, List.length_cons, FrontierPlan.count]
    by_cases hstop : frontier.tokenBudget -
        engine.config.grant job.state.remaining frontier.tokenBudget = 0 ∨
          frontier.plannedSlices + 1 ≥ engine.config.maxNumSeqs
    · have hnone : serve engine.config
          (frontier.tokenBudget - engine.config.grant job.state.remaining frontier.tokenBudget)
          (engine.config.maxNumSeqs - frontier.plannedSlices - 1) jobs = ([], jobs) := by
        cases jobs with
        | nil => rfl
        | cons next jobs =>
          unfold serve
          rw [if_pos (by omega)]
      refine (if_pos hstop).trans ?_
      rw [hnone]
      simp [hstop, pure, Except.pure]
    · have hgo := not_or.mp hstop
      have hrest := ih (frontier.count job.seq
        (engine.config.grant job.state.remaining frontier.tokenBudget))
        (fun he ↦ by simp [hchunk] at he) (List.forall_mem_of_forall_mem_cons hr)
        (List.forall_mem_of_forall_mem_cons hh) hgo.1 (not_le.mp hgo.2)
      simp only [FrontierPlan.count] at hrest
      refine (if_neg hstop).trans ?_
      rw [hrest, Nat.sub_sub engine.config.maxNumSeqs]
      simp [grantedTokens, Nat.sub_sub, Nat.add_assoc, Nat.add_comm]

end Running

/-- Looking a waiting request up. -/
theorem ensure_lookup_agree (engine : Engine C K) {nowMs lostMs : ℚ} {entry : Entry}
    {locals : Locals} (world : World C K) (hw : entry.Waiting engine.timelineMode nowMs lostMs)
    (hh : Held locals entry) :
    Agree Eq
      (fun locals' job ↦ Held locals' job.entry ∧ Frame [entry] locals locals' ∧
        locals' = { locals with heap := locals'.heap, lookupById := locals'.lookupById })
      (engine.ensureLookup nowMs entry.seq entry.request locals world)
      (engine.look nowMs entry world) := by
  have hheap := hh.heap_eq
  cases hl : entry.lookup with
  | some lookup =>
    have hdone : entry.state.cacheLookupDone = true := (hw.known lookup hl).1.knows.done
    simp only [Engine.ensureLookup, Engine.look, hheap, hdone, hl, if_true]
    refine .ok rfl ⟨?_, Frame.refl _ _, rfl⟩
    exact ⟨hh.heap_eq, hh.state_eq, hh.request_eq, fun l hl' ↦ hh.lookup_eq l (hl.trans hl')⟩
  | none =>
    have hdone := hw.fresh hl
    simp only [Engine.ensureLookup, Engine.look, hheap, hdone, hl, Bool.false_eq_true, if_false]
    refine Agree.bind_same ?_
    rintro ⟨state, lookup⟩ world' hlook
    obtain ⟨raw, cache, -, -, -, -, rfl, -⟩ := lookup_request_ok.mp hlook
    refine .ok rfl ⟨⟨Function.update_self .., hh.state_eq, hh.request_eq, ?_⟩, ?_, rfl⟩
    · intro l hl'
      cases hl'
      exact Finmap.lookup_insert _
    · refine ⟨fun ref hr ↦ ?_, fun id hid ↦ ?_, rfl, rfl⟩
      · exact Function.update_of_ne (fun he ↦ hr (by simp [he])) _ _
      · exact Finmap.lookup_insert_of_ne _ fun he ↦ hid (by simp [he, Entry.id])

/-- The source finishes a zero-miss request in place. -/
theorem finish_zero_miss_request_eq {nowMs : ℚ} {ref : ℕ} (locals : Locals) {job : Job}
    (hheap : locals.heap ref = job.state) (hs : job.state.status ≠ .finished) :
    Engine.finishZeroMissRequest nowMs ref job.request job.lookup locals =
      (job.complete nowMs).map fun completion ↦ { locals with
        heap := Function.update locals.heap ref (finishZeroMiss nowMs job.state)
        requestMetrics := locals.requestMetrics ++ [completion.2] } := by
  unfold Engine.finishZeroMissRequest Job.complete
  rw [hheap, if_neg hs, except_bind_map]
  rfl

/-- What the source's scan of the waiting queue leaves, against the scan of a session.
`front` is the part of the queue it has walked over. -/
structure ScanAgrees (front : List ℕ) (entries : List Entry) (frontier : FrontierPlan)
    (locals : Locals) (result : FrontierPlan × Locals) (scan : Scan) : Prop where
  locals_eq : result.2 = { locals with
    heap := result.2.heap
    lookupById := result.2.lookupById
    waiting := front ++ scan.admitted.map (·.1.seq) ++ scan.waiting.map Entry.seq
    requestMetrics := locals.requestMetrics ++ scan.completed.map Prod.snd }
  frame : Frame entries locals result.2
  admitted : ∀ admitted ∈ scan.admitted, Held result.2 admitted.1.entry
  waiting : ∀ entry ∈ scan.waiting, Held result.2 entry
  plan_eq : result.1.plan =
    frontier.plan ++ scan.admitted.map fun admitted ↦ (admitted.1.seq, admitted.2)

theorem Frame.update {entry : Entry} {locals locals' : Locals} (h : Frame [entry] locals locals')
    (state : RequestState) (waiting : List ℕ) (requestMetrics : List BatchAwareRequestMetrics) :
    Frame [entry] locals { locals' with
      heap := Function.update locals'.heap entry.seq state, waiting, requestMetrics } where
  heap_eq ref hr := (Function.update_of_ne (fun he ↦ hr (by simp [he])) _ _).trans (h.heap_eq ref hr)
  lookup_eq := h.lookup_eq
  states_eq := h.states_eq
  requests_eq := h.requests_eq

namespace ScanAgrees

variable {front : List ℕ} {entry : Entry} {entries : List Entry} {frontier : FrontierPlan}
  {locals locals' : Locals} {result : FrontierPlan × Locals} {scan : Scan} {job : Job}

theorem enter {tokens : ℕ} (hd : Distinct (entry :: entries)) (hframe : Frame [entry] locals locals')
    (hlocals : locals' = { locals with heap := locals'.heap, lookupById := locals'.lookupById })
    (hjob : Held locals' job.entry) (hseq : job.seq = entry.seq) (hid : job.id = entry.id)
    (h : ScanAgrees (front ++ [entry.seq]) entries (frontier.count entry.seq tokens) locals' result
      scan) :
    ScanAgrees front (entry :: entries) frontier locals result
      { scan with admitted := (job, tokens) :: scan.admitted } where
  locals_eq := by
    rw [h.locals_eq, hlocals]
    simp [hseq]
  frame := hframe.trans h.frame
  admitted := by
    refine List.forall_mem_cons.mpr ⟨h.frame.held hjob ?_ ?_, h.admitted⟩
    · rw [Job.entry_seq, hseq]
      exact hd.head_seq
    · rw [Job.entry_id, hid]
      exact hd.head_id
  waiting := h.waiting
  plan_eq := by
    rw [h.plan_eq]
    simp [FrontierPlan.count, hseq]

theorem finish {state : RequestState} {waiting : List ℕ} {completion : Completion}
    (hframe : Frame [entry] locals locals')
    (hlocals : locals' = { locals with heap := locals'.heap, lookupById := locals'.lookupById })
    (h : ScanAgrees front entries frontier { locals' with
      heap := Function.update locals'.heap entry.seq state
      waiting
      requestMetrics := locals'.requestMetrics ++ [completion.2] } result scan) :
    ScanAgrees front (entry :: entries) frontier locals result
      { scan with completed := completion :: scan.completed } where
  locals_eq := by
    rw [h.locals_eq, hlocals]
    simp
  frame := (hframe.update state waiting _).trans h.frame
  admitted := h.admitted
  waiting := h.waiting
  plan_eq := h.plan_eq

end ScanAgrees

/-- The scan of the source follows the scan of the session. -/
theorem scan_agree (engine : Engine C K) {nowMs lostMs : ℚ} (entries : List Entry)
    (front : List ℕ) (frontier : FrontierPlan) (seats : ℕ) (locals : Locals) (world : World C K)
    (hwaiting : locals.waiting = front ++ entries.map Entry.seq) (hd : Distinct entries)
    (hw : ∀ entry ∈ entries, entry.Waiting engine.timelineMode nowMs lostMs)
    (hh : ∀ entry ∈ entries, Held locals entry)
    (hseats : frontier.plannedSlices + seats = engine.config.maxNumSeqs) :
    Agree Eq (ScanAgrees front entries frontier locals)
      (engine.scanWaiting nowMs front.length (entries.map Entry.seq) frontier locals world)
      (engine.scan nowMs frontier.tokenBudget seats entries world) := by
  induction entries generalizing front frontier seats locals world with
  | nil =>
    refine .ok rfl ⟨?_, Frame.refl _ _, by simp, by simp, by simp⟩
    simp only [List.map_nil, List.append_nil] at hwaiting
    simp [← hwaiting]
  | cons entry entries ih =>
    simp only [List.map_cons, Engine.scanWaiting, Engine.scan]
    by_cases hfull : seats = 0
    · rw [if_pos (by omega), if_pos hfull]
      refine .ok rfl ⟨?_, Frame.refl _ _, by simp, hh, by simp⟩
      simp only [List.map_nil, List.append_nil, ← hwaiting]
    rw [if_neg (by omega), if_neg hfull]
    have hentry := hw _ (List.mem_cons_self ..)
    have hheld := hh _ (List.mem_cons_self ..)
    have hreq : locals.requestsById.getItem (locals.heap entry.seq).requestId =
        .ok entry.request := by
      rw [hheld.heap_eq]
      exact Dict.getItem_eq_ok hheld.request_eq
    rw [hreq, check_ok_bind]
    refine Agree.bind (ensure_lookup_agree engine world hentry hheld) ?_
    rintro locals' job world' _ - hlook rfl ⟨hjob, hframe, hlocals⟩
    have hlooks := looks_of_look hlook
    have hready := hentry.look hlooks
    have hseq : job.seq = entry.seq := hlooks.seq_eq
    have hheap : locals'.heap entry.seq = job.state := by
      rw [← hseq]
      exact hjob.heap_eq
    have hl := hready.ledger.knows.looked_up
    have hid : job.id = entry.id := hlooks.id_eq
    have hsub : [entry.seq] ++ entries.map Entry.seq = entry.seq :: entries.map Entry.seq := rfl
    have hrest : ∀ other ∈ entries, Held locals' other := by
      intro other ho
      refine hframe.held (hh other (List.mem_cons_of_mem _ ho)) ?_ ?_
      · exact fun he ↦ hd.head_seq (List.mem_singleton.mp he ▸ List.mem_map_of_mem ho)
      · exact fun he ↦ hd.head_id (List.mem_singleton.mp he ▸ List.mem_map_of_mem ho)
    have hwaiting' : locals'.waiting = front ++ [entry.seq] ++ entries.map Entry.seq := by
      rw [hlocals]
      simp [hwaiting]
    have hlength : front.length + 1 = (front ++ [entry.seq]).length := by simp
    have hnext := ih (front ++ [entry.seq])
    rw [hheap, hl.remaining_eq, check_ok_bind, hl.has_pending_eq, check_ok_bind,
      hl.planned_eq engine.config, check_ok_bind, hlength]
    by_cases hr : job.state.remaining = 0
    · rw [if_pos hr, if_pos hr]
      by_cases hload : job.state.pendingLoad = (0, 0)
      · have hrequest : locals'.requestsById.getItem job.state.requestId = .ok job.request :=
          Dict.getItem_eq_ok hjob.request_eq
        have hlookup : locals'.lookupById.getItem job.state.requestId = .ok job.lookup :=
          Dict.getItem_eq_ok (hjob.lookup_eq _ rfl)
        have hs : job.state.status ≠ .finished := by
          rw [hready.waiting]
          decide
        have hnone : ¬decide (job.state.pendingLoad ≠ (0, 0)) = true := by simpa using hload
        rw [if_neg hnone, if_neg (not_not.mpr hload), hrequest, check_ok_bind, hlookup,
          check_ok_bind,
          finish_zero_miss_request_eq
            { locals' with waiting := locals'.waiting.eraseIdx front.length } hheap hs]
        refine Agree.bind_check fun completion _ ↦ ?_
        refine (ih front frontier seats _ world' ?_ hd.tail
          (List.forall_mem_of_forall_mem_cons hw) ?_ hseats).map_right ?_
        · simp [hwaiting', List.eraseIdx_append_of_length_le]
        · intro other ho
          refine (hframe.update _ _ _).held (hh other (List.mem_cons_of_mem _ ho)) ?_ ?_
          · exact fun he ↦ hd.head_seq (List.mem_singleton.mp he ▸ List.mem_map_of_mem ho)
          · exact fun he ↦ hd.head_id (List.mem_singleton.mp he ▸ List.mem_map_of_mem ho)
        · intro result scan hagree
          exact hagree.finish hframe hlocals
      · rw [if_pos (decide_eq_true hload), if_pos hload]
        have hih := hnext (frontier.count entry.seq 0) (seats - 1) locals' world' hwaiting' hd.tail
          (List.forall_mem_of_forall_mem_cons hw) hrest
          (by simp only [FrontierPlan.count]; omega)
        refine hih.map_right ?_
        intro result scan hagree
        exact hagree.enter hd hframe hlocals hjob hseq hid
    · rw [if_neg hr, if_neg hr]
      by_cases hgrant : engine.config.grant job.state.remaining frontier.tokenBudget = 0
      · rw [if_pos hgrant, if_pos hgrant, ite_self]
        refine .ok rfl ⟨?_, hframe.append entries, by simp, ?_, by simp⟩
        · rw [hlocals]
          simp [hwaiting, hseq]
        · exact List.forall_mem_cons.mpr ⟨hjob, hrest⟩
      · have hbudget : frontier.tokenBudget ≠ 0 := by
          intro hb
          have := engine.config.grant_le_budget job.state.remaining frontier.tokenBudget
          omega
        rw [if_neg hbudget, if_neg hgrant, if_neg hgrant]
        have hih := hnext
          (frontier.count entry.seq (engine.config.grant job.state.remaining frontier.tokenBudget))
          (seats - 1) locals' world' hwaiting' hd.tail (List.forall_mem_of_forall_mem_cons hw) hrest
          (by simp only [FrontierPlan.count]; omega)
        refine hih.map_right ?_
        intro result scan hagree
        exact hagree.enter hd hframe hlocals hjob hseq hid

/-- What preparing a batch leaves in the source, against the frontier of a session. -/
structure FrontierAgrees (session : Session) (locals : Locals) (result : FrontierPlan × Locals)
    (frontier : Frontier) : Prop where
  locals_eq : result.2 = { locals with
    heap := result.2.heap
    lookupById := result.2.lookupById
    waiting := frontier.admitted.map (·.1.seq) ++ frontier.waiting.map Entry.seq
    requestMetrics := locals.requestMetrics ++ frontier.completed.map Prod.snd }
  running : ∀ job ∈ session.running, Held result.2 job.entry
  admitted : ∀ admitted ∈ frontier.admitted, Held result.2 admitted.1.entry
  waiting : ∀ entry ∈ frontier.waiting, Held result.2 entry
  plan_eq : result.1.plan =
    (frontier.granted ++ frontier.admitted).map fun planned ↦ (planned.1.seq, planned.2)

theorem scan_full (engine : Engine C K) (nowMs : ℚ) (tokenBudget : ℕ) (entries : List Entry) :
    engine.scan nowMs tokenBudget 0 entries = pure { waiting := entries } := by
  cases entries <;> rfl

/-- The source prepares the batch of the session. -/
theorem frontier_agree (engine : Engine C K) {session : Session} {locals : Locals}
    {requests : List SimulationRequest} (world : World C K)
    (hw : session.Wf engine.config engine.timelineMode requests) (h : Represents locals session) :
    Agree Eq (FrontierAgrees session locals)
      (engine.prepareSchedulerFrontier session.nowMs locals world)
      (engine.frontier session world) := by
  have hrun := hw.running
  have hheld : ∀ job ∈ session.running, Held locals job.entry :=
    fun job hj ↦ h.held _ (List.mem_append_left _ (List.mem_map_of_mem hj))
  have hwait : ∀ entry ∈ session.waiting, Held locals entry :=
    fun entry he ↦ h.held _ (List.mem_append_right _ he)
  have hd : Distinct session.waiting :=
    hw.active_distinct.sublist (List.sublist_append_right _ _)
  have hprepare := prepare_running_eq engine session.nowMs hrun hheld
  have hfinish := finish_zero_miss_running session.nowMs hrun hheld
  have hfilter := filter_running hrun hheld
  have hplan := plan_running_eq engine { tokenBudget := engine.config.maxNumBatchedTokens }
    hw.unchunked hrun hheld engine.config.tokens_pos.ne' engine.config.seqs_pos
  have hseats := (serve_budget engine.config engine.config.maxNumBatchedTokens
    engine.config.maxNumSeqs session.running).2
  simp only [Nat.sub_zero, Nat.zero_add, List.nil_append] at hplan
  rw [← h.running_eq] at hprepare hfinish hfilter hplan
  have hsource : engine.prepareSchedulerFrontier session.nowMs locals =
      engine.prepareWaitingFrontier session.nowMs locals.running locals >>= fun result ↦
        pure (result.1, { result.2 with running := locals.running }) := by
    simp only [Engine.prepareSchedulerFrontier, hprepare, hfinish, hfilter, pure_bind,
      check_ok_bind]
  rw [hsource, Engine.prepareWaitingFrontier, hplan, check_ok_bind, Engine.frontier]
  generalize serve engine.config engine.config.maxNumBatchedTokens engine.config.maxNumSeqs
    session.running = served at hseats ⊢
  dsimp only
  by_cases hb : engine.config.maxNumBatchedTokens - grantedTokens served.1 = 0
  · rw [if_pos hb, if_pos (by simp [hb]), pure_bind]
    refine .ok rfl ⟨?_, hheld, by simp, hwait, by simp⟩
    simp [← h.waiting_eq]
  rw [if_neg hb]
  by_cases hfull : engine.config.maxNumSeqs ≤ served.1.length
  · rw [if_pos (by simp [hfull]), pure_bind, Nat.sub_eq_zero_of_le hfull, scan_full, pure_bind]
    refine .ok rfl ⟨?_, hheld, by simp, hwait, by simp⟩
    simp [← h.waiting_eq]
  · rw [if_neg (by simp [hb, hfull])]
    have hscan := scan_agree engine session.waiting []
      { tokenBudget := engine.config.maxNumBatchedTokens - grantedTokens served.1
        plannedSlices := served.1.length
        plan := served.1.map fun granted ↦ (granted.1.seq, granted.2) }
      (engine.config.maxNumSeqs - served.1.length) locals world (by simpa using h.waiting_eq) hd
      hw.waiting hwait (Nat.add_sub_cancel' hseats)
    rw [List.length_nil, ← h.waiting_eq] at hscan
    refine Agree.bind hscan ?_
    rintro result scan world' - - - rfl hagree
    have hsame : { result.2 with running := locals.running } = result.2 := by
      rw [hagree.locals_eq]
    rw [hsame]
    refine .ok rfl ⟨?_, ?_, hagree.admitted, hagree.waiting, ?_⟩
    · rw [hagree.locals_eq]
      simp
    · intro job hj
      have hapart := hw.active_distinct.apart (List.mem_map_of_mem hj)
      exact hagree.frame.held (hheld job hj) hapart.1 hapart.2
    · rw [hagree.plan_eq]
      simp

end InferTwin
