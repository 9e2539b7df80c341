import InferTwin.Refinement.Reachable
import InferTwin.Sample

namespace InferTwin

open Effect

variable {C K σ : Type}

/-- The totals that a frontier scan keeps are those of the requests it has counted. -/
structure FrontierPlan.Tallied (plan : FrontierPlan) (config : SchedulerConfig) : Prop where
  spent : plan.tokenBudget + (plan.plan.map Prod.snd).sum = config.maxNumBatchedTokens
  seated : plan.plannedSlices = plan.plan.length

theorem planned_prefill_tokens_le {config : SchedulerConfig} {state : RequestState}
    {tokenBudget plannedTokens : ℕ}
    (h : plannedPrefillTokens config state tokenBudget = .ok plannedTokens) :
    plannedTokens ≤ tokenBudget := by
  unfold plannedPrefillTokens at h
  split_ifs at h with hb
  · cases h
    exact Nat.zero_le _
  · obtain ⟨remaining, -, h⟩ := except_bind_ok.mp h
    split_ifs at h with hr hc
    · cases h
      exact Nat.zero_le _
    · cases h
      exact Nat.zero_le _
    · cases h
      exact (min_le_left _ _).trans (min_le_right _ _)

namespace FrontierPlan.Tallied

variable {config : SchedulerConfig} {plan plan' : FrontierPlan}

theorem count (h : plan.Tallied config) (ref : ℕ) {plannedTokens : ℕ}
    (hle : plannedTokens ≤ plan.tokenBudget) : (plan.count ref plannedTokens).Tallied config := by
  obtain ⟨hspent, hseated⟩ := h
  constructor
  · simp only [FrontierPlan.count, List.map_append, List.sum_append, List.map_cons, List.map_nil,
      List.sum_singleton]
    omega
  · simp [FrontierPlan.count, hseated]

variable {engine : Engine C K}

theorem plan_running {heap : Heap} {refs : List ℕ} {done : Bool} (h : plan.Tallied engine.config)
    (hplan : engine.planRunning heap refs plan = .ok (done, plan')) :
    plan'.Tallied engine.config := by
  induction refs generalizing plan with
  | nil =>
    cases hplan
    exact h
  | cons ref refs ih =>
    unfold Engine.planRunning at hplan
    split_ifs at hplan with hstatus
    · exact ih h hplan
    obtain ⟨plannedTokens, hplanned, hplan⟩ := except_bind_ok.mp hplan
    have hle := planned_prefill_tokens_le hplanned
    by_cases hzero : plannedTokens = 0
    · rw [if_pos hzero] at hplan
      obtain ⟨remaining, -, hplan⟩ := except_bind_ok.mp hplan
      split_ifs at hplan with hr
      · obtain ⟨pending, -, hplan⟩ := except_bind_ok.mp hplan
        cases pending with
        | false => exact ih h hplan
        | true =>
          dsimp only at hplan
          rw [if_pos rfl] at hplan
          split_ifs at hplan
          · cases hplan
            exact h.count ref (Nat.zero_le _)
          · exact ih (h.count ref (Nat.zero_le _)) hplan
      · exact ih h hplan
    · rw [if_neg hzero] at hplan
      dsimp only at hplan
      split_ifs at hplan
      · cases hplan
        exact h.count ref hle
      · exact ih (h.count ref hle) hplan

theorem scan_waiting {nowMs : ℚ} {index : ℕ} {refs : List ℕ} {locals locals' : Locals}
    {world world' : World C K} (h : plan.Tallied engine.config)
    (hscan : engine.scanWaiting nowMs index refs plan locals world = .ok (plan', locals') world') :
    plan'.Tallied engine.config := by
  induction refs generalizing index plan locals world with
  | nil =>
    cases hscan
    exact h
  | cons ref refs ih =>
    unfold Engine.scanWaiting at hscan
    by_cases hfull : plan.plannedSlices ≥ engine.config.maxNumSeqs
    · rw [if_pos hfull] at hscan
      cases hscan
      exact h
    rw [if_neg hfull] at hscan
    simp only [bind_ok] at hscan
    obtain ⟨request, _, -, looked, _, -, remaining, _, -, hscan⟩ := hscan
    by_cases hr : remaining = 0
    · rw [if_pos hr] at hscan
      obtain ⟨pending, _, -, hscan⟩ := bind_ok.mp hscan
      cases pending with
      | true => exact ih (h.count ref (Nat.zero_le _)) hscan
      | false =>
        simp only [Bool.false_eq_true, if_false, bind_ok] at hscan
        obtain ⟨_, _, -, _, _, -, _, _, -, hscan⟩ := hscan
        exact ih h hscan
    · rw [if_neg hr] at hscan
      by_cases hspent : plan.tokenBudget = 0
      · rw [if_pos hspent] at hscan
        cases hscan
        exact h
      rw [if_neg hspent] at hscan
      obtain ⟨plannedTokens, _, hplanned, hscan⟩ := bind_ok.mp hscan
      have hle := planned_prefill_tokens_le (check_ok.mp hplanned).1
      split_ifs at hscan with hzero
      · cases hscan
        exact h
      · exact ih (h.count ref hle) hscan

/-- Preparing a batch keeps its two totals. -/
theorem prepare {nowMs : ℚ} {locals locals' : Locals} {world world' : World C K}
    (h : engine.prepareSchedulerFrontier nowMs locals world = .ok (plan, locals') world') :
    plan.Tallied engine.config := by
  unfold Engine.prepareSchedulerFrontier Engine.prepareWaitingFrontier at h
  simp only [bind_ok] at h
  obtain ⟨looked, _, -, finished, _, -, ⟨result, _⟩, _, hwaiting, h⟩ := h
  cases h
  obtain ⟨⟨done, served⟩, _, hrunning, hwaiting⟩ := hwaiting
  have hstart : FrontierPlan.Tallied { tokenBudget := engine.config.maxNumBatchedTokens }
      engine.config := ⟨rfl, rfl⟩
  have hserved := hstart.plan_running (check_ok.mp hrunning).1
  split_ifs at hwaiting with hdone
  · cases hwaiting
    exact hserved
  · exact hserved.scan_waiting hwaiting

end FrontierPlan.Tallied

/-- The batch that the scheduler builds is the one its frontier has counted: the same
requests in the same order, each with the same tokens. -/
structure FrontierPlan.Scheduled (plan : FrontierPlan) (config : SchedulerConfig)
    (locals : Locals) (shape : BatchShape) (admission : Admission) : Prop
    extends plan.Tallied config where
  slices_eq : shape.requestSlices.map (fun slice ↦
      (slice.requestId, slice.scheduledPrefillTokens)) =
    plan.plan.map fun planned ↦ ((locals.heap planned.1).requestId, planned.2)
  split : ∃ served admitted, plan.plan.map Prod.fst = served ++ admitted ∧
    served <+: locals.running ∧ locals.waiting = admitted ++ admission.waiting ∧
    admission.running = locals.running ++ admitted
  seats_le : shape.requestSlices.length ≤ config.maxNumSeqs
  tokens_le : (shape.requestSlices.map ScheduledSlice.scheduledPrefillTokens).sum ≤
    config.maxNumBatchedTokens
  chunk_le : ∀ slice ∈ shape.requestSlices,
    slice.scheduledPrefillTokens ≤ config.perRequestChunkLimit

theorem sliced_plan {planned : List (Job × ℕ)} {built : List (Job × ScheduledSlice)}
    (h : List.Forall₂ Sliced planned built) :
    built.map (fun item ↦ (item.2.requestId, item.2.scheduledPrefillTokens)) =
      planned.map fun item ↦ (item.1.id, item.2) := by
  induction h with
  | nil => rfl
  | cons hs _ ih =>
    have hd := hs.describes
    rw [List.map_cons, List.map_cons, ih, hd.id_eq, hd.tokens_eq]
    rfl

section Prepared

variable {engine : Engine C K} {session : Session} {frontier : Frontier} {locals : Locals}
  {requests : List SimulationRequest}

/-- The scheduler answers a prepared frontier with the batch that was counted. -/
theorem RepresentsFrontier.scheduled {plan : FrontierPlan} {world world' : World C K}
    (h : RepresentsFrontier locals session frontier)
    (hw : session.Wf engine.config engine.timelineMode requests)
    (hprepares : Prepares engine session world frontier world') (hleft : ¬frontier.Empty)
    (htallied : plan.Tallied engine.config)
    (hplan : plan.plan = (frontier.granted ++ frontier.admitted).map fun planned ↦
      (planned.1.seq, planned.2)) (instanceUuid : String) :
    ∃ shape admission, schedule engine.config instanceUuid session.iterationId session.nowMs
        locals.waiting locals.running locals.heap = .ok (shape, admission) ∧
      plan.Scheduled engine.config locals shape admission := by
  have hp := hprepares.prepared hw
  obtain ⟨granted, hg⟩ := slice_all_exists hp.sliceable_granted
  obtain ⟨admitted, ha⟩ := slice_all_exists hp.sliceable_entering
  have hnow : ¬session.nowMs < 0 := not_lt.mpr (hp.now_nonneg hleft)
  have hschedule := schedule_eq hw hprepares h instanceUuid
  rw [hg, ha, except_ok_bind, except_ok_bind, batchShape, dif_neg hnow] at hschedule
  have hslices : ((granted ++ admitted).map Prod.snd).map (fun slice : ScheduledSlice ↦
        (slice.requestId, slice.scheduledPrefillTokens)) =
      (frontier.granted ++ frontier.admitted).map fun planned ↦ (planned.1.id, planned.2) := by
    have hgranted := sliced_plan (hp.sliced_granted hg)
    have hadmitted := sliced_plan (hp.sliced_admitted ha)
    simp only [Frontier.entering, List.map_map, Function.comp_def] at hadmitted
    rw [List.map_map, List.map_append, List.map_append]
    exact congrArg₂ (· ++ ·) hgranted hadmitted
  have hheld : ∀ planned ∈ frontier.granted ++ frontier.admitted,
      (locals.heap planned.1.seq).requestId = planned.1.id := by
    intro planned hmem
    rcases List.mem_append.mp hmem with hmem | hmem
    · have hrunning : planned.1 ∈ session.running := by
        rw [← hp.running_eq]
        exact List.mem_append_left _ (List.mem_map_of_mem hmem)
      exact congrArg RequestState.requestId (h.running _ hrunning).heap_eq
    · exact congrArg RequestState.requestId (h.admitted _ hmem).heap_eq
  have htokens : ((granted ++ admitted).map Prod.snd).map ScheduledSlice.scheduledPrefillTokens =
      (frontier.granted ++ frontier.admitted).map Prod.snd := by
    have hsnd := congrArg (List.map Prod.snd) hslices
    simpa only [List.map_map, Function.comp_def] using hsnd
  refine ⟨_, _, hschedule, htallied, ?_, ?_, ?_, ?_, ?_⟩
  · dsimp only
    rw [hslices, hplan, List.map_map]
    refine List.map_congr_left fun planned hmem ↦ ?_
    rw [Function.comp_apply, hheld planned hmem]
  · refine ⟨frontier.granted.map (·.1.seq), frontier.admitted.map (·.1.seq), ?_, ?_, ?_, ?_⟩
    · rw [hplan, List.map_map, List.map_append]
      rfl
    · rw [h.running_eq, ← hp.running_eq, List.map_append, List.map_map]
      exact List.prefix_append _ _
    · exact h.waiting_eq
    · rw [h.running_eq]
  · have hlength : ((granted ++ admitted).map Prod.snd).length =
        frontier.granted.length + frontier.admitted.length := by
      have htotal := congrArg List.length htokens
      simpa only [List.length_map, List.length_append] using htotal
    exact hlength.le.trans hp.seats_le
  · show (((granted ++ admitted).map Prod.snd).map _).sum ≤ _
    rw [htokens, List.map_append, List.sum_append]
    exact hp.tokens_le
  · intro slice hslice
    have hmem := List.mem_map_of_mem (f := ScheduledSlice.scheduledPrefillTokens) hslice
    rw [htokens] at hmem
    obtain ⟨planned, hplanned, he⟩ := List.mem_map.mp hmem
    rw [← he]
    rcases List.mem_append.mp hplanned with hgranted | hadmitted
    · exact (hp.granted planned hgranted).2.2.2
    · exact (hp.admitted planned hadmitted).2.2.1

/-- Between two passes nobody in the waiting queue but its head has been looked up. -/
theorem Represents.tail_fresh (h : Represents locals session)
    (hw : session.Wf engine.config engine.timelineMode requests) :
    ∀ ref ∈ locals.waiting.tail, (locals.heap ref).cacheLookupDone = false := by
  intro ref href
  rw [h.waiting_eq, ← List.map_tail] at href
  obtain ⟨entry, htail, rfl⟩ := List.mem_map.mp href
  have hentry := List.mem_of_mem_tail htail
  rw [(h.held entry (List.mem_append_right _ hentry)).heap_eq]
  exact (hw.waiting entry hentry).fresh (hw.tail_fresh entry htail)

end Prepared

/-- From this state the list loop goes on to call the scheduler, with these requests and
this plan. -/
def Engine.ListPlans (engine : Engine C K) (state : LoopState) (world : World C K)
    (plan : FrontierPlan) (locals : Locals) : Prop :=
  ∃ pending pendingIndex moved world',
    engine.moveArrivals state.nowMs state.pending state.pendingIndex state.locals =
      .ok (pending, pendingIndex, moved) ∧
    ¬(moved.waiting = [] ∧ moved.running = []) ∧
    engine.prepareSchedulerFrontier state.nowMs moved world = .ok (plan, locals) world' ∧
    ¬(locals.waiting = [] ∧ locals.running = [])

/-- From this state the streaming loop goes on to call the scheduler. -/
def Engine.StreamPlans (engine : Engine C K) (source : RequestSource σ) (instanceUuid : String)
    (turns : ℕ) (state : StreamState σ) (world : World C K) (plan : FrontierPlan)
    (locals : Locals) : Prop :=
  ∃ next s s' arrivalSeq moved prepared world',
    source.peekIn state.source = .ok (next, s) ∧
    engine.moveArrivalsFromSource source instanceUuid state.nowMs turns s state.arrivalSeq
      state.locals = .ok (s', arrivalSeq, moved) ∧
    ¬(moved.waiting = [] ∧ moved.running = []) ∧
    engine.prepareSchedulerFrontier state.nowMs moved world = .ok (plan, prepared) world' ∧
    locals = (state.emit prepared).locals ∧ ¬(locals.waiting = [] ∧ locals.running = [])

/-- The call of the scheduler that follows a frontier returns the batch it has counted. -/
def Engine.Follows (engine : Engine C K) (instanceUuid : String) (iterationId : ℕ) (nowMs : ℚ)
    (plan : FrontierPlan) (locals : Locals) : Prop :=
  ∃ shape admission, schedule engine.config instanceUuid iterationId nowMs locals.waiting
      locals.running locals.heap = .ok (shape, admission) ∧
    plan.Scheduled engine.config locals shape admission

/-- Where the list loop calls the scheduler, its state holds a prepared frontier. -/
theorem ListAgrees.prepared {engine : Engine C K} {requests : List SimulationRequest}
    {state : LoopState} {session : Session} {world : World C K} {plan : FrontierPlan}
    {locals : Locals} (h : ListAgrees state session)
    (hw : session.Wf engine.config engine.timelineMode requests)
    (hplans : engine.ListPlans state world plan locals) :
    ∃ received frontier world', received.Wf engine.config engine.timelineMode requests ∧
      Prepares engine received world frontier world' ∧
      RepresentsFrontier locals received frontier ∧ ¬frontier.Empty ∧
      plan.plan = ((frontier.granted ++ frontier.admitted).map fun planned ↦
        (planned.1.seq, planned.2)) ∧
      state.nowMs = received.nowMs ∧ state.iterationId = received.iterationId := by
  obtain ⟨pending, index, moved, world', hmove, -, hprepare, hleft⟩ := hplans
  rw [h.pending_eq, h.arrivals_eq, h.now_eq, move_arrivals_eq engine session.nowMs session.lostMs]
    at hmove
  cases harr : arrivals engine.timelineMode session.nowMs session.lostMs session.arrivals
    session.pending with
  | error e =>
    rw [harr] at hmove
    cases hmove
  | ok got =>
    obtain ⟨entries, rest⟩ := got
    rw [harr] at hmove
    cases hmove
    have hreceive : engine.receive session = .ok { session with
        pending := rest
        arrivals := session.arrivals + entries.length
        waiting := session.waiting ++ entries } := by
      simp [Engine.receive, harr, bind, Except.bind, pure, Except.pure]
    have hwf := (receives_of_receive hreceive).wf hw
    have hrep := represents_received hw h.represents harr
    have hfrontier := frontier_agree engine world hwf hrep
    have hprepare' : engine.prepareSchedulerFrontier session.nowMs
        (entries.foldl Locals.register state.locals) world = .ok (plan, locals) world' := by
      rw [← h.now_eq]
      exact hprepare
    rw [hprepare'] at hfrontier
    obtain ⟨frontier, _, hfrontier, rfl, hagree⟩ := hfrontier.ok_left
    have hprepares := prepares_of_frontier hfrontier
    have hheld := hagree.represents hrep
    exact ⟨_, frontier, _, hwf, hprepares, hheld,
      mt (hheld.empty_iff (hprepares.prepared hwf)).mpr hleft, hagree.plan_eq, h.now_eq,
      h.iteration_id_eq⟩

theorem ListAgrees.follows {engine : Engine C K} {requests : List SimulationRequest}
    {state : LoopState} {session : Session} {world : World C K} {plan : FrontierPlan}
    {locals : Locals} (h : ListAgrees state session)
    (hw : session.Wf engine.config engine.timelineMode requests)
    (hplans : engine.ListPlans state world plan locals) (instanceUuid : String) :
    engine.Follows instanceUuid state.iterationId state.nowMs plan locals := by
  obtain ⟨received, frontier, _, hwf, hprepares, hheld, hleft, hplan, hnow, hid⟩ :=
    h.prepared hw hplans
  obtain ⟨_, _, _, _, -, -, hprepare, -⟩ := hplans
  rw [hnow, hid]
  exact hheld.scheduled hwf hprepares hleft (FrontierPlan.Tallied.prepare hprepare) hplan
    instanceUuid

theorem StreamHolds.follows {engine : Engine C K} {source : RequestSource σ} {start : σ}
    {requests : List SimulationRequest} {state : StreamState σ} {session : Session}
    {instanceUuid : String} {turns : ℕ} {world : World C K} {plan : FrontierPlan} {locals : Locals}
    (h : StreamHolds engine source start state requests session) (hsource : source.Peekable)
    (hd : ∀ supplied s, source.Supplies start supplied s →
      (supplied.map SimulationRequest.requestId).Nodup)
    (hplans : engine.StreamPlans source instanceUuid turns state world plan locals) :
    engine.Follows instanceUuid state.iterationId state.nowMs plan locals := by
  obtain ⟨next, s, s', seq, moved, prepared, world', hpeek, hmove, -, hprepare, rfl, hleft⟩ := hplans
  obtain ⟨requests', received, hmoved⟩ :=
    (h.peeked hpeek).moved hsource hd hmove state.maxActiveRequests
  obtain ⟨frontier, hprepares, hheld, hplan⟩ := hmoved.prepared hprepare
  have hfollows := hheld.scheduled hmoved.wf hprepares
    (mt (hheld.empty_iff (hprepares.prepared hmoved.wf)).mpr hleft)
    (FrontierPlan.Tallied.prepare hprepare) hplan instanceUuid
  rw [← hmoved.iteration_id_eq, ← hmoved.now_eq] at hfollows
  exact hfollows

/-- The frontier's plan and the scheduler's batch agree in every state that a replay reaches,
of a list or of a source. Whatever comes before, the scheduler then raises nothing, it
serves whom the frontier has counted, and it stays within its limits. Between two passes
nobody but the head of the waiting queue has been looked up. -/
theorem schedule_follows_frontier (engine : Engine C K) (instanceUuid : String)
    (world₀ : World C K) :
    (∀ requests : List SimulationRequest,
      (requests.map SimulationRequest.requestId).Nodup →
      ∀ state world, engine.ListReaches instanceUuid requests world₀ state world →
        (∀ ref ∈ state.locals.waiting.tail, (state.locals.heap ref).cacheLookupDone = false) ∧
        ∀ plan locals, engine.ListPlans state world plan locals →
          engine.Follows instanceUuid state.iterationId state.nowMs plan locals) ∧
    ∀ (source : RequestSource σ) (start : σ) (turns : ℕ), source.Peekable →
      (∀ supplied s, source.Supplies start supplied s →
        (supplied.map SimulationRequest.requestId).Nodup) →
      ∀ state world, engine.StreamReaches source instanceUuid turns start world₀ state world →
        (∀ ref ∈ state.locals.waiting.tail, (state.locals.heap ref).cacheLookupDone = false) ∧
        ∀ plan locals, engine.StreamPlans source instanceUuid turns state world plan locals →
          engine.Follows instanceUuid state.iterationId state.nowMs plan locals := by
  constructor
  · intro requests hd state world hreach
    obtain ⟨session, hserves, hagree⟩ := hreach.agrees hd
    have hw := hserves.wf hd
    refine ⟨hagree.represents.tail_fresh hw, ?_⟩
    intro plan locals hplans
    exact hagree.follows hw hplans instanceUuid
  · intro source start turns hsource hd state world hreach
    obtain ⟨requests, session, hholds⟩ := hreach.holds hsource hd
    refine ⟨hholds.represents.tail_fresh hholds.wf, ?_⟩
    intro plan locals hplans
    exact hholds.follows hsource hd hplans

/-- A list source hands out what it shows. -/
theorem list_request_source_peekable (requireSorted : Bool) :
    (ListRequestSource requireSorted).Peekable := by
  intro state request state' hpeek popped hpop
  obtain ⟨requests, last⟩ := state
  cases requests with
  | nil => cases hpeek
  | cons first rest =>
    cases hpeek
    obtain ⟨_, -, hpop⟩ := except_bind_ok.mp hpop
    cases hpop
    rfl

namespace Sample

/-- The state in which the list loop starts on the pair. -/
def pairStart : LoopState :=
  Engine.initialLoopState { instanceUuid := "instance" }
    (request "a" 0 [block "x" 0 2, block "y" 1 1]) [request "b" 0 [block "x" 0 2, block "z" 1 1]]

/-- The first pass over the pair gets to the scheduler. -/
theorem pair_list_plans : ∃ plan locals,
    (engine config .progressive .exact).ListPlans pairStart world plan locals := by
  have hok : (match (engine config .progressive .exact).moveArrivals 0 pair 0
        pairStart.locals with
      | .ok (_, _, moved) =>
        decide (moved.waiting = [0, 1]) &&
        match (engine config .progressive .exact).prepareSchedulerFrontier 0 moved world with
        | .ok (_, locals) _ => decide (locals.waiting = [0, 1])
        | .error _ _ => false
      | .error _ => false) = true := by
    decide +kernel
  cases hmove : (engine config .progressive .exact).moveArrivals 0 pair 0 pairStart.locals with
  | error e => simp [hmove] at hok
  | ok result =>
    obtain ⟨pending, index, moved⟩ := result
    cases hprepare : (engine config .progressive .exact).prepareSchedulerFrontier 0 moved world with
    | error e world' => simp [hmove, hprepare] at hok
    | ok prepared world' =>
      simp only [hmove, hprepare, Bool.and_eq_true, decide_eq_true_eq] at hok
      exact ⟨prepared.1, prepared.2, pending, index, moved, world', hmove, by simp [hok.1], hprepare,
        by simp [hok.2]⟩

/-- The state in which the streaming loop starts on the pair. -/
def pairStreamStart : StreamState ListSourceState where
  source := { requests := pair }
  nowMs := 0
  locals := { transferQueue := { instanceUuid := "instance" } }

theorem pair_stream_plans : ∃ plan locals,
    (engine config .progressive .exact).StreamPlans (ListRequestSource true) "instance" 3
      pairStreamStart world plan locals := by
  have hok : (match (engine config .progressive .exact).moveArrivalsFromSource
        (ListRequestSource true) "instance" 0 3 { requests := pair } 0 pairStreamStart.locals with
      | .ok (_, _, moved) =>
        decide (moved.waiting = [0, 1]) &&
        match (engine config .progressive .exact).prepareSchedulerFrontier 0 moved world with
        | .ok (_, locals) _ => decide ((emitRequestMetrics locals).waiting = [0, 1])
        | .error _ _ => false
      | .error _ => false) = true := by
    decide +kernel
  cases hmove : (engine config .progressive .exact).moveArrivalsFromSource
      (ListRequestSource true) "instance" 0 3 { requests := pair } 0 pairStreamStart.locals with
  | error e => simp [hmove] at hok
  | ok result =>
    obtain ⟨source, seq, moved⟩ := result
    cases hprepare : (engine config .progressive .exact).prepareSchedulerFrontier 0 moved world with
    | error e world' => simp [hmove, hprepare] at hok
    | ok prepared world' =>
      simp only [hmove, hprepare, Bool.and_eq_true, decide_eq_true_eq] at hok
      exact ⟨prepared.1, (pairStreamStart.emit prepared.2).locals, _, _, source, seq, moved,
        prepared.2, world', rfl, hmove, by simp [hok.1], hprepare, rfl, by
          simp [StreamState.emit, hok.2]⟩

end Sample

theorem schedule_follows_frontier_pair :
    (∃ plan locals, (Sample.engine Sample.config .progressive .exact).Follows "instance" 0 0 plan
      locals) ∧
    ∃ plan locals, (Sample.engine Sample.config .progressive .exact).Follows "instance" 0 0 plan
      locals := by
  have hids : (Sample.pair.map SimulationRequest.requestId).Nodup := by decide +kernel
  have hsorted : Sample.pair.Pairwise fun a b ↦ a.sortKey ≤ b.sortKey := by decide +kernel
  have hsupplied : ∀ supplied s, (ListRequestSource true).Supplies { requests := Sample.pair }
      supplied s → (supplied.map SimulationRequest.requestId).Nodup := by
    intro supplied s hs
    have hsupplied := (list_request_source_yields true hsorted).supplied hs
    exact hids.sublist (hsupplied.sublist.map _)
  constructor
  · obtain ⟨plan, locals, hplans⟩ := Sample.pair_list_plans
    have hstart : (Sample.engine Sample.config .progressive .exact).ListReaches "instance"
        Sample.pair Sample.world Sample.pairStart Sample.world :=
      .start hsorted.insertionSort_eq rfl
    exact ⟨plan, locals, ((@schedule_follows_frontier _ _ Unit _ "instance" Sample.world).1
      Sample.pair hids _ _ hstart).2 plan locals hplans⟩
  · obtain ⟨plan, locals, hplans⟩ := Sample.pair_stream_plans
    have hstart : (Sample.engine Sample.config .progressive .exact).StreamReaches
        (ListRequestSource true) "instance" 3 { requests := Sample.pair } Sample.world
        Sample.pairStreamStart Sample.world := by
      have hpeek : (ListRequestSource true).peekIn { requests := Sample.pair } =
          .ok (Sample.pair.head?, { requests := Sample.pair }) := rfl
      exact .start hpeek rfl
    exact ⟨plan, locals, ((schedule_follows_frontier _ "instance" Sample.world).2
      (ListRequestSource true) _ 3 (list_request_source_peekable true) hsupplied _ _ hstart).2 plan
        locals hplans⟩

end InferTwin
