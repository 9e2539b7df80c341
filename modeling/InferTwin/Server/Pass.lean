import InferTwin.Server.Invariant

namespace InferTwin

open Effect

variable {C K : Type}

theorem serve_append (config : SchedulerConfig) (tokenBudget seats : ℕ) (jobs : List Job) :
    (serve config tokenBudget seats jobs).1.map Prod.fst ++
      (serve config tokenBudget seats jobs).2 = jobs := by
  induction jobs generalizing tokenBudget seats with
  | nil => rfl
  | cons job jobs ih =>
    unfold serve
    split_ifs
    · rfl
    · simp [ih]

theorem serve_budget (config : SchedulerConfig) (tokenBudget seats : ℕ) (jobs : List Job) :
    grantedTokens (serve config tokenBudget seats jobs).1 ≤ tokenBudget ∧
      (serve config tokenBudget seats jobs).1.length ≤ seats := by
  induction jobs generalizing tokenBudget seats with
  | nil => simp [serve, grantedTokens]
  | cons job jobs ih =>
    unfold serve
    split_ifs with h
    · simp [grantedTokens]
    · have hle := config.grant_le_budget job.state.remaining tokenBudget
      have hrest := ih (tokenBudget - config.grant job.state.remaining tokenBudget) (seats - 1)
      simp only [grantedTokens, List.map_cons, List.sum_cons, List.length_cons] at hrest ⊢
      omega

theorem serve_granted (config : SchedulerConfig) (tokenBudget seats : ℕ) {jobs : List Job}
    (hc : config.enableChunkedPrefill = false → jobs = [])
    (hr : ∀ job ∈ jobs, 0 < job.state.remaining) :
    ∀ granted ∈ (serve config tokenBudget seats jobs).1,
      0 < granted.2 ∧ granted.2 ≤ granted.1.state.remaining ∧
        granted.2 ≤ config.perRequestChunkLimit := by
  induction jobs generalizing tokenBudget seats with
  | nil => simp [serve]
  | cons job jobs ih =>
    have hchunk : config.enableChunkedPrefill = true := by
      cases he : config.enableChunkedPrefill with
      | true => rfl
      | false => exact absurd (hc he) (by simp)
    unfold serve
    split_ifs with h
    · simp
    · have hb : 0 < tokenBudget := by omega
      refine List.forall_mem_cons.mpr ⟨⟨?_, config.grant_le_remaining _ _,
        config.grant_le_limit _ _⟩, ?_⟩
      · exact config.grant_pos (hr _ (List.mem_cons_self ..)) hb (.inl hchunk)
      · exact ih _ _ (fun he ↦ by simp [hchunk] at he) (List.forall_mem_of_forall_mem_cons hr)

/-- What preparing a batch can do. -/
structure Prepares (engine : Engine C K) (session : Session) (world : World C K)
    (frontier : Frontier) (world' : World C K) : Prop where
  served : serve engine.config engine.config.maxNumBatchedTokens engine.config.maxNumSeqs
    session.running = (frontier.granted, frontier.idle)
  scanned : engine.config.maxNumBatchedTokens - grantedTokens frontier.granted = 0 ∧
      frontier.toScan = { waiting := session.waiting } ∧ world' = world ∨
    engine.config.maxNumBatchedTokens - grantedTokens frontier.granted ≠ 0 ∧
      Scans engine session.nowMs
        (engine.config.maxNumBatchedTokens - grantedTokens frontier.granted)
        (engine.config.maxNumSeqs - frontier.granted.length) session.waiting world
        frontier.toScan world'

theorem prepares_of_frontier {engine : Engine C K} {session : Session} {frontier : Frontier}
    {world world' : World C K} (h : engine.frontier session world = .ok frontier world') :
    Prepares engine session world frontier world' := by
  unfold Engine.frontier at h
  split_ifs at h with hb
  · cases h
    exact ⟨rfl, .inl ⟨hb, rfl, rfl⟩⟩
  · simp only [bind_ok] at h
    obtain ⟨scan, _, hscan, h⟩ := h
    cases h
    exact ⟨rfl, .inr ⟨hb, scans_of_scan hscan⟩⟩

/-- The invariant of an instance replay on the given requests, between two passes. -/
structure Session.Wf (config : SchedulerConfig) (timelineMode : TimelineMode)
    (requests : List SimulationRequest) (session : Session) : Prop where
  distinct : (requests.map SimulationRequest.requestId).Nodup
  waiting : ∀ entry ∈ session.waiting, entry.Waiting timelineMode session.nowMs session.lostMs
  tail_fresh : ∀ entry ∈ session.waiting.tail, entry.lookup = none
  running : ∀ job ∈ session.running, job.Running timelineMode session.nowMs session.lostMs
  completed : ∀ completion ∈ session.completed, ∃ finishMs lostMs,
    completion.1.Finished timelineMode finishMs lostMs completion.2
  unchunked : config.enableChunkedPrefill = false → session.running = []
  order : (session.active.map Entry.ticket).Pairwise (·.2 < ·.2)
  roster : ∃ arrived, requests = arrived ++ session.pending ∧ arrived.length = session.arrivals ∧
    (tickets session.completed ++ session.active.map Entry.ticket).Perm arrived.zipIdx

/-- What is known of a batch that has been prepared. -/
structure Frontier.Prepared (engine : Engine C K) (session : Session) (frontier : Frontier) :
    Prop where
  granted : ∀ granted ∈ frontier.granted,
    granted.1.Running engine.timelineMode session.nowMs session.lostMs ∧ 0 < granted.2 ∧
      granted.2 ≤ granted.1.state.remaining ∧ granted.2 ≤ engine.config.perRequestChunkLimit
  idle : ∀ job ∈ frontier.idle, job.Running engine.timelineMode session.nowMs session.lostMs
  admitted : ∀ admitted ∈ frontier.admitted,
    admitted.1.Ready engine.timelineMode session.nowMs session.lostMs ∧
      admitted.2 ≤ admitted.1.state.remaining ∧
      admitted.2 ≤ engine.config.perRequestChunkLimit ∧
      (admitted.2 ≠ 0 ∨ admitted.1.state.remaining = 0 ∧ admitted.1.state.pendingLoad ≠ (0, 0))
  completed : ∀ completion ∈ frontier.completed,
    completion.1.Finished engine.timelineMode session.nowMs session.lostMs completion.2
  waiting : ∀ entry ∈ frontier.waiting,
    entry.Waiting engine.timelineMode session.nowMs session.lostMs
  tail_fresh : ∀ entry ∈ frontier.waiting.tail, entry.lookup = none
  running_eq : frontier.granted.map Prod.fst ++ frontier.idle = session.running
  split : ∃ dealt,
    session.waiting.map Entry.ticket = dealt ++ frontier.waiting.map Entry.ticket ∧
      (frontier.admitted.map (·.1.ticket)).Sublist dealt ∧
      (tickets frontier.completed ++ frontier.admitted.map (·.1.ticket)).Perm dealt
  whole : engine.config.enableChunkedPrefill = false → frontier.granted = [] ∧
    frontier.idle = [] ∧ ∀ admitted ∈ frontier.admitted, admitted.2 = admitted.1.state.remaining
  tokens_le : grantedTokens frontier.granted + grantedTokens frontier.admitted ≤
    engine.config.maxNumBatchedTokens
  seats_le : frontier.granted.length + frontier.admitted.length ≤ engine.config.maxNumSeqs

theorem Prepares.prepared {engine : Engine C K} {session : Session} {frontier : Frontier}
    {requests : List SimulationRequest} {world world' : World C K}
    (h : Prepares engine session world frontier world')
    (hw : session.Wf engine.config engine.timelineMode requests) :
    frontier.Prepared engine session := by
  have happend := serve_append engine.config engine.config.maxNumBatchedTokens
    engine.config.maxNumSeqs session.running
  have hbudget := serve_budget engine.config engine.config.maxNumBatchedTokens
    engine.config.maxNumSeqs session.running
  have hgranted := serve_granted engine.config engine.config.maxNumBatchedTokens
    engine.config.maxNumSeqs hw.unchunked fun job hj ↦ (hw.running job hj).remaining_pos
  rw [h.served] at happend hbudget hgranted
  have hmem : ∀ granted ∈ frontier.granted, granted.1 ∈ session.running := by
    intro granted hg
    rw [← happend]
    exact List.mem_append_left _ (List.mem_map_of_mem hg)
  have hidle : ∀ job ∈ frontier.idle, job ∈ session.running := by
    intro job hj
    rw [← happend]
    exact List.mem_append_right _ hj
  have hempty : engine.config.enableChunkedPrefill = false →
      frontier.granted = [] ∧ frontier.idle = [] := by
    intro hc
    have hnil := hw.unchunked hc
    rw [hnil] at happend
    simpa using happend
  rcases h.scanned with ⟨hb, hscan, -⟩ | ⟨hb, hscan⟩
  · have hadmitted : frontier.admitted = [] := by rw [hscan]
    have hcompleted : frontier.completed = [] := by rw [hscan]
    have hwaiting : frontier.waiting = session.waiting := by rw [hscan]
    exact {
      granted := fun granted hg ↦ ⟨hw.running _ (hmem granted hg), hgranted granted hg⟩
      idle := fun job hj ↦ hw.running _ (hidle job hj)
      admitted := by simp [hadmitted]
      completed := by simp [hcompleted]
      waiting := by rw [hwaiting]; exact hw.waiting
      tail_fresh := by rw [hwaiting]; exact hw.tail_fresh
      running_eq := happend
      split := ⟨[], by simp [hwaiting], by simp [hadmitted], by simp [hadmitted, hcompleted]⟩
      whole := fun hc ↦ ⟨(hempty hc).1, (hempty hc).2, by simp [hadmitted]⟩
      tokens_le := by simpa [hadmitted, grantedTokens] using hbudget.1
      seats_le := by simpa [hadmitted] using hbudget.2 }
  · obtain ⟨hready, hdone, hwaiting⟩ := hscan.stages hw.waiting
    obtain ⟨htokens, hseats⟩ := hscan.budget
    obtain ⟨htokens', hseats'⟩ := hbudget
    exact {
      granted := fun granted hg ↦ ⟨hw.running _ (hmem granted hg), hgranted granted hg⟩
      idle := fun job hj ↦ hw.running _ (hidle job hj)
      admitted := fun admitted ha ↦ ⟨hready admitted ha, hscan.planned admitted ha⟩
      completed := hdone
      waiting := hwaiting
      tail_fresh := hscan.tail_fresh hw.tail_fresh
      running_eq := happend
      split := hscan.split
      whole := fun hc ↦ ⟨(hempty hc).1, (hempty hc).2, hscan.whole hc (Nat.sub_le _ _)⟩
      tokens_le := by dsimp only at htokens htokens' ⊢; omega
      seats_le := by dsimp only at hseats hseats' ⊢; omega }

/-- An item of a batch: a running request that sits the iteration out, or a request in
service whose slice has just been built. -/
def Batched (timelineMode : TimelineMode) (nowMs lostMs : ℚ)
    (item : Job × Option ScheduledSlice) : Prop :=
  match item.2 with
  | none => item.1.Running timelineMode nowMs lostMs
  | some slice => ∃ job tokens, job.InService timelineMode nowMs lostMs ∧
      Sliced (job, tokens) (item.1, slice)

theorem Batched.served {engine : Engine C K} {nowMs lostMs startMs finishMs : ℚ} {job : Job}
    {slice : ScheduledSlice} {contribution : IterationLatencyBreakdown}
    {request : Except ReplayError SimulationRequest} {queue : SharedLinkFIFOTransferQueue}
    {totals : IterationTotals} {progress : SliceProgress}
    {metric : Option BatchAwareRequestMetrics} {world world' : World C K}
    (hb : Batched engine.timelineMode nowMs lostMs (job, some slice))
    (h : engine.applySlice startMs finishMs slice contribution job.state job.lookup request queue
      totals world = .ok (progress, metric) world') :
    Served engine startMs finishMs slice contribution job.state job.lookup request queue world
      progress metric world' := by
  obtain ⟨planned, tokens, hin, hs⟩ := hb
  have hd := hs.describes
  have he : job = planned.handOver := hs.job_eq
  subst he
  refine served_of_apply_slice hin.ledger.knows.consumed.looked_up ?_ ?_ ?_ h
  · simpa [Job.handOver] using hin.ledger.computed_le
  · simpa [Job.handOver] using hin.running
  · simpa [Job.handOver] using hd.before_eq

theorem Served.ticket_eq {engine : Engine C K} {startMs finishMs : ℚ} {job : Job}
    {slice : ScheduledSlice} {contribution : IterationLatencyBreakdown}
    {request : Except ReplayError SimulationRequest} {queue : SharedLinkFIFOTransferQueue}
    {progress : SliceProgress} {metric : Option BatchAwareRequestMetrics} {world world' : World C K}
    (h : Served engine startMs finishMs slice contribution job.state job.lookup request queue world
      progress metric world') (durationMs : ℚ) :
    (job.served slice durationMs progress).ticket = job.ticket :=
  Prod.ext rfl (congrArg RequestState.arrivalSeq h.progressed.standing_eq :)

/-- What has become of the requests of a batch after the iteration. -/
theorem Applies.stages {engine : Engine C K} {facts : IterationFacts} {nowMs lostMs : ℚ}
    {batch : List (Job × Option ScheduledSlice)} {queue : SharedLinkFIFOTransferQueue}
    {totals : IterationTotals} {world world' : World C K} {applied : Applied}
    (h : Applies engine facts batch queue totals world applied world')
    (hle : nowMs ≤ facts.finishMs)
    (hb : ∀ item ∈ batch, Batched engine.timelineMode nowMs lostMs item) :
    (∀ job ∈ applied.running, job.Running engine.timelineMode facts.finishMs
      (lostMs + (nowMs + facts.durationMs - facts.finishMs))) ∧
    (∀ completion ∈ applied.completed,
      completion.1.Finished engine.timelineMode facts.finishMs
        (lostMs + (nowMs + facts.durationMs - facts.finishMs)) completion.2) ∧
    (applied.running.map Job.ticket).Sublist (batch.map (·.1.ticket)) ∧
    (tickets applied.completed ++ applied.running.map Job.ticket).Perm
      (batch.map (·.1.ticket)) := by
  induction h with
  | nil => simp
  | @idle job _ _ _ _ _ _ _ ih =>
    obtain ⟨hr, hc, hs, hp⟩ := ih (List.forall_mem_of_forall_mem_cons hb)
    have hrun : job.Running engine.timelineMode nowMs lostMs := hb _ (List.mem_cons_self ..)
    refine ⟨List.forall_mem_cons.mpr ⟨hrun.sitOut hle, hr⟩, hc, ?_, ?_⟩
    · simpa using hs.cons_cons job.ticket
    · simpa using List.perm_middle.trans (hp.cons job.ticket)
  | @advance job slice _ _ _ _ _ _ _ _ hslice _ ih =>
    obtain ⟨hr, hc, hs, hp⟩ := ih (List.forall_mem_of_forall_mem_cons hb)
    have hitem := hb _ (List.mem_cons_self ..)
    have hserved := hitem.served hslice
    obtain ⟨planned, tokens, hin, hsl⟩ := hitem
    have hrun := (hin.serve hle hsl hserved facts.durationMs).1 rfl
    have ht := hserved.ticket_eq facts.durationMs
    refine ⟨List.forall_mem_cons.mpr ⟨hrun, hr⟩, hc, ?_, ?_⟩
    · simpa [ht] using hs.cons_cons job.ticket
    · simpa [ht] using List.perm_middle.trans (hp.cons job.ticket)
  | @complete job slice _ _ _ _ _ metric _ _ _ hslice _ ih =>
    obtain ⟨hr, hc, hs, hp⟩ := ih (List.forall_mem_of_forall_mem_cons hb)
    have hitem := hb _ (List.mem_cons_self ..)
    have hserved := hitem.served hslice
    obtain ⟨planned, tokens, hin, hsl⟩ := hitem
    have hfin := (hin.serve hle hsl hserved facts.durationMs).2 metric rfl
    have ht := hserved.ticket_eq facts.durationMs
    refine ⟨hr, List.forall_mem_cons.mpr ⟨hfin, hc⟩, hs.cons _, ?_⟩
    simpa [ht] using hp.cons job.ticket

/-- Who is left running was idle, or its slice did not reach the end of the prompt. -/
theorem Applies.unfinished {engine : Engine C K} {facts : IterationFacts} {nowMs lostMs : ℚ}
    {batch : List (Job × Option ScheduledSlice)} {queue : SharedLinkFIFOTransferQueue}
    {totals : IterationTotals} {world world' : World C K} {applied : Applied}
    (h : Applies engine facts batch queue totals world applied world')
    (hle : nowMs ≤ facts.finishMs)
    (hb : ∀ item ∈ batch, Batched engine.timelineMode nowMs lostMs item)
    (hall : ∀ item ∈ batch, ∃ slice ∈ item.2,
      slice.computedTokensAfter = slice.promptTokens) :
    applied.running = [] := by
  induction h with
  | nil => rfl
  | idle =>
    obtain ⟨slice, hs, -⟩ := hall _ (List.mem_cons_self ..)
    cases hs
  | @advance job slice _ _ _ _ _ _ _ _ hslice _ ih =>
    obtain ⟨_, hs, hafter⟩ := hall _ (List.mem_cons_self ..)
    cases hs
    have hitem := hb _ (List.mem_cons_self ..)
    have hserved := hitem.served hslice
    obtain ⟨planned, tokens, hin, hsl⟩ := hitem
    have hrun := (hin.serve hle hsl hserved facts.durationMs).1 rfl
    have hd := hsl.describes
    have hlt := hrun.computed_lt
    have he : job = planned.handOver := hsl.job_eq
    have hprompt : (job.served slice facts.durationMs _).state.promptTokens =
        planned.state.consumed.promptTokens :=
      (congrArg RequestState.promptTokens (he ▸ hserved.progressed.standing_eq) :)
    have hcomputed := hserved.progressed.computed_eq
    rw [hprompt, RequestState.consumed_prompt, ← hd.prompt_eq, ← hafter, slice.after_eq,
      hd.before_eq] at hlt
    simp only [Job.served, he, Job.handOver, RequestState.consumed_computed] at hlt hcomputed
    omega
  | complete _ _ ih =>
    exact ih (List.forall_mem_of_forall_mem_cons hb) (List.forall_mem_of_forall_mem_cons hall)

theorem Sliced.ticket_eq {planned : Job × ℕ} {built : Job × ScheduledSlice}
    (h : Sliced planned built) : built.1.ticket = planned.1.ticket := by
  rw [h.job_eq, Job.handOver_ticket]

theorem sliced_tickets {planned : List (Job × ℕ)} {built : List (Job × ScheduledSlice)}
    (h : List.Forall₂ Sliced planned built) :
    built.map (·.1.ticket) = planned.map (·.1.ticket) := by
  induction h with
  | nil => rfl
  | cons hs _ ih => simp [hs.ticket_eq, ih]

theorem sliced_mem {planned : List (Job × ℕ)} {built : List (Job × ScheduledSlice)}
    (h : List.Forall₂ Sliced planned built) {item : Job × ScheduledSlice} (hi : item ∈ built) :
    ∃ plan ∈ planned, Sliced plan item := by
  induction h with
  | nil => cases hi
  | cons hs _ ih =>
    rcases List.mem_cons.mp hi with rfl | hi
    · exact ⟨_, List.mem_cons_self .., hs⟩
    · obtain ⟨plan, hp, hs⟩ := ih hi
      exact ⟨plan, List.mem_cons_of_mem _ hp, hs⟩

/-- The world once the cache events have been handed to the sink. -/
def Engine.drained (engine : Engine C K) (world : World C K) : World C K :=
  { world with
    cache := (engine.cache.takeEvents world.cache).2
    sink := engine.sink.emitMany (engine.cache.takeEvents world.cache).1 world.sink }

theorem drain_ok {engine : Engine C K} {world world' : World C K} {u : Unit} :
    engine.drainCacheEvents world = .ok u world' ↔ world' = engine.drained world := by
  show EStateM.Result.ok () (engine.drained world) = .ok u world' ↔ _
  simp [eq_comm]

theorem record_ok {event : TraceEvent} {world world' : World C K} {u : Unit} :
    (record event : Replay C K Unit) world = .ok u world' ↔
      world' = { world with trace := world.trace ++ [event] } := by
  show EStateM.Result.ok () { world with trace := world.trace ++ [event] } = .ok u world' ↔ _
  simp [eq_comm]

/-- What one iteration can do. -/
inductive Iterates (engine : Engine C K) (instanceUuid : String) (session : Session)
    (frontier : Frontier) (world : World C K) : Session → World C K → Prop
  | mk {granted admitted shape latency world₁ breakdown applied world₂ metric}
      (hgranted : sliceAll frontier.granted = .ok granted)
      (hadmitted : sliceAll (frontier.entering session.nowMs) = .ok admitted)
      (hshape : batchShape instanceUuid session ((granted ++ admitted).map Prod.snd) = .ok shape)
      (hne : shape.batchSize ≠ 0)
      (hlatency : engine.estimateLatency shape world = .ok latency world₁)
      (hbreakdown : latencyBreakdownFromResult latency = .ok breakdown)
      (happlies : Applies engine
        { shape, breakdown, durationMs := latency.durationMs,
          finishMs := engine.clock.add session.nowMs latency.durationMs }
        (batchOf granted frontier.idle admitted) session.transferQueue {} world₁ applied world₂)
      (hmetric : buildIterationMetrics shape latency
        (engine.clock.add session.nowMs latency.durationMs) engine.timelineMode
        (engine.sittingOut latency.durationMs (frontier.waiting.length + frontier.idle.length))
        applied.totals = .ok metric) :
      Iterates engine instanceUuid session frontier world
        { session with
          nowMs := engine.clock.add session.nowMs latency.durationMs
          lostMs := session.lostMs + (session.nowMs + latency.durationMs -
            engine.clock.add session.nowMs latency.durationMs)
          iterationId := session.iterationId + 1
          waiting := frontier.waiting.map (Entry.sitOut engine.timelineMode latency.durationMs)
          running := applied.running
          completed := session.completed ++ frontier.completed ++ applied.completed
          iterationMetrics := session.iterationMetrics ++ [metric]
          transferQueue := applied.transferQueue }
        (engine.drained { world₂ with trace := world₂.trace ++ [.iteration {
          shape
          durationMs := latency.durationMs
          finishTimeMs := engine.clock.add session.nowMs latency.durationMs
          linkFreeMs := applied.transferQueue.nextAvailableTimeMs
          slices := applied.records }] })

theorem iterates_of_iterate {engine : Engine C K} {instanceUuid : String}
    {session session' : Session} {frontier : Frontier} {world world' : World C K}
    (h : engine.iterate instanceUuid session frontier world = .ok session' world') :
    Iterates engine instanceUuid session frontier world session' world' := by
  unfold Engine.iterate at h
  simp only [bind_ok, check_ok] at h
  obtain ⟨granted, _, ⟨hgranted, rfl⟩, admitted, _, ⟨hadmitted, rfl⟩, shape, _, ⟨hshape, rfl⟩, h⟩ := h
  split_ifs at h with hne
  · simp only [bind_ok] at h
    obtain ⟨_, _, h, -⟩ := h
    cases h
  · simp only [bind_ok, check_ok, drain_ok, record_ok] at h
    obtain ⟨latency, world₁, hlatency, breakdown, _, ⟨hbreakdown, rfl⟩, applied, world₂, happlied,
      metric, _, ⟨hmetric, rfl⟩, _, _, rfl, _, _, rfl, h⟩ := h
    cases h
    exact .mk hgranted hadmitted hshape hne hlatency hbreakdown (applies_of_apply_batch happlied)
      hmetric

theorem batch_shape_ok {instanceUuid : String} {session : Session} {slices : List ScheduledSlice}
    {shape : BatchShape} (h : batchShape instanceUuid session slices = .ok shape) :
    0 ≤ session.nowMs ∧ shape.requestSlices = slices ∧ shape.startTimeMs = session.nowMs ∧
      shape.iterationId = session.iterationId ∧ shape.instanceUuid = instanceUuid := by
  unfold batchShape at h
  split_ifs at h with hneg
  cases h
  exact ⟨not_lt.mp hneg, rfl, rfl, rfl, rfl⟩

namespace Frontier.Prepared

variable {engine : Engine C K} {session : Session} {frontier : Frontier}
  {granted admitted : List (Job × ScheduledSlice)}

theorem sliced_granted (h : frontier.Prepared engine session)
    (hg : sliceAll frontier.granted = .ok granted) :
    List.Forall₂ Sliced frontier.granted granted :=
  slice_all_ok (fun planned hp ↦ (h.granted planned hp).1.ledger.knows.looked_up) hg

theorem sliced_admitted (h : frontier.Prepared engine session)
    (ha : sliceAll (frontier.entering session.nowMs) = .ok admitted) :
    List.Forall₂ Sliced (frontier.entering session.nowMs) admitted := by
  refine slice_all_ok (fun planned hp ↦ ?_) ha
  obtain ⟨item, hi, rfl⟩ := List.mem_map.mp hp
  exact (h.admitted item hi).1.enter.ledger.knows.looked_up

theorem batched (h : frontier.Prepared engine session)
    (hg : sliceAll frontier.granted = .ok granted)
    (ha : sliceAll (frontier.entering session.nowMs) = .ok admitted) :
    ∀ item ∈ batchOf granted frontier.idle admitted,
      Batched engine.timelineMode session.nowMs session.lostMs item := by
  intro item hi
  simp only [batchOf, List.mem_append, List.mem_map] at hi
  rcases hi with (⟨built, hb, rfl⟩ | ⟨job, hj, rfl⟩) | ⟨built, hb, rfl⟩
  · obtain ⟨plan, hp, hs⟩ := sliced_mem (h.sliced_granted hg) hb
    exact ⟨plan.1, plan.2, (h.granted plan hp).1.toInService, hs⟩
  · exact h.idle job hj
  · obtain ⟨plan, hp, hs⟩ := sliced_mem (h.sliced_admitted ha) hb
    obtain ⟨item, hi, rfl⟩ := List.mem_map.mp hp
    exact ⟨_, _, (h.admitted item hi).1.enter, hs⟩

theorem batch_tickets (h : frontier.Prepared engine session)
    (hg : sliceAll frontier.granted = .ok granted)
    (ha : sliceAll (frontier.entering session.nowMs) = .ok admitted) :
    (batchOf granted frontier.idle admitted).map (·.1.ticket) =
      session.running.map Job.ticket ++ frontier.admitted.map (·.1.ticket) := by
  have hgt := sliced_tickets (h.sliced_granted hg)
  have hat := sliced_tickets (h.sliced_admitted ha)
  have hrun := congrArg (List.map Job.ticket) h.running_eq
  simp only [List.map_append, List.map_map] at hrun
  simp only [batchOf, List.map_append, List.map_map, Function.comp_def, entering,
    Job.enter_ticket] at hgt hat hrun ⊢
  rw [hgt, hat, ← hrun]

end Frontier.Prepared

end InferTwin
