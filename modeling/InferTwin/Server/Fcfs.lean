import InferTwin.Server.Timeline

namespace InferTwin

open Effect

variable {C K : Type} {engine : Engine C K} {requests : List SimulationRequest}

/-- A request has been scheduled, or finished at once, for the first time. -/
inductive Session.Began (session : Session) (seq : ℕ) (firstMs : ℚ) : Prop
  | running {job} (hmem : job ∈ session.running) (hseq : job.seq = seq)
      (hfirst : job.state.firstScheduledTimeMs = some firstMs)
  | completed {completion} (hmem : completion ∈ session.completed)
      (hseq : completion.1.seq = seq)
      (hfirst : completion.1.state.firstScheduledTimeMs = some firstMs)

/-- Who came first was scheduled no later, and nobody waits who came before somebody that
was scheduled. -/
structure Session.Fair (session : Session) : Prop where
  past : ∀ seq firstMs, session.Began seq firstMs → firstMs ≤ session.nowMs
  ordered : ∀ seq firstMs seq' firstMs', session.Began seq firstMs →
    session.Began seq' firstMs' → seq < seq' → firstMs ≤ firstMs'
  ahead : ∀ seq firstMs, session.Began seq firstMs → ∀ entry ∈ session.waiting, seq < entry.seq

namespace Session.Fair

variable {session session' : Session}

/-- Fairness is kept by whatever schedules a front part of the line at the present time. -/
theorem schedule (h : session.Fair) (hnow : session.nowMs ≤ session'.nowMs)
    (hbegan : ∀ seq firstMs, session'.Began seq firstMs → session.Began seq firstMs ∨
      firstMs = session.nowMs ∧ (∃ entry ∈ session.waiting, entry.seq = seq) ∧
        ∀ entry ∈ session'.waiting, seq < entry.seq)
    (hwaiting : ∀ entry ∈ session'.waiting, ∃ kept ∈ session.waiting, kept.seq = entry.seq) :
    session'.Fair where
  past seq firstMs hb := by
    rcases hbegan seq firstMs hb with hb | ⟨rfl, -⟩
    · exact (h.past seq firstMs hb).trans hnow
    · exact hnow
  ordered seq firstMs seq' firstMs' hb hb' hlt := by
    rcases hbegan seq firstMs hb with hb | ⟨rfl, ⟨entry, hentry, rfl⟩, -⟩
    · rcases hbegan seq' firstMs' hb' with hb' | ⟨rfl, -⟩
      · exact h.ordered seq firstMs seq' firstMs' hb hb' hlt
      · exact h.past seq firstMs hb
    · rcases hbegan seq' firstMs' hb' with hb' | ⟨rfl, -⟩
      · exact absurd (h.ahead seq' firstMs' hb' entry hentry) (by omega)
      · exact le_rfl
  ahead seq firstMs hb entry hentry := by
    rcases hbegan seq firstMs hb with hb | ⟨-, -, hahead⟩
    · obtain ⟨kept, hkept, hseq⟩ := hwaiting entry hentry
      rw [← hseq]
      exact h.ahead seq firstMs hb kept hkept
    · exact hahead entry hentry

/-- The clock may move on while nobody waits. -/
theorem at_time (h : session.Fair) {nowMs : ℚ} (hnow : session.nowMs ≤ nowMs) :
    { session with nowMs }.Fair := by
  have hbegan : ∀ seq firstMs, { session with nowMs }.Began seq firstMs →
      session.Began seq firstMs := by
    intro seq firstMs hb
    cases hb with
    | running hmem hseq hfirst => exact .running hmem hseq hfirst
    | completed hmem hseq hfirst => exact .completed hmem hseq hfirst
  exact h.schedule hnow (fun seq firstMs hb ↦ .inl (hbegan seq firstMs hb))
    fun entry hentry ↦ ⟨entry, hentry, rfl⟩

end Session.Fair

/-- Whoever has been scheduled has arrived. -/
theorem Session.Wf.began_lt {config : SchedulerConfig} {timelineMode : TimelineMode}
    {session : Session} (hw : session.Wf config timelineMode requests) {seq : ℕ} {firstMs : ℚ}
    (hb : session.Began seq firstMs) : seq < session.arrivals := by
  obtain ⟨arrived, -, hlen, hperm⟩ := hw.roster
  have hticket : ∀ ticket ∈ tickets session.completed ++ session.active.map Entry.ticket,
      ticket.2 < session.arrivals := by
    intro ticket ht
    have hlt := List.snd_lt_of_mem_zipIdx (hperm.mem_iff.mp ht)
    omega
  cases hb with
  | @running job hmem hseq hfirst =>
    have hactive : job.entry ∈ session.active :=
      List.mem_append_left _ (List.mem_map_of_mem hmem)
    have hlt := hticket job.entry.ticket (List.mem_append_right _ (List.mem_map_of_mem hactive))
    exact hseq ▸ hlt
  | @completed completion hmem hseq hfirst =>
    have hlt := hticket completion.1.ticket
      (List.mem_append_left _ (List.mem_map.mpr ⟨completion, hmem, rfl⟩))
    exact hseq ▸ hlt

/-- New arrivals join the line behind everybody. -/
theorem Receives.fair {session received : Session} (h : Receives engine session received)
    (hw : session.Wf engine.config engine.timelineMode requests) (hf : session.Fair) :
    received.Fair := by
  obtain ⟨⟨entries, taken, -, he, htickets, -, -⟩, -⟩ := h
  have hbegan : ∀ seq firstMs, received.Began seq firstMs → session.Began seq firstMs := by
    intro seq firstMs hb
    rw [he] at hb
    cases hb with
    | running hmem hseq hfirst => exact .running hmem hseq hfirst
    | completed hmem hseq hfirst => exact .completed hmem hseq hfirst
  have hnow : received.nowMs = session.nowMs := by rw [he]
  refine ⟨?_, ?_, ?_⟩
  · intro seq firstMs hb
    rw [hnow]
    exact hf.past seq firstMs (hbegan seq firstMs hb)
  · intro seq firstMs seq' firstMs' hb hb'
    exact hf.ordered seq firstMs seq' firstMs' (hbegan _ _ hb) (hbegan _ _ hb')
  · intro seq firstMs hb entry hentry
    have hb := hbegan seq firstMs hb
    rw [he] at hentry
    rcases List.mem_append.mp hentry with hentry | hentry
    · exact hf.ahead seq firstMs hb entry hentry
    · have hticket : entry.ticket ∈ taken.zipIdx session.arrivals :=
        htickets ▸ List.mem_map_of_mem hentry
      exact (hw.began_lt hb).trans_le (List.le_snd_of_mem_zipIdx hticket)

/-- No iteration changes when a request was first scheduled. -/
theorem Outcome.first {facts : IterationFacts} {batch : List (Job × Option ScheduledSlice)}
    {served : List (ScheduledSlice × SliceRecord)} {job : Job}
    (h : Outcome engine facts batch served job) : ∃ item ∈ batch, item.1.seq = job.seq ∧
      item.1.state.firstScheduledTimeMs = job.state.firstScheduledTimeMs := by
  cases h with
  | @idle job hjob =>
    refine ⟨_, hjob, (Job.sitOut_seq _ _ _).symm, ?_⟩
    cases engine.timelineMode <;> rfl
  | @served job slice progress queue hjob hrecord hadvanced =>
    have hstanding := hadvanced.progressed.standing_eq
    exact ⟨_, hjob, (congrArg RequestState.arrivalSeq hstanding :).symm,
      (congrArg RequestState.firstScheduledTimeMs hstanding :).symm⟩

section Prepared

variable {session : Session} {frontier : Frontier}

/-- Who is dealt with comes before those left waiting. -/
theorem Frontier.Prepared.dealt (h : frontier.Prepared engine session)
    (hw : session.Wf engine.config engine.timelineMode requests)
    {ticket : SimulationRequest × ℕ}
    (ht : ticket ∈ tickets frontier.completed ++ frontier.admitted.map (·.1.ticket)) :
    (∃ entry ∈ session.waiting, entry.seq = ticket.2) ∧
      ∀ entry ∈ frontier.waiting, ticket.2 < entry.seq := by
  obtain ⟨dealt, hdealt, -, hperm⟩ := h.split
  have hmem := hperm.mem_iff.mp ht
  have horder := hw.order
  rw [Session.active, List.map_append, hdealt] at horder
  obtain ⟨-, horder, -⟩ := List.pairwise_append.mp horder
  obtain ⟨-, -, hbefore⟩ := List.pairwise_append.mp horder
  constructor
  · have hline : ticket ∈ session.waiting.map Entry.ticket :=
      hdealt ▸ List.mem_append_left _ hmem
    obtain ⟨entry, hentry, rfl⟩ := List.mem_map.mp hline
    exact ⟨entry, hentry, rfl⟩
  · intro entry hentry
    exact hbefore ticket hmem entry.ticket (List.mem_map_of_mem hentry)

theorem Frontier.Prepared.kept (h : frontier.Prepared engine session) :
    ∀ entry ∈ frontier.waiting, ∃ kept ∈ session.waiting, kept.seq = entry.seq := by
  intro entry hentry
  obtain ⟨dealt, hdealt, -, -⟩ := h.split
  have hline : entry.ticket ∈ session.waiting.map Entry.ticket :=
    hdealt ▸ List.mem_append_right _ (List.mem_map_of_mem hentry)
  obtain ⟨kept, hkept, he⟩ := List.mem_map.mp hline
  exact ⟨kept, hkept, congrArg Prod.snd he⟩

/-- Whom the preparation of a batch finishes begins, and ends, now. -/
theorem Prepares.completed_now {world world' : World C K}
    (h : Prepares engine session world frontier world')
    (hw : session.Wf engine.config engine.timelineMode requests) :
    ∀ completion ∈ frontier.completed,
      completion.1.state.firstScheduledTimeMs = some session.nowMs ∧
        completion.2.missTokens = 0 ∧ completion.2.scheduledIterationCount = 0 := by
  intro completion hc
  obtain ⟨entry, hentry, job, _, _, hlook, hr, hload, hdone⟩ := h.from_line.completed completion hc
  have hready := (hw.waiting entry hentry).look hlook
  obtain ⟨he, hmetric⟩ := Job.complete_ok hdone
  have hdescribes := build_request_metrics_describes hmetric
  have hknows := hready.ledger.knows
  have htiles := hready.ledger.tiles
  have hcount := hready.ledger.iterations_eq
  rw [Job.slices, hready.unserved, List.map_nil] at htiles
  rw [hready.unserved, List.length_nil] at hcount
  refine ⟨?_, ?_, ?_⟩
  · rw [he]
    simp [finishZeroMiss, hready.unscheduled]
  · rw [hdescribes.misses_eq, he]
    have hcached : job.state.cachedTokens = job.state.numComputedTokens := htiles
    have hsum := hknows.sum_eq
    have hhit := hknows.cached_eq
    unfold RequestState.remaining at hr
    show job.lookup.missTokens = 0
    omega
  · rw [hdescribes.iterations_eq, he]
    exact hcount

theorem Prepares.emptied_fair {world world' : World C K}
    (h : Prepares engine session world frontier world')
    (hw : session.Wf engine.config engine.timelineMode requests) (hf : session.Fair) {nowMs : ℚ}
    (hnow : session.nowMs ≤ nowMs) : (session.emptied frontier nowMs).Fair := by
  have hprepared := h.prepared hw
  refine hf.schedule hnow ?_ (by simp [Session.emptied])
  intro seq firstMs hb
  cases hb with
  | running hmem => cases hmem
  | @completed completion hmem hseq hfirst =>
    rcases List.mem_append.mp hmem with hmem | hmem
    · exact .inl (.completed hmem hseq hfirst)
    · have hdealt := hprepared.dealt hw (List.mem_append_left (frontier.admitted.map (·.1.ticket))
        (List.mem_map.mpr ⟨completion, hmem, rfl⟩))
      rw [(h.completed_now hw completion hmem).1] at hfirst
      cases hfirst
      exact .inr ⟨rfl, hseq ▸ hdealt.1, by simp [Session.emptied]⟩

theorem Prepares.iterated_fair {instanceUuid : String} {session' : Session}
    {world₀ world₁ world world' : World C K} (h : Prepares engine session world₀ frontier world₁)
    (hw : session.Wf engine.config engine.timelineMode requests) (hf : session.Fair)
    (hi : Iterates engine instanceUuid session frontier world session' world') :
    session'.Fair := by
  have hprepared := h.prepared hw
  obtain ⟨hg, hadm, -, -, -, -, happlies, -⟩ := hi
  rename_i granted admitted shape latency world₂ breakdown applied world₃ metric
  have houtcomes := happlies.outcomes (hprepared.batched hg hadm)
  have hle := engine.clock.le_add session.nowMs latency.durationMs latency.duration_nonneg
  have hbatch : ∀ item ∈ batchOf granted frontier.idle admitted, ∀ firstMs,
      item.1.state.firstScheduledTimeMs.getD session.nowMs = firstMs →
      session.Began item.1.seq firstMs ∨ firstMs = session.nowMs ∧
        (∃ entry ∈ session.waiting, entry.seq = item.1.seq) ∧
          ∀ entry ∈ frontier.waiting, item.1.seq < entry.seq := by
    -- a request that is admitted counts as scheduled now before it has entered service
    refine hprepared.batch_forall (Q := fun job ↦ ∀ firstMs,
      job.state.firstScheduledTimeMs.getD session.nowMs = firstMs →
      session.Began job.seq firstMs ∨ firstMs = session.nowMs ∧
        (∃ entry ∈ session.waiting, entry.seq = job.seq) ∧
          ∀ entry ∈ frontier.waiting, job.seq < entry.seq) hg hadm ?_ ?_ ?_ ?_
    · intro job hj firstMs hfirst
      obtain ⟨scheduledMs, hscheduled, -⟩ := (hw.running job hj).scheduled
      rw [hscheduled, Option.getD_some] at hfirst
      exact .inl (.running hj rfl (hfirst ▸ hscheduled))
    · intro item hi firstMs hfirst
      rw [(hprepared.admitted item hi).1.unscheduled, Option.getD_none] at hfirst
      exact .inr ⟨hfirst.symm, hprepared.dealt hw
        (List.mem_append_right (tickets frontier.completed) (List.mem_map.mpr ⟨item, hi, rfl⟩))⟩
    · intro job hq firstMs hfirst
      simp only [Job.handOver, RequestState.consumed_first_scheduled, Job.seq,
        RequestState.consumed_seq] at hfirst ⊢
      exact hq firstMs hfirst
    · exact fun job hq ↦ hq
  have hserved : ∀ job, Outcome engine
      { shape, breakdown, durationMs := latency.durationMs,
        finishMs := engine.clock.add session.nowMs latency.durationMs }
      (batchOf granted frontier.idle admitted)
      (((batchOf granted frontier.idle admitted).filterMap Prod.snd).zip applied.records) job →
      ∀ firstMs, job.state.firstScheduledTimeMs = some firstMs →
        session.Began job.seq firstMs ∨ firstMs = session.nowMs ∧
          (∃ entry ∈ session.waiting, entry.seq = job.seq) ∧
            ∀ entry ∈ frontier.waiting, job.seq < entry.seq := by
    intro job hjob firstMs hfirst
    obtain ⟨item, hi, hseq, hitem⟩ := hjob.first
    have hb := hbatch item hi firstMs (by rw [hitem, hfirst, Option.getD_some])
    rw [hseq] at hb
    exact hb
  have hleft : ∀ entry ∈ frontier.waiting.map
      (Entry.sitOut engine.timelineMode latency.durationMs), ∃ kept ∈ frontier.waiting,
        kept.seq = entry.seq := by
    intro entry hentry
    obtain ⟨kept, hkept, rfl⟩ := List.mem_map.mp hentry
    exact ⟨kept, hkept, (Entry.sitOut_seq _ _ _).symm⟩
  have hnext : ∀ seq firstMs, (session.Began seq firstMs ∨ firstMs = session.nowMs ∧
      (∃ entry ∈ session.waiting, entry.seq = seq) ∧
        ∀ entry ∈ frontier.waiting, seq < entry.seq) →
      session.Began seq firstMs ∨ firstMs = session.nowMs ∧
        (∃ entry ∈ session.waiting, entry.seq = seq) ∧
          ∀ entry ∈ frontier.waiting.map
            (Entry.sitOut engine.timelineMode latency.durationMs), seq < entry.seq := by
    rintro seq firstMs (hb | ⟨hnow, hline, hahead⟩)
    · exact .inl hb
    · refine .inr ⟨hnow, hline, fun entry hentry ↦ ?_⟩
      obtain ⟨kept, hkept, hseq⟩ := hleft entry hentry
      exact hseq ▸ hahead kept hkept
  refine hf.schedule hle ?_ ?_
  · intro seq firstMs hb
    refine hnext seq firstMs ?_
    cases hb with
    | @running job hmem hseq hfirst =>
      exact hseq ▸ hserved job (houtcomes.running job hmem) firstMs hfirst
    | @completed completion hmem hseq hfirst =>
      rcases List.mem_append.mp hmem with hmem | hmem
      · rcases List.mem_append.mp hmem with hmem | hmem
        · exact .inl (.completed hmem hseq hfirst)
        · rw [(h.completed_now hw completion hmem).1] at hfirst
          cases hfirst
          exact .inr ⟨rfl, hseq ▸ hprepared.dealt hw (List.mem_append_left
            (frontier.admitted.map (·.1.ticket)) (List.mem_map.mpr ⟨completion, hmem, rfl⟩))⟩
      · exact hseq ▸ hserved completion.1 (houtcomes.completed completion hmem) firstMs hfirst
  · intro entry hentry
    obtain ⟨kept, hkept, hseq⟩ := hleft entry hentry
    obtain ⟨first, hfirst, hseq'⟩ := hprepared.kept kept hkept
    exact ⟨first, hfirst, hseq'.trans hseq⟩

end Prepared

/-- One pass keeps to the order of arrival. -/
theorem Passes.fair {instanceUuid : String} {session : Session} {flow : Flow Session}
    {world world' : World C K} (h : Passes engine instanceUuid session world flow world')
    (hw : session.Wf engine.config engine.timelineMode requests) (hf : session.Fair) :
    flow.state.Fair := by
  cases h with
  | jump hreceive hidle hpending =>
    have hlater := hreceive.later _ (by rw [hpending]; rfl)
    exact (hreceive.fair hw hf).at_time (hreceive.now_eq.le.trans hlater.le)
  | idle hreceive => exact hreceive.fair hw hf
  | skip hreceive hbusy hprepares =>
    exact hprepares.emptied_fair (hreceive.wf hw) (hreceive.fair hw hf) (le_max_left _ _)
  | finish hreceive hbusy hprepares =>
    exact hprepares.emptied_fair (hreceive.wf hw) (hreceive.fair hw hf) le_rfl
  | batch hreceive hbusy hprepares hleft hiterates =>
    exact hprepares.iterated_fair (hreceive.wf hw) (hreceive.fair hw hf) hiterates

end InferTwin
