import InferTwin.Refinement.Frontier

namespace InferTwin

open Effect

variable {C K : Type}

/-- Store the state of a request. -/
def Heap.put (heap : Heap) (job : Job) : Heap := Function.update heap job.seq job.state

/-- Store the states of the requests of a batch. -/
def Heap.putAll (heap : Heap) (built : List (Job × ScheduledSlice)) : Heap :=
  built.foldl (fun heap item ↦ heap.put item.1) heap

namespace Heap

variable {heap : Heap} {job : Job} {ref : ℕ} {built : List (Job × ScheduledSlice)}

theorem put_self : heap.put job job.seq = job.state := Function.update_self ..

theorem put_other (h : ref ≠ job.seq) : heap.put job ref = heap ref := Function.update_of_ne h _ _

theorem putAll_other (h : ref ∉ built.map (·.1.seq)) : heap.putAll built ref = heap ref := by
  induction built generalizing heap with
  | nil => rfl
  | cons item built ih =>
    simp only [List.map_cons, List.mem_cons, not_or] at h
    exact (ih h.2).trans (put_other h.1)

theorem putAll_mem (hd : (built.map (·.1.seq)).Nodup) {item : Job × ScheduledSlice}
    (hi : item ∈ built) : heap.putAll built item.1.seq = item.1.state := by
  induction built generalizing heap with
  | nil => cases hi
  | cons first built ih =>
    simp only [List.map_cons, List.nodup_cons] at hd
    rcases List.mem_cons.mp hi with rfl | hi
    · exact (putAll_other hd.1).trans put_self
    · exact ih hd.2 hi

end Heap

theorem RequestState.LookedUp.slice_seq {state state' : RequestState} (h : state.LookedUp)
    {tokens : ℕ} {slice : ScheduledSlice} (hs : sliceFor state tokens = .ok (slice, state')) :
    state'.arrivalSeq = state.arrivalSeq := by
  rw [(slice_for_ok h hs).2, RequestState.consumed_seq]

/-- The scheduler's loop over the running requests builds the slices of those that are
served. -/
theorem schedule_running_eq {timelineMode : TimelineMode} {nowMs lostMs : ℚ}
    (config : SchedulerConfig) {jobs : List Job} (tokenBudget seats : ℕ)
    (slices : List ScheduledSlice) (heap : Heap)
    (hc : config.enableChunkedPrefill = false → jobs = [])
    (hr : ∀ job ∈ jobs, job.Running timelineMode nowMs lostMs)
    (hh : ∀ job ∈ jobs, heap job.seq = job.state) (hd : (jobs.map Job.seq).Nodup)
    (hs : slices.length + seats = config.maxNumSeqs) :
    scheduleRunning config (jobs.map Job.seq) tokenBudget slices heap =
      (sliceAll (serve config tokenBudget seats jobs).1).map fun built ↦
        (tokenBudget - grantedTokens (serve config tokenBudget seats jobs).1,
          slices ++ built.map Prod.snd, heap.putAll built) := by
  induction jobs generalizing tokenBudget seats slices heap with
  | nil => simp [scheduleRunning, serve, sliceAll, grantedTokens, Except.map, Heap.putAll]
  | cons job jobs ih =>
    have hrun := hr _ (List.mem_cons_self ..)
    have hl := hrun.ledger.knows.looked_up
    have hheap := hh _ (List.mem_cons_self ..)
    have hpos := hrun.remaining_pos
    have hchunk : config.enableChunkedPrefill = true := by
      cases he : config.enableChunkedPrefill with
      | true => rfl
      | false => exact absurd (hc he) (by simp)
    simp only [List.map_cons, List.nodup_cons] at hd
    simp only [List.map_cons, scheduleRunning, hheap, hrun.running, hl.load_only_eq,
      hl.planned_eq config]
    by_cases hseats : seats = 0
    · rw [if_pos (by omega), serve, if_pos (.inr hseats)]
      simp [sliceAll, grantedTokens, Except.map, Heap.putAll]
    rw [if_neg (by omega)]
    by_cases hb : tokenBudget = 0
    · simp [hb, hpos.ne', serve, sliceAll, grantedTokens, Except.map, Heap.putAll, bind, Except.bind,
        pure, Except.pure]
    have hgrant := config.grant_pos hpos (Nat.pos_of_ne_zero hb) (.inl hchunk)
    have hserve : serve config tokenBudget seats (job :: jobs) =
        ((job, config.grant job.state.remaining tokenBudget) ::
          (serve config (tokenBudget - config.grant job.state.remaining tokenBudget) (seats - 1)
            jobs).1,
        (serve config (tokenBudget - config.grant job.state.remaining tokenBudget) (seats - 1)
          jobs).2) := by
      rw [serve, if_neg (by simp [hb, hseats])]
    simp only [ne_eq, not_true_eq_false, if_false, bind, Except.bind, hb, hpos.ne', hgrant.ne',
      false_and, decide_false, hserve, sliceAll]
    cases hslice : sliceFor job.state (config.grant job.state.remaining tokenBudget) with
    | error e => rfl
    | ok built =>
      obtain ⟨slice, state⟩ := built
      have hseq : state.arrivalSeq = job.seq := hl.slice_seq hslice
      have hheap' : ∀ other ∈ jobs, Function.update heap job.seq state other.seq = other.state := by
        intro other ho
        have hne : other.seq ≠ job.seq := fun he ↦ hd.1 (he ▸ List.mem_map_of_mem ho)
        rw [Function.update_of_ne hne, hh other (List.mem_cons_of_mem _ ho)]
      have hrest := ih (tokenBudget - config.grant job.state.remaining tokenBudget) (seats - 1)
        (slices ++ [slice]) (Function.update heap job.seq state) (fun he ↦ by simp [hchunk] at he)
        (List.forall_mem_of_forall_mem_cons hr) hheap' hd.2 (by simp; omega)
      dsimp only
      rw [hrest]
      cases sliceAll (serve config (tokenBudget - config.grant job.state.remaining tokenBudget)
        (seats - 1) jobs).1 with
      | error e => rfl
      | ok rest =>
        simp [Except.map, pure, Except.pure, grantedTokens, Nat.sub_sub, Heap.putAll, Heap.put,
          Job.seq, hseq]

/-- The source admits a request and builds its slice. -/
theorem schedule_waiting_step {config : SchedulerConfig} {nowMs : ℚ} {job : Job} {tokens : ℕ}
    {heap : Heap} (refs running : List ℕ) {tokenBudget : ℕ} (slices : List ScheduledSlice)
    (hl : job.state.LookedUp) (hheap : heap job.seq = job.state)
    (hw : job.state.status = .waiting) (hs : slices.length < config.maxNumSeqs)
    (hg : config.grant job.state.remaining tokenBudget = tokens)
    (hwork : tokens ≠ 0 ∨ job.state.remaining = 0 ∧ job.state.pendingLoad ≠ (0, 0)) :
    scheduleWaiting config nowMs (job.seq :: refs) running tokenBudget slices heap =
      sliceFor (job.enter nowMs).state tokens >>= fun built ↦
        scheduleWaiting config nowMs refs (running ++ [job.seq]) (tokenBudget - tokens)
          (slices ++ [built.1]) (Function.update heap job.seq built.2) := by
  have hle := config.grant_le_budget job.state.remaining tokenBudget
  rw [scheduleWaiting, if_neg (not_le.mpr hs), hheap, hl.load_only_eq, hl.planned_eq config, hg]
  have hdone := hl.done
  rcases hwork with hpos | ⟨hr, hload⟩
  · have hb : tokenBudget ≠ 0 := by omega
    simp [hw, hb, hpos, bind, Except.bind, Job.enter]
  · simp [hw, hr, hload, hdone, bind, Except.bind, Job.enter]

/-- The source leaves a request that does not fit at the head of the queue. -/
theorem schedule_waiting_stop {config : SchedulerConfig} {nowMs : ℚ} {entry : Entry}
    {heap : Heap} (refs running : List ℕ) {tokenBudget : ℕ} (slices : List ScheduledSlice)
    (hl : entry.state.LookedUp) (hheap : heap entry.seq = entry.state)
    (hw : entry.state.status = .waiting) (hr : entry.state.remaining ≠ 0)
    (hg : config.grant entry.state.remaining tokenBudget = 0) :
    scheduleWaiting config nowMs (entry.seq :: refs) running tokenBudget slices heap =
      .ok (slices, ⟨entry.seq :: refs, running, heap⟩) := by
  rw [scheduleWaiting, hheap, hl.load_only_eq, hl.planned_eq config, hg]
  simp [hw, hr, bind, Except.bind, pure, Except.pure]

/-- What the loop over the waiting queue makes of the requests a scan has admitted and of
those it has left. -/
def ScheduleWaitingEq (config : SchedulerConfig) (nowMs : ℚ) (tokenBudget : ℕ)
    (admitted : List (Job × ℕ)) (waiting : List Entry) (running : List ℕ)
    (slices : List ScheduledSlice) (heap : Heap) : Prop :=
  scheduleWaiting config nowMs (admitted.map (·.1.seq) ++ waiting.map Entry.seq) running
      tokenBudget slices heap =
    (sliceAll (admitted.map fun admitted ↦ (admitted.1.enter nowMs, admitted.2))).map
      fun built ↦ (slices ++ built.map Prod.snd, {
        waiting := waiting.map Entry.seq
        running := running ++ admitted.map (·.1.seq)
        heap := heap.putAll built })

theorem ScheduleWaitingEq.enter {config : SchedulerConfig} {nowMs : ℚ} {tokenBudget tokens : ℕ}
    {job : Job} {admitted : List (Job × ℕ)} {waiting : List Entry} {running : List ℕ}
    {slices : List ScheduledSlice} {heap : Heap}
    (hl : job.state.LookedUp) (hw : job.state.status = .waiting)
    (hs : slices.length < config.maxNumSeqs)
    (hg : config.grant job.state.remaining tokenBudget = tokens)
    (hwork : tokens ≠ 0 ∨ job.state.remaining = 0 ∧ job.state.pendingLoad ≠ (0, 0))
    (hd : ((job, tokens) :: admitted |>.map (·.1.seq)) ++ waiting.map Entry.seq |>.Nodup)
    (hadmitted : ∀ item ∈ (job, tokens) :: admitted, heap item.1.seq = item.1.state)
    (hwaiting : ∀ entry ∈ waiting, heap entry.seq = entry.state)
    (hrest : ∀ slice heap', (∀ item ∈ admitted, heap' item.1.seq = item.1.state) →
      (∀ entry ∈ waiting, heap' entry.seq = entry.state) →
      ScheduleWaitingEq config nowMs (tokenBudget - tokens) admitted waiting
        (running ++ [job.seq]) (slices ++ [slice]) heap') :
    ScheduleWaitingEq config nowMs tokenBudget ((job, tokens) :: admitted) waiting running slices
      heap := by
  simp only [List.map_cons, List.cons_append, List.nodup_cons, List.mem_append, not_or] at hd
  obtain ⟨⟨hfront, hback⟩, hd⟩ := hd
  unfold ScheduleWaitingEq at hrest ⊢
  simp only [List.map_cons, List.cons_append, sliceAll]
  rw [schedule_waiting_step _ running slices hl (hadmitted _ (List.mem_cons_self ..)) hw hs hg hwork]
  have hadmit : (job.enter nowMs).state.LookedUp := ⟨hl.done, hl.miss⟩
  cases hslice : sliceFor (job.enter nowMs).state tokens with
  | error e => rfl
  | ok built =>
    obtain ⟨slice, state⟩ := built
    have hseq : state.arrivalSeq = job.seq := hadmit.slice_seq hslice
    have hother : ∀ {ref : ℕ}, ref ≠ job.seq →
        Function.update heap job.seq state ref = heap ref := fun hne ↦
      Function.update_of_ne hne _ _
    have hnext := hrest slice (Function.update heap job.seq state)
      (fun item hi ↦ by
        have hne : item.1.seq ≠ job.seq := fun he ↦ hfront (he ▸ List.mem_map_of_mem hi)
        rw [hother hne, hadmitted item (List.mem_cons_of_mem _ hi)])
      (fun entry he ↦ by
        have hne : entry.seq ≠ job.seq := fun heq ↦ hback (heq ▸ List.mem_map_of_mem he)
        rw [hother hne, hwaiting entry he])
    simp only [bind, Except.bind] at hnext ⊢
    rw [hnext]
    cases sliceAll (admitted.map fun item ↦ (item.1.enter nowMs, item.2)) with
    | error e => rfl
    | ok rest => simp [Except.map, pure, Except.pure, Heap.putAll, Heap.put, Job.seq, hseq]

/-- The scheduler's loop over the waiting queue admits whom the scan has planned. -/
theorem schedule_waiting_eq {engine : Engine C K} {nowMs lostMs : ℚ} {tokenBudget seats : ℕ}
    {entries : List Entry} {scan : Scan} {world world' : World C K}
    (h : Scans engine nowMs tokenBudget seats entries world scan world')
    (hw : ∀ entry ∈ entries, entry.Waiting engine.timelineMode nowMs lostMs)
    (running : List ℕ) (slices : List ScheduledSlice) (heap : Heap)
    (hs : slices.length + seats = engine.config.maxNumSeqs)
    (hd : (scan.admitted.map (·.1.seq) ++ scan.waiting.map Entry.seq).Nodup)
    (hadmitted : ∀ admitted ∈ scan.admitted, heap admitted.1.seq = admitted.1.state)
    (hwaiting : ∀ entry ∈ scan.waiting, heap entry.seq = entry.state) :
    ScheduleWaitingEq engine.config nowMs tokenBudget scan.admitted scan.waiting running slices
      heap := by
  induction h generalizing running slices heap with
  | nil => simp [ScheduleWaitingEq, scheduleWaiting, sliceAll, Except.map, Heap.putAll]
  | @full _ entry entries _ =>
    simp only [ScheduleWaitingEq, List.map_nil, List.nil_append, List.map_cons, scheduleWaiting]
    rw [if_pos (by omega)]
    simp [sliceAll, Except.map, Heap.putAll]
  | load hlook hr hload hrest ih =>
    have hready := (hw _ (List.mem_cons_self ..)).look hlook
    refine ScheduleWaitingEq.enter hready.ledger.knows.looked_up hready.waiting (by omega)
      (by simp [SchedulerConfig.grant, hr]) (.inr ⟨hr, hload⟩) hd hadmitted hwaiting ?_
    intro slice heap' hadmitted' hwaiting'
    refine ih (List.forall_mem_of_forall_mem_cons hw) _ _ heap' ?_ ?_ hadmitted' hwaiting'
    · simp only [List.length_append, List.length_singleton]
      omega
    · exact (List.nodup_cons.mp hd).2
  | finish _ _ _ _ _ ih =>
    exact ih (List.forall_mem_of_forall_mem_cons hw) running slices heap hs hd hadmitted hwaiting
  | stop hlook hr hg =>
    have hready := (hw _ (List.mem_cons_self ..)).look hlook
    simp only [ScheduleWaitingEq, List.map_nil, List.nil_append, List.map_cons]
    rw [schedule_waiting_stop _ running slices hready.ledger.knows.looked_up
      (hwaiting _ (List.mem_cons_self ..)) hready.waiting hr hg]
    simp [sliceAll, Except.map, Heap.putAll]
  | enter hlook hr hg hrest ih =>
    have hready := (hw _ (List.mem_cons_self ..)).look hlook
    refine ScheduleWaitingEq.enter hready.ledger.knows.looked_up hready.waiting (by omega) rfl
      (.inl hg) hd hadmitted hwaiting ?_
    intro slice heap' hadmitted' hwaiting'
    refine ih (List.forall_mem_of_forall_mem_cons hw) _ _ heap' ?_ ?_ hadmitted' hwaiting'
    · simp only [List.length_append, List.length_singleton]
      omega
    · exact (List.nodup_cons.mp hd).2

/-- Nothing is admitted when the running requests have used up the tokens. -/
theorem schedule_waiting_none {engine : Engine C K} {nowMs lostMs : ℚ} {entries : List Entry}
    (hw : ∀ entry ∈ entries, entry.Waiting engine.timelineMode nowMs lostMs)
    (running : List ℕ) (slices : List ScheduledSlice) (heap : Heap)
    (hwaiting : ∀ entry ∈ entries, heap entry.seq = entry.state) :
    ScheduleWaitingEq engine.config nowMs 0 [] entries running slices heap := by
  unfold ScheduleWaitingEq
  cases entries with
  | nil => simp [scheduleWaiting, sliceAll, Except.map, Heap.putAll]
  | cons entry entries =>
    have hentry := hw _ (List.mem_cons_self ..)
    have hheap := hwaiting _ (List.mem_cons_self ..)
    simp only [List.map_nil, List.nil_append, List.map_cons]
    cases hl : entry.lookup with
    | none =>
      have hdone := hentry.fresh hl
      simp [scheduleWaiting, hheap, hentry.waiting, hdone, sliceAll, Except.map, Heap.putAll]
    | some lookup =>
      obtain ⟨hknown, hr⟩ := hentry.known lookup hl
      rw [schedule_waiting_stop _ running slices hknown.knows.looked_up hheap hentry.waiting hr.ne'
        (Nat.le_zero.mp (engine.config.grant_le_budget _ 0))]
      simp [sliceAll, Except.map, Heap.putAll]

/-- The requests in service and those left waiting, after a batch has been prepared. -/
def Frontier.active (frontier : Frontier) (session : Session) : List Entry :=
  session.running.map Job.entry ++ (frontier.admitted.map (·.1.entry) ++ frontier.waiting)

section Active

variable {engine : Engine C K} {session : Session} {frontier : Frontier}
  {requests : List SimulationRequest}

theorem Frontier.Prepared.named (h : frontier.Prepared engine session)
    (hw : session.Wf engine.config engine.timelineMode requests) :
    Named (frontier.active session) := by
  intro entry he
  simp only [Frontier.active, List.mem_append, List.mem_map] at he
  rcases he with ⟨job, hj, rfl⟩ | ⟨admitted, ha, rfl⟩ | he
  · exact (hw.running job hj).ledger.tracks.id_eq
  · exact (h.admitted admitted ha).1.ledger.tracks.id_eq
  · exact (h.waiting entry he).tracks.id_eq

/-- Preparing a batch loses nobody but those it finishes. -/
theorem Frontier.Prepared.active_perm (h : frontier.Prepared engine session) :
    (tickets frontier.completed ++ (frontier.active session).map Entry.ticket).Perm
      (session.active.map Entry.ticket) := by
  obtain ⟨dealt, hdealt, -, hperm⟩ := h.split
  simp only [Frontier.active, Session.active, List.map_append, List.map_map, Function.comp_def,
    Job.entry_ticket, hdealt]
  rw [List.perm_iff_count]
  intro ticket
  have hcount := hperm.count_eq ticket
  simp only [List.count_append] at hcount ⊢
  omega

theorem Frontier.Prepared.distinct (h : frontier.Prepared engine session)
    (hw : session.Wf engine.config engine.timelineMode requests) :
    Distinct (frontier.active session) := by
  obtain ⟨dealt, hdealt, hsub, -⟩ := h.split
  refine hw.active_distinct.of_tickets hw.named (h.named hw) ?_
  simp only [Frontier.active, Session.active, List.map_append, hdealt]
  refine (List.Sublist.refl _).append (List.Sublist.append ?_ (List.Sublist.refl _))
  simpa [Function.comp_def] using hsub

end Active

theorem sliced_seqs {planned : List (Job × ℕ)} {built : List (Job × ScheduledSlice)}
    (h : List.Forall₂ Sliced planned built) :
    built.map (·.1.seq) = planned.map (·.1.seq) := by
  have ht := congrArg (List.map Prod.snd) (sliced_tickets h)
  simpa [Job.ticket, Function.comp_def] using ht

/-- Heap, dictionaries and queues of a replay hold the requests of a prepared batch. -/
structure RepresentsFrontier (locals : Locals) (session : Session) (frontier : Frontier) :
    Prop where
  waiting_eq : locals.waiting =
    frontier.admitted.map (·.1.seq) ++ frontier.waiting.map Entry.seq
  running_eq : locals.running = session.running.map Job.seq
  held : ∀ entry ∈ frontier.active session, Held locals entry
  queue_eq : locals.transferQueue = session.transferQueue

theorem FrontierAgrees.represents {session : Session} {locals : Locals}
    {result : FrontierPlan × Locals} {frontier : Frontier}
    (h : FrontierAgrees session locals result frontier) (hr : Represents locals session) :
    RepresentsFrontier result.2 session frontier where
  waiting_eq := by rw [h.locals_eq]
  running_eq := by
    rw [h.locals_eq]
    exact hr.running_eq
  held := by
    intro entry he
    simp only [Frontier.active, List.mem_append, List.mem_map] at he
    rcases he with ⟨job, hj, rfl⟩ | ⟨admitted, ha, rfl⟩ | he
    · exact h.running job hj
    · exact h.admitted admitted ha
    · exact h.waiting entry he
  queue_eq := by
    rw [h.locals_eq]
    exact hr.queue_eq

namespace RepresentsFrontier

variable {locals : Locals} {session : Session} {frontier : Frontier}

theorem running (h : RepresentsFrontier locals session frontier) :
    ∀ job ∈ session.running, Held locals job.entry :=
  fun _ hj ↦ h.held _ (List.mem_append_left _ (List.mem_map_of_mem hj))

theorem admitted (h : RepresentsFrontier locals session frontier) :
    ∀ item ∈ frontier.admitted, Held locals item.1.entry :=
  fun _ hi ↦ h.held _ (List.mem_append_right _ (List.mem_append_left _
    (List.mem_map.mpr ⟨_, hi, rfl⟩)))

theorem waiting (h : RepresentsFrontier locals session frontier) :
    ∀ entry ∈ frontier.waiting, Held locals entry :=
  fun _ he ↦ h.held _ (List.mem_append_right _ (List.mem_append_right _ he))

end RepresentsFrontier

/-- The FCFS scheduler builds exactly the slices of the frontier it was prepared for. -/
theorem schedule_eq {engine : Engine C K} {session : Session} {frontier : Frontier}
    {requests : List SimulationRequest} {world world' : World C K} {locals : Locals}
    (hw : session.Wf engine.config engine.timelineMode requests)
    (hprepares : Prepares engine session world frontier world')
    (h : RepresentsFrontier locals session frontier) (instanceUuid : String) :
    schedule engine.config instanceUuid session.iterationId session.nowMs locals.waiting
        locals.running locals.heap =
      sliceAll frontier.granted >>= fun granted ↦
        sliceAll (frontier.entering session.nowMs) >>= fun admitted ↦
          (batchShape instanceUuid session ((granted ++ admitted).map Prod.snd)).map fun shape ↦
            (shape, {
              waiting := frontier.waiting.map Entry.seq
              running := session.running.map Job.seq ++ frontier.admitted.map (·.1.seq)
              heap := (locals.heap.putAll granted).putAll admitted }) := by
  have hp := hprepares.prepared hw
  have hd := (hp.distinct hw).seqs
  simp only [Frontier.active, List.map_append, List.map_map, Function.comp_def, Job.entry_seq] at hd
  have hrunning := schedule_running_eq engine.config engine.config.maxNumBatchedTokens
    engine.config.maxNumSeqs [] locals.heap hw.unchunked hw.running
    (fun job hj ↦ (h.running job hj).heap_eq) hd.of_append_left (by simp)
  rw [hprepares.served] at hrunning
  rw [schedule, h.running_eq, h.waiting_eq, hrunning, except_map_bind]
  cases hgranted : sliceAll frontier.granted with
  | error e => rfl
  | ok granted =>
    have hseqs := sliced_seqs (hp.sliced_granted hgranted)
    have happend := congrArg (List.map Job.seq) hp.running_eq
    have hlength := (hp.sliced_granted hgranted).length_eq
    have hother : ∀ {ref : ℕ}, ref ∉ session.running.map Job.seq →
        locals.heap.putAll granted ref = locals.heap ref := by
      intro ref href
      refine Heap.putAll_other fun hmem ↦ href ?_
      rw [← happend, List.map_append, List.map_map]
      exact List.mem_append_left _ (hseqs ▸ hmem)
    have hwaiting : ScheduleWaitingEq engine.config session.nowMs
        (engine.config.maxNumBatchedTokens - grantedTokens frontier.granted) frontier.admitted
        frontier.waiting (session.running.map Job.seq) (granted.map Prod.snd)
        (locals.heap.putAll granted) := by
      have hadmitted : ∀ item ∈ frontier.admitted,
          locals.heap.putAll granted item.1.seq = item.1.state := by
        intro item hi
        rw [hother fun hmem ↦ hd.disjoint hmem
          (List.mem_append_left _ (List.mem_map_of_mem hi))]
        exact (h.admitted item hi).heap_eq
      have hleft : ∀ entry ∈ frontier.waiting,
          locals.heap.putAll granted entry.seq = entry.state := by
        intro entry he
        rw [hother fun hmem ↦ hd.disjoint hmem
          (List.mem_append_right _ (List.mem_map_of_mem he))]
        exact (h.waiting entry he).heap_eq
      rcases hprepares.scanned with ⟨hb, hscan, -⟩ | ⟨hb, hscan⟩
      · have hnone : frontier.admitted = [] := by rw [hscan]
        rw [hb, hnone]
        exact schedule_waiting_none hp.waiting _ _ _ hleft
      · have hle := hp.seats_le
        refine schedule_waiting_eq hscan hw.waiting _ _ _ ?_ hd.of_append_right hadmitted hleft
        simp only [List.length_map]
        omega
    unfold ScheduleWaitingEq at hwaiting
    simp only [bind, Except.bind, List.nil_append, hwaiting, Frontier.entering]
    cases sliceAll (frontier.admitted.map fun admitted ↦
      (admitted.1.enter session.nowMs, admitted.2)) with
    | error e => rfl
    | ok admitted =>
      simp only [Except.map, batchShape, List.map_append]
      split_ifs <;> rfl

end InferTwin
