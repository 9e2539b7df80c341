import InferTwin.Server.Run

namespace InferTwin

open Effect

variable {C K : Type} {engine : Engine C K} {requests : List SimulationRequest}

def ticketWork (tickets : List (SimulationRequest × ℕ)) : ℕ :=
  (tickets.map fun ticket ↦ ticket.1.promptTokens + 2).sum

def jobWork (jobs : List Job) : ℕ := (jobs.map fun job ↦ job.state.remaining + 1).sum

def pendingWork (pending : List SimulationRequest) : ℕ :=
  (pending.map fun request ↦ request.promptTokens + 3).sum

theorem ticketWork_append (left right : List (SimulationRequest × ℕ)) :
    ticketWork (left ++ right) = ticketWork left + ticketWork right := by
  simp [ticketWork]

theorem ticketWork_perm {left right : List (SimulationRequest × ℕ)} (h : left.Perm right) :
    ticketWork left = ticketWork right := (h.map _).sum_eq

theorem pending_work_eq (taken : List SimulationRequest) (seq : ℕ) :
    pendingWork taken = ticketWork (taken.zipIdx seq) + taken.length := by
  induction taken generalizing seq with
  | nil => rfl
  | cons request taken ih =>
    have hrest := ih (seq + 1)
    simp only [pendingWork, ticketWork, List.map_cons, List.sum_cons, List.zipIdx_cons,
      List.length_cons] at hrest ⊢
    omega

theorem jobWork_append (left right : List Job) :
    jobWork (left ++ right) = jobWork left + jobWork right := by simp [jobWork]

namespace Session

/-- What is left to do: the tokens to compute, and the transitions of each request. -/
def work (session : Session) : ℕ :=
  pendingWork session.pending + ticketWork (session.waiting.map Entry.ticket) +
    jobWork session.running

/-- The next request has not arrived yet, so the clock may have to jump. -/
def toCome (session : Session) : ℕ :=
  match session.pending with
  | [] => 0
  | request :: _ => if session.nowMs < request.startTimeMs then 1 else 0

def potential (session : Session) : ℕ := session.work + session.toCome

theorem to_come_le (session : Session) : session.toCome ≤ 1 := by
  unfold toCome
  split
  · exact Nat.zero_le _
  · split_ifs <;> omega

end Session

/-- An arrival makes a request lighter. -/
theorem Receives.work_eq {session received : Session} (h : Receives engine session received) :
    ∃ taken, session.pending = taken ++ received.pending ∧
      (∀ request ∈ taken, request.startTimeMs ≤ session.nowMs) ∧
      received.work + taken.length = session.work ∧ (taken = [] → received = session) := by
  obtain ⟨⟨entries, taken, hp, he, ht, -, hstart⟩, -⟩ := h
  refine ⟨taken, hp, hstart, ?_, ?_⟩
  · have hwaiting : received.waiting.map Entry.ticket =
        session.waiting.map Entry.ticket ++ taken.zipIdx session.arrivals := by
      rw [he, List.map_append, ht]
    have hrunning : received.running = session.running := by rw [he]
    have htaken := pending_work_eq taken session.arrivals
    unfold Session.work
    rw [hwaiting, hrunning, ticketWork_append, hp]
    simp only [pendingWork, List.map_append, List.sum_append] at htaken ⊢
    omega
  · rintro rfl
    have hnil : entries = [] := by
      have hlength := congrArg List.length ht
      simpa using hlength
    rw [List.nil_append] at hp
    rw [he, hnil, ← hp]
    simp

/-- An iteration spends at least one unit of work for each of its slices. -/
theorem Applies.spent {facts : IterationFacts} {nowMs lostMs : ℚ}
    {batch : List (Job × Option ScheduledSlice)} {queue : SharedLinkFIFOTransferQueue}
    {totals : IterationTotals} {world world' : World C K} {applied : Applied}
    (h : Applies engine facts batch queue totals world applied world')
    (hle : nowMs ≤ facts.finishMs)
    (hb : ∀ item ∈ batch, Batched engine.timelineMode nowMs lostMs item)
    (hwork : ∀ item ∈ batch, ∀ slice ∈ item.2,
      slice.scheduledPrefillTokens ≠ 0 ∨ item.1.state.remaining = 0) :
    jobWork applied.running + (batch.filterMap Prod.snd).length ≤ jobWork (batch.map Prod.fst) := by
  induction h with
  | nil => simp [jobWork]
  | @idle job _ _ _ _ _ _ hrest ih =>
    have hsit : (job.sitOut engine.timelineMode facts.durationMs).state.remaining =
        job.state.remaining := Job.sitOut_remaining ..
    have hle' := ih (List.forall_mem_of_forall_mem_cons hb)
      (List.forall_mem_of_forall_mem_cons hwork)
    simp only [jobWork, List.map_cons, List.sum_cons, List.filterMap_cons, hsit] at hle' ⊢
    omega
  | @advance job slice _ _ _ _ progress _ _ _ hslice hrest ih =>
    have hle' := ih (List.forall_mem_of_forall_mem_cons hb)
      (List.forall_mem_of_forall_mem_cons hwork)
    have hitem := hb _ (List.mem_cons_self ..)
    have hserved := hitem.served hslice
    obtain ⟨planned, tokens, hin, hs⟩ := hitem
    have hlt := ((hin.serve hle hs hserved facts.durationMs).1 rfl).computed_lt
    have hspent := hwork _ (List.mem_cons_self ..) slice rfl
    have hprompt : progress.state.promptTokens = job.state.promptTokens :=
      (congrArg RequestState.promptTokens hserved.progressed.standing_eq :)
    have hcomputed := hserved.progressed.computed_eq
    simp only [Job.served] at hlt
    simp only [jobWork, List.map_cons, List.sum_cons, List.filterMap_cons, List.length_cons,
      Job.served, RequestState.remaining] at hle' hspent ⊢
    omega
  | @complete job slice _ _ _ _ _ _ _ _ _ hslice hrest ih =>
    have hle' := ih (List.forall_mem_of_forall_mem_cons hb)
      (List.forall_mem_of_forall_mem_cons hwork)
    simp only [jobWork, List.map_cons, List.sum_cons, List.filterMap_cons,
      List.length_cons] at hle' ⊢
    omega

theorem sliced_work {planned : List (Job × ℕ)} {built : List (Job × ScheduledSlice)}
    (h : List.Forall₂ Sliced planned built) :
    jobWork (built.map Prod.fst) = jobWork (planned.map Prod.fst) := by
  induction h with
  | nil => rfl
  | cons hs _ ih =>
    simp only [jobWork, List.map_cons, List.sum_cons, hs.job_eq, Job.handOver,
      RequestState.remaining, RequestState.consumed_prompt, RequestState.consumed_computed] at ih ⊢
    rw [ih]

namespace Frontier.Prepared

variable {session session' : Session} {frontier : Frontier}
  {granted admitted : List (Job × ScheduledSlice)}

/-- A slice computes tokens, unless its request has none left to compute. -/
theorem slices_work (h : frontier.Prepared engine session)
    (hg : sliceAll frontier.granted = .ok granted)
    (ha : sliceAll (frontier.entering session.nowMs) = .ok admitted) :
    ∀ item ∈ batchOf granted frontier.idle admitted, ∀ slice ∈ item.2,
      slice.scheduledPrefillTokens ≠ 0 ∨ item.1.state.remaining = 0 := by
  intro item hi slice hslice
  simp only [batchOf, List.mem_append, List.mem_map] at hi
  rcases hi with (⟨built, hb, rfl⟩ | ⟨job, -, rfl⟩) | ⟨built, hb, rfl⟩
  · cases hslice
    obtain ⟨planned, hp, hs⟩ := sliced_mem (h.sliced_granted hg) hb
    rw [hs.describes.tokens_eq]
    exact .inl (h.granted planned hp).2.1.ne'
  · cases hslice
  · cases hslice
    obtain ⟨planned, hp, hs⟩ := sliced_mem (h.sliced_admitted ha) hb
    obtain ⟨entry, hentry, rfl⟩ := List.mem_map.mp hp
    rw [hs.describes.tokens_eq, hs.job_eq]
    refine (h.admitted entry hentry).2.2.2.imp_right fun hr ↦ ?_
    simpa [Job.handOver, Job.enter, RequestState.remaining] using hr.1

/-- An admitted request weighs less than it did in the waiting line. -/
theorem entering_work (h : frontier.Prepared engine session) (nowMs : ℚ) :
    jobWork ((frontier.entering nowMs).map Prod.fst) ≤
      ticketWork (frontier.admitted.map (·.1.ticket)) := by
  have hle : ∀ admitted : List (Job × ℕ), (∀ item ∈ admitted, item ∈ frontier.admitted) →
      (admitted.map fun item ↦ (item.1.enter nowMs).state.remaining + 1).sum ≤
        (admitted.map fun item ↦ item.1.request.promptTokens + 2).sum := by
    intro admitted hsub
    refine List.sum_le_sum fun item hi ↦ ?_
    have htokens := (h.admitted item (hsub item hi)).1.ledger.tracks.tokens_eq
    simp only [RequestState.remaining, Job.enter]
    omega
  simpa [jobWork, ticketWork, Frontier.entering, Function.comp_def, Job.ticket] using
    hle frontier.admitted fun item hi ↦ hi

/-- An iteration makes progress. -/
theorem work_lt (h : frontier.Prepared engine session) {instanceUuid : String}
    {world world' : World C K}
    (hi : Iterates engine instanceUuid session frontier world session' world') :
    session'.work < session.work ∧ session'.pending = session.pending := by
  obtain ⟨hg, ha, hshape, hne, -, -, happlies, -⟩ := hi
  rename_i granted admitted shape latency world₁ breakdown applied world₂ metric
  refine ⟨?_, rfl⟩
  have hle := engine.clock.le_add session.nowMs latency.durationMs latency.duration_nonneg
  have hspent := happlies.spent hle (h.batched hg ha) (h.slices_work hg ha)
  obtain ⟨dealt, hdealt, -, hperm⟩ := h.split
  have hslices := (batch_shape_ok hshape).2.1
  have hcount : 0 < ((batchOf granted frontier.idle admitted).filterMap Prod.snd).length := by
    rw [batch_slices, ← hslices]
    exact Nat.pos_of_ne_zero hne
  have hbatch : jobWork ((batchOf granted frontier.idle admitted).map Prod.fst) =
      jobWork session.running + jobWork ((frontier.entering session.nowMs).map Prod.fst) := by
    simp only [batchOf, List.map_append, List.map_map, Function.comp_def, jobWork_append]
    rw [sliced_work (h.sliced_granted hg), sliced_work (h.sliced_admitted ha), ← h.running_eq,
      jobWork_append]
    simp
  have hentering := h.entering_work session.nowMs
  have hwork := ticketWork_perm hperm
  rw [ticketWork_append] at hwork
  have hwaiting : (frontier.waiting.map (Entry.sitOut engine.timelineMode latency.durationMs)).map
      Entry.ticket = frontier.waiting.map Entry.ticket := by
    simp [Function.comp_def]
  simp only [Session.work, hdealt, ticketWork_append, hwaiting]
  omega

end Frontier.Prepared

theorem Session.toCome_eq_zero {session : Session}
    (h : ∀ request ∈ session.pending.head?, request.startTimeMs ≤ session.nowMs) :
    session.toCome = 0 := by
  unfold toCome
  cases hp : session.pending with
  | nil => rfl
  | cons request rest => exact if_neg (not_lt.mpr (h request (by simp [hp])))

/-- Before the arrivals are received, either somebody arrives or the flag is up. -/
theorem Receives.potential {session received : Session} (h : Receives engine session received) :
    received.work + 1 ≤ session.potential ∨ received = session ∧ session.pending = [] ∨
      received = session ∧ session.toCome = 1 := by
  obtain ⟨taken, hp, hstart, hwork, hnone⟩ := h.work_eq
  cases taken with
  | cons first rest =>
    refine .inl ?_
    simp only [List.length_cons] at hwork
    unfold Session.potential
    omega
  | nil =>
    have hsame := hnone rfl
    refine .inr ?_
    cases hpending : session.pending with
    | nil => exact .inl ⟨hsame, rfl⟩
    | cons request rest =>
      refine .inr ⟨hsame, ?_⟩
      have hlater := h.later request (by simp [hsame, hpending])
      unfold Session.toCome
      rw [hpending]
      exact if_pos hlater

theorem Session.emptied_work_lt (session : Session) (h : ¬session.Idle) (frontier : Frontier)
    (nowMs : ℚ) : (session.emptied frontier nowMs).work < session.work := by
  have hpos : 0 < ticketWork (session.waiting.map Entry.ticket) + jobWork session.running := by
    cases hw : session.waiting with
    | cons entry entries =>
      simp only [ticketWork, List.map_cons, List.sum_cons]
      omega
    | nil =>
      cases hr : session.running with
      | cons job jobs =>
        simp only [jobWork, List.map_cons, List.sum_cons]
        omega
      | nil => exact absurd ⟨hw, hr⟩ h
  simp only [Session.work, Session.emptied, List.map_nil]
  simp only [ticketWork, jobWork, List.map_nil, List.sum_nil] at hpos ⊢
  omega

/-- Every pass that does not end the run uses up potential. -/
theorem Passes.potential_lt {instanceUuid : String} {session next : Session}
    {world world' : World C K} (hw : session.Wf engine.config engine.timelineMode requests)
    (h : Passes engine instanceUuid session world (.proceed next) world') :
    next.potential < session.potential := by
  cases h with
  | @jump received request rest hreceive hidle hpending =>
    have hzero : ({ received with nowMs := request.startTimeMs } : Session).toCome = 0 := by
      refine Session.toCome_eq_zero fun other ho ↦ ?_
      rw [hpending] at ho
      cases ho
      exact le_rfl
    have hsame : ({ received with nowMs := request.startTimeMs } : Session).work =
        received.work := rfl
    unfold Session.potential at *
    rcases hreceive.potential with h | ⟨rfl, hp⟩ | ⟨rfl, hflag⟩
    · unfold Session.potential at h
      omega
    · rw [hpending] at hp
      cases hp
    · omega
  | @skip received frontier _ request rest hreceive hbusy hprepares hempty hpending =>
    have hzero : (received.emptied frontier (max received.nowMs request.startTimeMs)).toCome =
        0 := by
      refine Session.toCome_eq_zero fun other ho ↦ ?_
      rw [Session.emptied, hpending] at ho
      cases ho
      exact le_max_right _ _
    have hlt := received.emptied_work_lt hbusy frontier (max received.nowMs request.startTimeMs)
    have hle : received.work ≤ session.potential := by
      rcases hreceive.potential with h | ⟨rfl, -⟩ | ⟨rfl, -⟩
      · exact (Nat.le_succ _).trans h
      · exact Nat.le_add_right _ _
      · exact Nat.le_add_right _ _
    unfold Session.potential at hle ⊢
    omega
  | batch hreceive hbusy hprepares hleft hiterates =>
    have hwf := hreceive.wf hw
    obtain ⟨hlt, hsame⟩ := (hprepares.prepared hwf).work_lt hiterates
    have hflag := Session.to_come_le next
    rcases hreceive.potential with h | ⟨rfl, hp⟩ | ⟨rfl, hflag'⟩
    · unfold Session.potential at h ⊢
      omega
    · have hnone : next.toCome = 0 :=
        Session.toCome_eq_zero fun request hr ↦ by simp [hsame, hp] at hr
      unfold Session.potential
      omega
    · unfold Session.potential
      omega

/-- A run that ends leaves nobody behind. -/
theorem serve_all_idle {instanceUuid : String} {fuel : ℕ} {session final : Session}
    {world world' : World C K}
    (h : engine.serveAll instanceUuid fuel session world = .ok final world') :
    final.pending = [] ∧ final.Idle := by
  induction fuel generalizing session world with
  | zero => cases h
  | succ fuel ih =>
    unfold Engine.serveAll at h
    split_ifs at h with hdone
    · cases h
      exact hdone
    · simp only [bind_ok] at h
      obtain ⟨flow, world₁, hpass, h⟩ := h
      cases flow with
      | proceed next => exact ih h
      | stop last =>
        cases h
        cases passes_of_pass hpass with
        | idle _ hidle hpending => exact ⟨hpending, hidle⟩
        | finish _ _ _ _ hpending => exact ⟨hpending, rfl, rfl⟩

/-- The session in which an instance starts to serve sorted requests. -/
def Session.start (transferQueue : SharedLinkFIFOTransferQueue) (request : SimulationRequest)
    (pending : List SimulationRequest) : Session where
  pending := request :: pending
  nowMs := request.startTimeMs
  transferQueue

theorem Session.start_wf (config : SchedulerConfig) (timelineMode : TimelineMode)
    (transferQueue : SharedLinkFIFOTransferQueue) {request : SimulationRequest}
    {pending : List SimulationRequest}
    (hd : ((request :: pending).map SimulationRequest.requestId).Nodup) :
    (Session.start transferQueue request pending).Wf config timelineMode (request :: pending) where
  distinct := hd
  waiting := by simp [start]
  tail_fresh := by simp [start]
  running := by simp [start]
  completed := by simp [start]
  unchunked := fun _ ↦ rfl
  order := by simp [start, Session.active]
  roster := ⟨[], rfl, rfl, by simp [start, Session.active]⟩

/-- Enough passes for a replay of the requests. -/
def replayFuel (requests : List SimulationRequest) : ℕ := pendingWork requests + 1

theorem Session.start_potential (transferQueue : SharedLinkFIFOTransferQueue)
    (request : SimulationRequest) (pending : List SimulationRequest) :
    (Session.start transferQueue request pending).potential < replayFuel (request :: pending) := by
  have hflag : (Session.start transferQueue request pending).toCome = 0 :=
    Session.toCome_eq_zero fun other ho ↦ by cases ho; exact le_rfl
  unfold Session.potential
  rw [hflag]
  simp [Session.work, start, replayFuel, ticketWork, jobWork]

/-- The replay of an instance as one run of the queueing system. -/
def Engine.serveInstance (engine : Engine C K) (instanceUuid : String) (fuel : ℕ) :
    List SimulationRequest → Replay C K (Option Session)
  | [] => pure none
  | request :: pending => do
    let queue ← check (SharedLinkFIFOTransferQueue.create instanceUuid)
    let session ← engine.serveAll instanceUuid fuel (Session.start queue request pending)
    engine.drainCacheEvents
    return some session

end InferTwin
