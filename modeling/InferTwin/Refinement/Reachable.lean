import InferTwin.Refinement.StreamReplay
import InferTwin.Server.Failure

namespace InferTwin

open Effect

variable {C K σ : Type}

namespace RequestSource

variable {source : RequestSource σ} {s : σ}

theorem peek_in_ok {peeked : Option SimulationRequest × σ} :
    source.peekIn s = .ok peeked ↔ source.peek s = .ok peeked := except_map_error_ok

theorem pop_in_ok {popped : SimulationRequest × σ} :
    source.popIn s = .ok popped ↔ source.pop s = .ok popped := except_map_error_ok

end RequestSource

/-- What `peek` shows is what `pop` hands out next. -/
def RequestSource.Peekable (source : RequestSource σ) : Prop :=
  ∀ s request s', source.peek s = .ok (some request, s') →
    ∀ popped, source.pop s' = .ok popped → popped.1 = request

/-- A source has handed out some requests on its way from one state to another, however
often it was peeked at. It may raise later on. -/
inductive RequestSource.Supplies (source : RequestSource σ) : σ → List SimulationRequest → σ → Prop
  | refl (s : σ) : Supplies source s [] s
  | peek {s s' s'' next requests} (hpeek : source.peek s = .ok (next, s'))
      (hrest : Supplies source s' requests s'') : Supplies source s requests s''
  | pop {s s' s'' s''' request requests} (hpeek : source.peek s = .ok (some request, s'))
      (hpop : source.pop s' = .ok (request, s'')) (hrest : Supplies source s'' requests s''') :
      Supplies source s (request :: requests) s'''

theorem RequestSource.Supplies.trans {source : RequestSource σ} {s s' s'' : σ}
    {requests requests' : List SimulationRequest} (h : source.Supplies s requests s')
    (h' : source.Supplies s' requests' s'') : source.Supplies s (requests ++ requests') s'' := by
  induction h with
  | refl => exact h'
  | peek hpeek _ ih => exact .peek hpeek (ih h')
  | pop hpeek hpop _ ih => exact .pop hpeek hpop (ih h')

/-- A source that serves a list supplies nothing that is not in it. -/
theorem RequestSource.Yields.supplied {source : RequestSource σ} {s s' : σ}
    {requests supplied : List SimulationRequest} (h : source.Yields s requests)
    (hs : source.Supplies s supplied s') : supplied <+: requests := by
  induction hs generalizing requests with
  | refl => exact List.nil_prefix
  | peek hpeek _ ih =>
    obtain ⟨_, he, hrest⟩ := h.peek
    rw [hpeek] at he
    cases he
    exact ih hrest
  | @pop _ s' _ _ request _ hpeek hpop _ ih =>
    obtain ⟨_, he, hrest⟩ := h.peek
    rw [hpeek] at he
    cases requests with
    | nil => cases he
    | cons first rest =>
      cases he
      obtain ⟨_, he, hrest⟩ := hrest.pop
      rw [hpop] at he
      cases he
      exact List.cons_prefix_cons.mpr ⟨rfl, ih hrest⟩

/-- The states of the list loop between two passes, in a replay of the given requests. -/
inductive Engine.ListReaches (engine : Engine C K) (instanceUuid : String)
    (requests : List SimulationRequest) (world₀ : World C K) : LoopState → World C K → Prop
  | start {request pending queue} (hsorted : SimulationRequest.sorted requests = request :: pending)
      (hqueue : SharedLinkFIFOTransferQueue.create instanceUuid = .ok queue) :
      ListReaches engine instanceUuid requests world₀
        (Engine.initialLoopState queue request pending) world₀
  | step {state state' world world'}
      (h : ListReaches engine instanceUuid requests world₀ state world)
      (hleft : ¬(state.pending = [] ∧ state.locals.waiting = [] ∧ state.locals.running = []))
      (hbody : engine.loopBody instanceUuid state world = .ok (.proceed state') world') :
      ListReaches engine instanceUuid requests world₀ state' world'

/-- The states of the streaming loop between two passes, in a replay of the given source. -/
inductive Engine.StreamReaches (engine : Engine C K) (source : RequestSource σ)
    (instanceUuid : String) (turns : ℕ) (start : σ) (world₀ : World C K) :
    StreamState σ → World C K → Prop
  | start {request s queue} (hpeek : source.peekIn start = .ok (some request, s))
      (hqueue : SharedLinkFIFOTransferQueue.create instanceUuid = .ok queue) :
      StreamReaches engine source instanceUuid turns start world₀
        { source := s, nowMs := request.startTimeMs, locals := { transferQueue := queue } } world₀
  | step {state state' world world' next s}
      (h : StreamReaches engine source instanceUuid turns start world₀ state world)
      (hpeek : source.peekIn state.source = .ok (next, s))
      (hleft : ¬(next = none ∧ state.locals.waiting = [] ∧ state.locals.running = []))
      (hbody : engine.streamBody source instanceUuid turns { state with source := s } world =
        .ok (.proceed state') world') :
      StreamReaches engine source instanceUuid turns start world₀ state' world'

variable {engine : Engine C K}

/-- A session that the passes come to in serving the requests of an instance. -/
def Engine.ServesTo (engine : Engine C K) (instanceUuid : String)
    (requests : List SimulationRequest) (world₀ : World C K) (session : Session)
    (world : World C K) : Prop :=
  ∃ request pending queue, SimulationRequest.sorted requests = request :: pending ∧
    Relation.ReflTransGen (Steps engine instanceUuid)
      (Session.start queue request pending, world₀) (session, world)

theorem Session.start_sorted_wf (config : SchedulerConfig) (timelineMode : TimelineMode)
    {requests : List SimulationRequest} (hd : (requests.map SimulationRequest.requestId).Nodup)
    (queue : SharedLinkFIFOTransferQueue) {request : SimulationRequest}
    {pending : List SimulationRequest}
    (hsorted : SimulationRequest.sorted requests = request :: pending) :
    (Session.start queue request pending).Wf config timelineMode
      (SimulationRequest.sorted requests) := by
  have hd' : ((SimulationRequest.sorted requests).map SimulationRequest.requestId).Nodup :=
    ((SimulationRequest.sorted_perm requests).map _).nodup_iff.mpr hd
  rw [hsorted] at hd' ⊢
  exact Session.start_wf config timelineMode queue hd'

theorem Engine.ServesTo.wf {instanceUuid : String} {requests : List SimulationRequest}
    {world₀ world : World C K} {session : Session}
    (hd : (requests.map SimulationRequest.requestId).Nodup)
    (h : engine.ServesTo instanceUuid requests world₀ session world) :
    session.Wf engine.config engine.timelineMode (SimulationRequest.sorted requests) := by
  obtain ⟨request, pending, queue, hsorted, hsteps⟩ := h
  exact steps_wf hsteps (Session.start_sorted_wf _ _ hd queue hsorted)

/-- A state of the list loop stands for a session that the passes come to. -/
theorem Engine.ListReaches.agrees {instanceUuid : String} {requests : List SimulationRequest}
    {world₀ world : World C K} {state : LoopState}
    (hd : (requests.map SimulationRequest.requestId).Nodup)
    (h : engine.ListReaches instanceUuid requests world₀ state world) :
    ∃ session, engine.ServesTo instanceUuid requests world₀ session world ∧
      ListAgrees state session := by
  induction h with
  | @start request pending queue hsorted hqueue =>
    exact ⟨_, ⟨request, pending, queue, hsorted, .refl⟩,
      initial_list_agrees queue request pending⟩
  | @step state state' world world' _ hleft hbody ih =>
    obtain ⟨session, hserves, hagree⟩ := ih
    have hrest : ¬(session.pending = [] ∧ session.Idle) := by
      rw [← hagree.pending_eq, ← hagree.represents.idle_iff]
      exact hleft
    have hpass := loop_body_agree world (hserves.wf hd) hagree hrest instanceUuid
    rw [hbody] at hpass
    obtain ⟨flow, _, hflow, rfl, hnext⟩ := hpass.ok_left
    obtain ⟨request, pending, queue, hsorted, hsteps⟩ := hserves
    cases hnext with
    | proceed hnext => exact ⟨_, ⟨request, pending, queue, hsorted, hsteps.tail hflow⟩, hnext⟩

/-- What every pass keeps holds of the sessions that the passes come to. -/
theorem Engine.ServesTo.induction {instanceUuid : String} {requests : List SimulationRequest}
    {world₀ world : World C K} {session : Session} {P : Session → World C K → Prop}
    (hd : (requests.map SimulationRequest.requestId).Nodup)
    (hstart : ∀ queue request pending, SimulationRequest.sorted requests = request :: pending →
      P (Session.start queue request pending) world₀)
    (hstep : ∀ session world flow world',
      session.Wf engine.config engine.timelineMode (SimulationRequest.sorted requests) →
      P session world → Passes engine instanceUuid session world flow world' → P flow.state world')
    (h : engine.ServesTo instanceUuid requests world₀ session world) : P session world := by
  obtain ⟨request, pending, queue, hsorted, hsteps⟩ := h
  have hwf := Session.start_sorted_wf engine.config engine.timelineMode hd queue hsorted
  exact (steps_induction (P := fun session world ↦
    session.Wf engine.config engine.timelineMode (SimulationRequest.sorted requests) ∧
      P session world)
    (fun _ _ _ _ hp hpass ↦ ⟨hpass.wf hp.1, hstep _ _ _ _ hp.1 hp.2 hpass⟩) hsteps
    ⟨hwf, hstart queue request pending hsorted⟩).2

/-- A replay that returns has served everybody. What every pass keeps holds at its end. -/
theorem run_instance_serves {instanceUuid : String} {requests : List SimulationRequest} {fuel : ℕ}
    {world world' : World C K} {result : InstanceResult} {P : Session → World C K → Prop}
    (hd : (requests.map SimulationRequest.requestId).Nodup)
    (hstart : ∀ queue request pending, SimulationRequest.sorted requests = request :: pending →
      P (Session.start queue request pending) world)
    (hstep : ∀ session world flow world',
      session.Wf engine.config engine.timelineMode (SimulationRequest.sorted requests) →
      P session world → Passes engine instanceUuid session world flow world' → P flow.state world')
    (h : engine.runInstance instanceUuid fuel requests world = .ok result world') :
    requests = [] ∧ result = {} ∨ ∃ session world₁,
      session.Wf engine.config engine.timelineMode (SimulationRequest.sorted requests) ∧
      P session world₁ ∧ session.pending = [] ∧ session.Idle ∧
      result.requestMetrics = session.completed.map Prod.snd ∧
      result.iterationMetrics = session.iterationMetrics := by
  have hagree := run_instance_agree engine instanceUuid fuel world hd
  rw [h] at hagree
  obtain ⟨final, _, hserve, -, hresult⟩ := hagree.ok_left
  cases hsorted : SimulationRequest.sorted requests with
  | nil =>
    rw [hsorted] at hserve
    cases hserve
    refine .inl ⟨?_, hresult⟩
    have hperm := SimulationRequest.sorted_perm requests
    rw [hsorted] at hperm
    exact hperm.nil_eq.symm
  | cons request pending =>
    rw [hsorted] at hserve
    simp only [Engine.serveInstance, bind_ok, check_ok] at hserve
    obtain ⟨queue, _, ⟨-, rfl⟩, session, world₁, hserve, _, _, -, hreturn⟩ := hserve
    cases hreturn
    have hwf := Session.start_sorted_wf engine.config engine.timelineMode hd queue hsorted
    obtain ⟨hwf', hp⟩ := serve_all_induction (P := fun session world ↦
      session.Wf engine.config engine.timelineMode (SimulationRequest.sorted requests) ∧
        P session world)
      (fun _ _ _ _ hp hpass ↦ ⟨hpass.wf hp.1, hstep _ _ _ _ hp.1 hp.2 hpass⟩)
      ⟨hwf, hstart queue request pending hsorted⟩ hserve
    obtain ⟨hpending, hidle⟩ := serve_all_idle hserve
    rw [hsorted] at hwf'
    exact .inr ⟨session, world₁, hwf', hp, hpending, hidle, hresult.1, hresult.2⟩

/-- More requests are expected. -/
theorem Session.Wf.expect {config : SchedulerConfig} {timelineMode : TimelineMode}
    {requests : List SimulationRequest} {session : Session}
    (hw : session.Wf config timelineMode requests) (hp : session.pending = [])
    (pending : List SimulationRequest)
    (hd : ((requests ++ pending).map SimulationRequest.requestId).Nodup) :
    { session with pending }.Wf config timelineMode (requests ++ pending) where
  distinct := hd
  waiting := hw.waiting
  tail_fresh := hw.tail_fresh
  running := hw.running
  completed := hw.completed
  unchunked := hw.unchunked
  order := hw.order
  roster := by
    obtain ⟨arrived, hreq, hlen, hperm⟩ := hw.roster
    rw [hp, List.append_nil] at hreq
    exact ⟨arrived, by rw [hreq], hlen, hperm⟩

/-- Moving the arrivals from a source registers the requests it supplies. -/
theorem move_arrivals_supplied {source : RequestSource σ} (hsource : source.Peekable)
    {instanceUuid : String} {nowMs : ℚ} (lostMs : ℚ) {turns : ℕ} {s s' : σ} {seq seq' : ℕ}
    {locals locals' : Locals}
    (h : engine.moveArrivalsFromSource source instanceUuid nowMs turns s seq locals =
      .ok (s', seq', locals')) :
    ∃ popped entries, source.Supplies s popped s' ∧
      arrivals engine.timelineMode nowMs lostMs seq popped = .ok (entries, []) ∧
      seq' = seq + entries.length ∧ locals' = entries.foldl Locals.register locals := by
  induction turns generalizing s seq locals with
  | zero => cases h
  | succ turns ih =>
    unfold Engine.moveArrivalsFromSource at h
    simp only [except_bind_ok] at h
    obtain ⟨⟨next, s₁⟩, hpeek, h⟩ := h
    have hpeek := RequestSource.peek_in_ok.mp hpeek
    cases next with
    | none =>
      cases h
      exact ⟨[], [], .peek hpeek (.refl _), rfl, rfl, rfl⟩
    | some request =>
      dsimp only at h
      split_ifs at h with hlater
      · cases h
        exact ⟨[], [], .peek hpeek (.refl _), rfl, rfl, rfl⟩
      simp only [except_bind_ok] at h
      obtain ⟨⟨popped, s₂⟩, hpop, _, hown, h⟩ := h
      have hpop := RequestSource.pop_in_ok.mp hpop
      have hsame : popped = request := hsource _ _ _ hpeek _ hpop
      subst hsame
      split_ifs at h with hdup
      · obtain ⟨_, hraise, -⟩ := except_bind_ok.mp h
        cases hraise
      obtain ⟨moved, hadmit, h⟩ := except_bind_ok.mp h
      rw [admit_arrival_eq engine nowMs lostMs] at hadmit
      cases hentry : Entry.arrive engine.timelineMode nowMs lostMs popped seq with
      | error e =>
        rw [hentry] at hadmit
        cases hadmit
      | ok entry =>
        rw [hentry] at hadmit
        cases hadmit
        obtain ⟨rest, entries, hsupplied, harr, rfl, rfl⟩ := ih h
        refine ⟨popped :: rest, entry :: entries, .pop hpeek hpop hsupplied, ?_, ?_, rfl⟩
        · unfold arrivals
          rw [if_pos (not_lt.mp hlater), hentry, except_ok_bind, harr]
          rfl
        · rw [List.length_cons, Nat.add_assoc, Nat.add_comm 1]

/-- The streaming loop holds the requests of a session, which are those its source has
supplied. -/
structure StreamHolds (engine : Engine C K) (source : RequestSource σ) (start : σ)
    (state : StreamState σ) (requests : List SimulationRequest) (session : Session) : Prop where
  wf : session.Wf engine.config engine.timelineMode requests
  supplied : source.Supplies start requests state.source
  pending_eq : session.pending = []
  represents : Represents state.locals session
  arrivals_eq : state.arrivalSeq = session.arrivals
  now_eq : state.nowMs = session.nowMs
  iteration_id_eq : state.iterationId = session.iterationId
  emitted : state.locals.requestMetrics = []

namespace StreamHolds

variable {source : RequestSource σ} {start : σ} {state : StreamState σ}
  {requests : List SimulationRequest} {session : Session}

theorem peeked (h : StreamHolds engine source start state requests session)
    {next : Option SimulationRequest} {s : σ} (hpeek : source.peekIn state.source = .ok (next, s)) :
    StreamHolds engine source start { state with source := s } requests session := by
  have hsupplied := h.supplied.trans (.peek (RequestSource.peek_in_ok.mp hpeek) (.refl s))
  rw [List.append_nil] at hsupplied
  exact { h with supplied := hsupplied }

/-- The arrivals that are moved join the session. -/
theorem moved (h : StreamHolds engine source start state requests session)
    (hsource : source.Peekable)
    (hd : ∀ supplied s, source.Supplies start supplied s →
      (supplied.map SimulationRequest.requestId).Nodup)
    {instanceUuid : String} {turns : ℕ} {s : σ} {seq : ℕ} {locals : Locals}
    (hmove : engine.moveArrivalsFromSource source instanceUuid state.nowMs turns state.source
      state.arrivalSeq state.locals = .ok (s, seq, locals)) (maxActiveRequests : ℕ) :
    ∃ requests' received, StreamHolds engine source start { state with
      source := s, arrivalSeq := seq, locals, maxActiveRequests } requests' received := by
  obtain ⟨popped, entries, hpopped, harr, rfl, rfl⟩ :=
    move_arrivals_supplied hsource session.lostMs hmove
  have hsupplied := h.supplied.trans hpopped
  have hw := h.wf.expect h.pending_eq popped (hd _ _ hsupplied)
  rw [h.now_eq, h.arrivals_eq] at harr
  have hrep : Represents state.locals { session with pending := popped } :=
    ⟨h.represents.waiting_eq, h.represents.running_eq, h.represents.held, h.represents.queue_eq⟩
  have hreceive : engine.receive { session with pending := popped } = .ok { session with
      pending := []
      arrivals := session.arrivals + entries.length
      waiting := session.waiting ++ entries } := by
    simp [Engine.receive, harr, bind, Except.bind, pure, Except.pure]
  have hemitted : (entries.foldl Locals.register state.locals).requestMetrics = [] := by
    rw [Locals.register_all_eq]
    exact h.emitted
  have hreceived := represents_received hw hrep harr
  exact ⟨_, _, (receives_of_receive hreceive).wf hw, hsupplied, rfl, hreceived,
    congrArg (· + entries.length) h.arrivals_eq, h.now_eq, h.iteration_id_eq, hemitted⟩

/-- What the frontier has prepared is still held once the metrics have been emitted. -/
theorem prepared (h : StreamHolds engine source start state requests session)
    {world world' : World C K} {plan : FrontierPlan} {locals : Locals}
    (hprepare : engine.prepareSchedulerFrontier state.nowMs state.locals world =
      .ok (plan, locals) world') :
    ∃ frontier, Prepares engine session world frontier world' ∧
      RepresentsFrontier (state.emit locals).locals session frontier ∧
      plan.plan = (frontier.granted ++ frontier.admitted).map fun planned ↦
        (planned.1.seq, planned.2) := by
  have hagree := frontier_agree engine world h.wf h.represents
  rw [← h.now_eq, hprepare] at hagree
  obtain ⟨frontier, _, hfrontier, rfl, hagree⟩ := hagree.ok_left
  have hprepares := prepares_of_frontier hfrontier
  refine ⟨frontier, hprepares, (hagree.represents h.represents).emit ?_, hagree.plan_eq⟩
  have hclosed : locals.closedIds =
      (frontier.completed.map Prod.snd).map BatchAwareRequestMetrics.requestId := by
    have hlocals := hagree.locals_eq
    dsimp only at hlocals
    rw [Locals.closedIds, hlocals, h.emitted, List.nil_append]
  rw [hclosed]
  exact (hprepares.prepared h.wf).closed_apart h.wf

theorem next_start_supplies {source : RequestSource σ} {instanceUuid : String} {s s' : σ}
    {next : Option ℚ} (h : Engine.nextStart source instanceUuid s = .ok (next, s')) :
    source.Supplies s [] s' := by
  obtain ⟨⟨peeked, s₁⟩, hpeek, h⟩ := except_bind_ok.mp h
  have hsupplies : source.Supplies s [] s₁ := .peek (RequestSource.peek_in_ok.mp hpeek) (.refl s₁)
  cases peeked with
  | none =>
    cases h
    exact hsupplies
  | some request =>
    obtain ⟨_, -, h⟩ := except_bind_ok.mp h
    cases h
    exact hsupplies

/-- What a pass of the streaming loop leaves, once the arrivals have been moved. -/
theorem arrived (h : StreamHolds engine source start state requests session)
    {instanceUuid : String} {state' : StreamState σ} {world world' : World C K}
    (hpass : engine.streamArrived source instanceUuid state world = .ok (.proceed state') world') :
    ∃ session', StreamHolds engine source start state' requests session' := by
  unfold Engine.streamArrived at hpass
  split_ifs at hpass with hidle
  · obtain ⟨⟨next, s⟩, _, hcheck, hpass⟩ := bind_ok.mp hpass
    obtain ⟨hstart, rfl⟩ := check_ok.mp hcheck
    have hsupplied := h.supplied.trans (next_start_supplies hstart)
    rw [List.append_nil] at hsupplied
    cases next with
    | none => cases hpass
    | some startTimeMs =>
      cases hpass
      have hempty := h.represents.idle_iff.mp hidle
      exact ⟨_, h.wf.of_idle hempty startTimeMs, hsupplied, h.pending_eq,
        h.represents.at_time startTimeMs, h.arrivals_eq, rfl, h.iteration_id_eq, h.emitted⟩
  simp only [bind_ok] at hpass
  obtain ⟨⟨plan, locals⟩, world₁, hprepare, _, world₂, -, hpass⟩ := hpass
  obtain ⟨frontier, hprepares, hheld, -⟩ := h.prepared hprepare
  have hprepared := hprepares.prepared h.wf
  have hemitted : (state.emit locals).locals.requestMetrics = [] := by
    rw [StreamState.emit, emit_request_metrics_eq]
  split_ifs at hpass with hidle'
  · obtain ⟨⟨next, s⟩, _, hcheck, hpass⟩ := bind_ok.mp hpass
    obtain ⟨hstart, rfl⟩ := check_ok.mp hcheck
    have hsupplied := h.supplied.trans (next_start_supplies hstart)
    rw [List.append_nil] at hsupplied
    cases next with
    | none => cases hpass
    | some startTimeMs =>
      cases hpass
      have hempty := (hheld.empty_iff hprepared).mp hidle'
      have hrep : Represents (state.emit locals).locals (session.emptied frontier
          (max (state.emit locals).nowMs startTimeMs)) :=
        ⟨hidle'.1, hidle'.2, by simp [Session.emptied, Session.active], hheld.queue_eq⟩
      exact ⟨_, hprepared.emptied h.wf hempty _, hsupplied, h.pending_eq, hrep, h.arrivals_eq, rfl,
        h.iteration_id_eq, hemitted⟩
  · obtain ⟨⟨finishMs, locals'⟩, _, hrun, hpass⟩ := bind_ok.mp hpass
    have hiteration : Agree Eq (IterationAgrees session frontier (state.emit locals).locals)
        (engine.runIteration instanceUuid session.nowMs session.iterationId
          (state.emit locals).locals world₂)
        (engine.iterate instanceUuid session frontier world₂) :=
      run_iteration_agree h.wf hprepares hheld instanceUuid
    rw [← h.now_eq, ← h.iteration_id_eq] at hiteration
    have hrun' : engine.runIteration instanceUuid state.nowMs state.iterationId
        (state.emit locals).locals world₂ = .ok (finishMs, locals') _ := hrun
    rw [hrun'] at hiteration
    obtain ⟨session', _, hiterate, rfl, hagree⟩ := hiteration.ok_left
    have hw' := hprepared.iterated h.wf (iterates_of_iterate hiterate)
    have hperm := hagree.closed_perm h.wf hw' hemitted
    have hapart : ∀ entry ∈ session'.active, entry.id ∉ locals'.closedIds := by
      intro entry he hmem
      have hnodup := hperm.nodup_iff.mpr h.wf.active_distinct.ids
      exact hnodup.disjoint (List.mem_append_right _ hmem) (List.mem_map_of_mem he)
    have hclosed : ({ emitRequestMetrics locals' with iterationMetrics := [] } :
        Locals).requestMetrics = [] := by
      rw [emit_request_metrics_eq]
    cases hpass
    exact ⟨session', hw', h.supplied, hagree.pending_eq.trans h.pending_eq,
      hagree.represents.emit hapart, h.arrivals_eq.trans hagree.arrivals_eq.symm, hagree.now_eq,
      (congrArg (· + 1) h.iteration_id_eq).trans hagree.iteration_id.symm, hclosed⟩

end StreamHolds

/-- A state of the streaming loop stands for a session. -/
theorem Engine.StreamReaches.holds {source : RequestSource σ} (hsource : source.Peekable)
    {start : σ} (hd : ∀ supplied s, source.Supplies start supplied s →
      (supplied.map SimulationRequest.requestId).Nodup)
    {instanceUuid : String} {turns : ℕ} {world₀ world : World C K} {state : StreamState σ}
    (h : engine.StreamReaches source instanceUuid turns start world₀ state world) :
    ∃ requests session, StreamHolds engine source start state requests session := by
  induction h with
  | @start request s queue hpeek hqueue =>
    have hstart : (Session.start queue request []).Wf engine.config engine.timelineMode [request] :=
      Session.start_wf engine.config engine.timelineMode queue (by simp)
    have hempty : { Session.start queue request [] with pending := [] }.Wf engine.config
        engine.timelineMode [] := {
      hstart with
      distinct := List.nodup_nil
      roster := ⟨[], rfl, rfl, List.Perm.nil⟩ }
    have hsupplied : source.Supplies start [] s :=
      .peek (RequestSource.peek_in_ok.mp hpeek) (.refl s)
    exact ⟨[], _, hempty, hsupplied, rfl, ⟨rfl, rfl, by simp [Session.start, Session.active], rfl⟩,
      rfl, rfl, rfl, rfl⟩
  | @step state state' world world' next s _ hpeek hleft hbody ih =>
    obtain ⟨requests, session, hholds⟩ := ih
    unfold Engine.streamBody at hbody
    simp only [bind_ok, check_ok] at hbody
    obtain ⟨⟨source', seq, locals⟩, _, ⟨hmove, rfl⟩, hbody⟩ := hbody
    obtain ⟨requests', received, hmoved⟩ := (hholds.peeked hpeek).moved hsource hd hmove
      (max state.maxActiveRequests locals.statesById.len)
    obtain ⟨session', hnext⟩ := hmoved.arrived hbody
    exact ⟨requests', session', hnext⟩

end InferTwin
