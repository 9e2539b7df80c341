import InferTwin.Refinement.ListReplay
import InferTwin.Streaming.Replay

namespace InferTwin

open Effect

variable {C K σ : Type} {engine : Engine C K} {requests : List SimulationRequest}
  {source : RequestSource σ}

/-- The requests that the collected metrics close. -/
def Locals.closedIds (locals : Locals) : List String :=
  locals.requestMetrics.map BatchAwareRequestMetrics.requestId

/-- Emitting deletes the closed requests from all three dictionaries. -/
theorem emit_request_metrics_eq (locals : Locals) : emitRequestMetrics locals = { locals with
    requestMetrics := []
    statesById := locals.statesById.eraseAll locals.closedIds
    requestsById := locals.requestsById.eraseAll locals.closedIds
    lookupById := locals.lookupById.eraseAll locals.closedIds } := by
  have hfold : ∀ (metrics : List BatchAwareRequestMetrics) (start : Locals),
      metrics.foldl (fun locals metric ↦ { locals with
        statesById := locals.statesById.erase metric.requestId
        requestsById := locals.requestsById.erase metric.requestId
        lookupById := locals.lookupById.erase metric.requestId }) start = { start with
          statesById := start.statesById.eraseAll (metrics.map (·.requestId))
          requestsById := start.requestsById.eraseAll (metrics.map (·.requestId))
          lookupById := start.lookupById.eraseAll (metrics.map (·.requestId)) } := by
    intro metrics
    induction metrics with
    | nil => exact fun _ ↦ rfl
    | cons metric metrics ih => exact fun start ↦ ih _
  exact hfold _ _

/-- A request that is not closed stays held. -/
theorem Held.emit {locals : Locals} {entry : Entry} (h : Held locals entry)
    (hid : entry.id ∉ locals.closedIds) : Held (emitRequestMetrics locals) entry := by
  rw [emit_request_metrics_eq]
  exact ⟨h.heap_eq, (Dict.lookup_eraseAll hid).trans h.state_eq,
    (Dict.lookup_eraseAll hid).trans h.request_eq,
    fun lookup hl ↦ (Dict.lookup_eraseAll hid).trans (h.lookup_eq lookup hl)⟩

section Arrivals

variable {instanceUuid : String} {nowMs : ℚ} {seq : ℕ} {state : σ} {request : SimulationRequest}
  {locals : Locals}

theorem RequestSource.Yields.peek_in {rest : List SimulationRequest}
    (h : source.Yields state rest) :
    ∃ state', source.peekIn state = .ok (rest.head?, state') ∧ source.Yields state' rest := by
  obtain ⟨state', hpeek, hrest⟩ := h.peek
  exact ⟨state', by simp [RequestSource.peekIn, hpeek, Except.mapError], hrest⟩

theorem RequestSource.Yields.pop_in {rest : List SimulationRequest}
    (h : source.Yields state (request :: rest)) :
    ∃ state', source.popIn state = .ok (request, state') ∧ source.Yields state' rest := by
  obtain ⟨state', hpop, hrest⟩ := h.pop
  exact ⟨state', by simp [RequestSource.popIn, hpop, Except.mapError], hrest⟩

/-- One turn of moving the arrivals from a source, for a request that has arrived. -/
theorem move_arrivals_from_source_step (lostMs : ℚ) {rest : List SimulationRequest} (turns : ℕ)
    (hyields : source.Yields state (request :: rest))
    (hinstance : request.instanceUuid = instanceUuid)
    (hfresh : request.requestId ∉ locals.statesById) (hle : request.startTimeMs ≤ nowMs) :
    ∃ state', source.Yields state' rest ∧
      engine.moveArrivalsFromSource source instanceUuid nowMs (turns + 1) state seq locals =
        Entry.arrive engine.timelineMode nowMs lostMs request seq >>= fun entry ↦
          engine.moveArrivalsFromSource source instanceUuid nowMs turns state' (seq + 1)
            (locals.register entry) := by
  obtain ⟨peeked, hpeek, hyields⟩ := hyields.peek_in
  obtain ⟨popped, hpop, hyields⟩ := hyields.pop_in
  refine ⟨popped, hyields, ?_⟩
  rw [Engine.moveArrivalsFromSource, hpeek]
  simp only [List.head?_cons, except_ok_bind, if_neg (not_lt.mpr hle), hpop, requireInstance,
    hinstance, ne_eq, not_true_eq_false, if_false, if_neg hfresh,
    admit_arrival_eq engine nowMs lostMs, except_map_bind]

theorem move_arrivals_from_source_stop {rest : List SimulationRequest} (turns : ℕ)
    (hyields : source.Yields state rest) (hlater : ∀ request ∈ rest.head?, nowMs < request.startTimeMs) :
    ∃ state', source.Yields state' rest ∧
      engine.moveArrivalsFromSource source instanceUuid nowMs (turns + 1) state seq locals =
        .ok (state', seq, locals) := by
  obtain ⟨peeked, hpeek, hyields⟩ := hyields.peek_in
  refine ⟨peeked, hyields, ?_⟩
  rw [Engine.moveArrivalsFromSource, hpeek]
  cases rest with
  | nil => rfl
  | cons request rest =>
    simp only [List.head?_cons, except_ok_bind, gt_iff_lt, if_pos (hlater request rfl)]
    rfl

/-- Moving the arrivals from a source that yields the pending requests. -/
theorem move_arrivals_from_source (engine : Engine C K) (nowMs lostMs : ℚ) (seq : ℕ)
    {pending : List SimulationRequest} {turns : ℕ}
    (hyields : source.Yields state pending)
    (hinstance : ∀ request ∈ pending, request.instanceUuid = instanceUuid)
    (hnodup : (pending.map SimulationRequest.requestId).Nodup)
    (hfresh : ∀ request ∈ pending, request.requestId ∉ locals.statesById)
    (hturns : pending.length < turns) :
    (∀ e, arrivals engine.timelineMode nowMs lostMs seq pending = .error e →
      engine.moveArrivalsFromSource source instanceUuid nowMs turns state seq locals = .error e) ∧
    ∀ entries rest, arrivals engine.timelineMode nowMs lostMs seq pending = .ok (entries, rest) →
      ∃ state', source.Yields state' rest ∧
        engine.moveArrivalsFromSource source instanceUuid nowMs turns state seq locals =
          .ok (state', seq + entries.length, entries.foldl Locals.register locals) := by
  obtain ⟨turns, rfl⟩ := Nat.exists_eq_add_of_lt hturns
  induction pending generalizing seq state locals turns with
  | nil =>
    refine ⟨fun e he ↦ (by cases he), fun entries rest he ↦ ?_⟩
    cases he
    exact move_arrivals_from_source_stop _ hyields (by simp)
  | cons request pending ih =>
    unfold arrivals
    by_cases hle : request.startTimeMs ≤ nowMs
    · obtain ⟨popped, hrest, hstep⟩ := move_arrivals_from_source_step lostMs
        (pending.length + turns + 1) hyields (hinstance _ (List.mem_cons_self ..))
        (hfresh _ (List.mem_cons_self ..)) hle
      have hturn : (request :: pending).length + turns + 1 = pending.length + turns + 1 + 1 := by
        simp only [List.length_cons]
        omega
      rw [if_pos hle, hturn, hstep]
      simp only [List.map_cons, List.nodup_cons] at hnodup
      cases hentry : Entry.arrive engine.timelineMode nowMs lostMs request seq with
      | error e =>
        refine ⟨fun e' he ↦ ?_, fun entries rest he ↦ (by cases he)⟩
        cases he
        rfl
      | ok entry =>
        obtain ⟨-, -, -, hid, -⟩ := Entry.Waiting.arrive hle hentry
        have hfresh' : ∀ other ∈ pending,
            other.requestId ∉ (locals.register entry).statesById := by
          intro other ho hmem
          rcases Finmap.mem_insert.mp hmem with he | hmem
          · exact hnodup.1 (hid ▸ he ▸ List.mem_map_of_mem ho)
          · exact hfresh other (List.mem_cons_of_mem _ ho) hmem
        have hnext := ih (seq + 1) hrest (List.forall_mem_of_forall_mem_cons hinstance) hnodup.2
          hfresh' turns (by omega)
        simp only [except_ok_bind]
        cases harr : arrivals engine.timelineMode nowMs lostMs (seq + 1) pending with
        | error e =>
          refine ⟨fun e' he ↦ ?_, fun entries rest he ↦ (by cases he)⟩
          cases he
          exact hnext.1 e harr
        | ok moved =>
          obtain ⟨later, left⟩ := moved
          refine ⟨fun e' he ↦ (by cases he), fun entries rest he ↦ ?_⟩
          cases he
          obtain ⟨state', hleft, hmoved⟩ := hnext.2 later left harr
          refine ⟨state', hleft, ?_⟩
          rw [hmoved, List.length_cons, List.foldl_cons, Nat.add_assoc, Nat.add_comm 1]
    · rw [if_neg hle]
      refine ⟨fun e he ↦ (by cases he), fun entries rest he ↦ ?_⟩
      cases he
      exact move_arrivals_from_source_stop _ hyields (by simpa using hle)

end Arrivals

/-- What was finished between two sessions is what has left the active requests. -/
theorem Session.Wf.finished_perm {config : SchedulerConfig} {timelineMode : TimelineMode}
    {session session' : Session} {news : List Completion}
    (hw : session.Wf config timelineMode requests) (hw' : session'.Wf config timelineMode requests)
    (hp : session'.pending = session.pending)
    (hc : session'.completed = session.completed ++ news) :
    (tickets news ++ session'.active.map Entry.ticket).Perm (session.active.map Entry.ticket) := by
  obtain ⟨arrived, hreq, -, hperm⟩ := hw.roster
  obtain ⟨arrived', hreq', -, hperm'⟩ := hw'.roster
  have harrived : arrived' = arrived := by
    rw [hreq, hp] at hreq'
    exact (List.append_cancel_right hreq').symm
  subst harrived
  rw [hc, tickets_append, List.append_assoc] at hperm'
  exact (List.perm_append_left_iff _).mp (hperm'.trans hperm.symm)

/-- The metrics of finished requests name these requests. -/
theorem build_request_metrics_id {request : SimulationRequest} {state : RequestState}
    {lookup : LookupMetrics} {metric : BatchAwareRequestMetrics}
    (h : buildRequestMetrics request state lookup = .ok metric) :
    metric.requestId = request.requestId := by
  simp only [buildRequestMetrics, except_bind_ok] at h
  obtain ⟨_, -, _, -, _, -, h⟩ := h
  cases h
  rfl

theorem closed_ids_eq {timelineMode : TimelineMode} {completed : List Completion}
    (h : ∀ completion ∈ completed, ∃ finishMs lostMs,
      completion.1.Finished timelineMode finishMs lostMs completion.2) :
    (completed.map Prod.snd).map BatchAwareRequestMetrics.requestId =
      (tickets completed).map fun ticket ↦ ticket.1.requestId := by
  simp only [tickets, List.map_map]
  refine List.map_congr_left fun completion hmem ↦ ?_
  obtain ⟨_, _, hfinished⟩ := h completion hmem
  exact build_request_metrics_id hfinished.metric_eq

/-- The ids of finished requests and of those still active make up the ids before. -/
theorem Session.Wf.closed_perm {config : SchedulerConfig} {timelineMode : TimelineMode}
    {session session' : Session} {news : List Completion}
    (hw : session.Wf config timelineMode requests) (hw' : session'.Wf config timelineMode requests)
    (hp : session'.pending = session.pending)
    (hc : session'.completed = session.completed ++ news) :
    ((news.map Prod.snd).map BatchAwareRequestMetrics.requestId ++
      session'.active.map Entry.id).Perm (session.active.map Entry.id) := by
  have hclosed := closed_ids_eq fun completion hmem ↦
    hw'.completed completion (hc ▸ List.mem_append_right session.completed hmem)
  rw [hclosed, hw.named.ids_eq, hw'.named.ids_eq, ← List.map_append]
  exact (hw.finished_perm hw' hp hc).map _

theorem Represents.emit {locals : Locals} {session : Session} (h : Represents locals session)
    (hapart : ∀ entry ∈ session.active, entry.id ∉ locals.closedIds) :
    Represents { emitRequestMetrics locals with iterationMetrics := [] } session := by
  have hheld := fun entry he ↦ (h.held entry he).emit (hapart entry he)
  rw [emit_request_metrics_eq] at hheld ⊢
  exact ⟨h.waiting_eq, h.running_eq, fun entry he ↦ (hheld entry he).congr rfl rfl rfl rfl,
    h.queue_eq⟩

theorem RepresentsFrontier.emit {locals : Locals} {session : Session} {frontier : Frontier}
    (h : RepresentsFrontier locals session frontier)
    (hapart : ∀ entry ∈ frontier.active session, entry.id ∉ locals.closedIds) :
    RepresentsFrontier { emitRequestMetrics locals with iterationMetrics := [] } session
      frontier := by
  have hheld := fun entry he ↦ (h.held entry he).emit (hapart entry he)
  rw [emit_request_metrics_eq] at hheld ⊢
  exact ⟨h.waiting_eq, h.running_eq, fun entry he ↦ (hheld entry he).congr rfl rfl rfl rfl,
    h.queue_eq⟩

/-- Who is left on the frontier was not finished while it was prepared. -/
theorem Frontier.Prepared.closed_apart {session : Session} {frontier : Frontier}
    (h : frontier.Prepared engine session)
    (hw : session.Wf engine.config engine.timelineMode requests) :
    ∀ entry ∈ frontier.active session,
      entry.id ∉ (frontier.completed.map Prod.snd).map BatchAwareRequestMetrics.requestId := by
  have hperm := h.active_perm.map fun ticket ↦ ticket.1.requestId
  have hclosed := closed_ids_eq fun completion hc ↦ ⟨_, _, h.completed completion hc⟩
  rw [List.map_append, ← hclosed, ← (h.named hw).ids_eq, ← hw.named.ids_eq] at hperm
  have hnodup := hperm.nodup_iff.mpr hw.active_distinct.ids
  exact fun entry he hmem ↦ hnodup.disjoint hmem (List.mem_map_of_mem he)

/-- Once the closed requests are deleted, the ids left are those of the active requests. -/
theorem keys_closed {dict : Dict String ℕ} {ids ids' closed : List String}
    (hkeys : Finmap.keys dict = ids.toFinset) (hnodup : ids.Nodup)
    (hperm : (closed ++ ids').Perm ids) : Finmap.keys (dict.eraseAll closed) = ids'.toFinset := by
  have hdisjoint := (hperm.nodup_iff.mpr hnodup).disjoint
  rw [Dict.keys_eraseAll, hkeys, ← List.toFinset_eq_of_perm _ _ hperm, List.toFinset_append]
  ext id
  simp only [Finset.mem_sdiff, Finset.mem_union, List.mem_toFinset]
  constructor
  · rintro ⟨h | h, hn⟩
    · exact absurd h hn
    · exact h
  · exact fun h ↦ ⟨.inr h, fun hc ↦ hdisjoint hc h⟩

/-- The streaming loop holds the requests of a session, has emitted the metrics of those it
finished, and knows no others. -/
structure StreamAgrees (source : RequestSource σ) (state : StreamState σ) (session : Session) :
    Prop where
  represents : Represents state.locals session
  yields : source.Yields state.source session.pending
  arrivals_eq : state.arrivalSeq = session.arrivals
  now_eq : state.nowMs = session.nowMs
  iteration_id_eq : state.iterationId = session.iterationId
  completed_eq : state.emittedRequests = session.completed.map Prod.snd
  iterations_eq : state.emittedIterations = session.iterationMetrics
  emitted : state.locals.requestMetrics = [] ∧ state.locals.iterationMetrics = []
  states_keys : Finmap.keys state.locals.statesById = (session.active.map Entry.id).toFinset

/-- The next start time a source announces is that of the next pending request. -/
theorem next_start_eq {instanceUuid : String} {state : σ} {pending : List SimulationRequest}
    (hyields : source.Yields state pending)
    (hinstance : ∀ request ∈ pending, request.instanceUuid = instanceUuid) :
    ∃ state', source.Yields state' pending ∧
      Engine.nextStart source instanceUuid state =
        .ok (pending.head?.map SimulationRequest.startTimeMs, state') := by
  obtain ⟨peeked, hpeek, hyields⟩ := hyields.peek_in
  refine ⟨peeked, hyields, ?_⟩
  rw [Engine.nextStart, hpeek]
  cases pending with
  | nil => rfl
  | cons request rest =>
    simp only [List.head?_cons, except_ok_bind, requireInstance,
      hinstance _ (List.mem_cons_self ..), ne_eq, not_true_eq_false, if_false]
    rfl

/-- What a pass of the session does once the arrivals have been received. -/
def Engine.serveReceived (engine : Engine C K) (instanceUuid : String) (received : Session) :
    Replay C K (Flow Session) := do
  if received.Idle then
    match received.pending with
    | [] => return .stop received
    | request :: _ => return .proceed { received with nowMs := request.startTimeMs }
  else
    let frontier ← engine.frontier received
    engine.drainCacheEvents
    if frontier.Empty then
      match received.pending with
      | [] => return .stop (received.emptied frontier received.nowMs)
      | request :: _ =>
        return .proceed (received.emptied frontier (max received.nowMs request.startTimeMs))
    else
      return .proceed (← engine.iterate instanceUuid received frontier)

theorem pass_eq (engine : Engine C K) (instanceUuid : String) (session : Session) :
    engine.pass instanceUuid session =
      check (engine.receive session) >>= engine.serveReceived instanceUuid := rfl

/-- The requests an iteration closes, those its frontier has closed, and those still active
make up the active ones before. -/
theorem IterationAgrees.closed_perm {session session' : Session} {frontier : Frontier}
    {locals : Locals} {result : ℚ × Locals}
    (h : IterationAgrees session frontier locals result session')
    (hw : session.Wf engine.config engine.timelineMode requests)
    (hw' : session'.Wf engine.config engine.timelineMode requests)
    (hempty : locals.requestMetrics = []) :
    ((frontier.completed.map Prod.snd).map BatchAwareRequestMetrics.requestId ++
      result.2.closedIds ++ session'.active.map Entry.id).Perm (session.active.map Entry.id) := by
  obtain ⟨news, hcompleted, hmetrics⟩ := h.completed
  rw [hempty, List.nil_append] at hmetrics
  have hperm := hw.closed_perm hw' h.pending_eq (hcompleted.trans (List.append_assoc _ _ _))
  rw [List.map_append, List.map_append, ← hmetrics] at hperm
  exact hperm

/-- A pass of the streaming loop, once the arrivals have been moved. -/
theorem stream_arrived_agree {state : StreamState σ} {received : Session} (world : World C K)
    (hw : received.Wf engine.config engine.timelineMode requests)
    (h : StreamAgrees source state received) {instanceUuid : String}
    (hinstance : ∀ request ∈ received.pending, request.instanceUuid = instanceUuid) :
    Agree Eq (FlowAgrees (StreamAgrees source))
      (engine.streamArrived source instanceUuid state world)
      (engine.serveReceived instanceUuid received world) := by
  have hrep := h.represents
  unfold Engine.streamArrived Engine.serveReceived
  by_cases hidle : received.Idle
  · rw [if_pos (hrep.idle_iff.mpr hidle), if_pos hidle]
    obtain ⟨source', hyields, hnext⟩ := next_start_eq h.yields hinstance
    have hjump : ∀ nowMs, StreamAgrees source { state with source := source', nowMs }
        { received with nowMs } := fun nowMs ↦
      ⟨hrep.at_time nowMs, hyields, h.arrivals_eq, rfl, h.iteration_id_eq, h.completed_eq,
        h.iterations_eq, h.emitted, h.states_keys⟩
    rw [hnext, check_ok_bind]
    have hstop : StreamAgrees source { state with source := source' } received :=
      ⟨hrep, hyields, h.arrivals_eq, h.now_eq, h.iteration_id_eq, h.completed_eq,
        h.iterations_eq, h.emitted, h.states_keys⟩
    cases hp : received.pending with
    | nil => exact .ok rfl (.stop hstop)
    | cons request rest =>
      rw [hp] at hjump
      exact .ok rfl (.proceed (hjump _))
  rw [if_neg (mt hrep.idle_iff.mp hidle), if_neg hidle, h.now_eq]
  refine Agree.bind (frontier_agree engine world hw hrep) ?_
  rintro result frontier world' _ - hfrontier rfl hagree
  have hprepares := prepares_of_frontier hfrontier
  have hprepared := hprepares.prepared hw
  have hheld := hagree.represents hrep
  have hclosed : result.2.closedIds =
      (frontier.completed.map Prod.snd).map BatchAwareRequestMetrics.requestId := by
    rw [Locals.closedIds, hagree.locals_eq, h.emitted.1]
    rfl
  have hemit : RepresentsFrontier (state.emit result.2).locals received frontier :=
    hheld.emit (by rw [hclosed]; exact hprepared.closed_apart hw)
  have hstates : (state.emit result.2).locals.statesById =
      state.locals.statesById.eraseAll result.2.closedIds := by
    rw [StreamState.emit, emit_request_metrics_eq, hagree.locals_eq]
  have hrequests : (state.emit result.2).emittedRequests =
      (received.completed ++ frontier.completed).map Prod.snd := by
    rw [StreamState.emit, hagree.locals_eq, h.completed_eq, h.emitted.1, List.map_append]
    rfl
  have hiterations : (state.emit result.2).emittedIterations = received.iterationMetrics := by
    rw [StreamState.emit, hagree.locals_eq, h.iterations_eq, h.emitted.2, List.append_nil]
  have hempty' : (state.emit result.2).locals.requestMetrics = [] ∧
      (state.emit result.2).locals.iterationMetrics = [] := by
    rw [StreamState.emit, emit_request_metrics_eq]
    exact ⟨rfl, rfl⟩
  refine Agree.bind_same fun _ world'' _ ↦ ?_
  by_cases hempty : frontier.Empty
  · rw [if_pos ((hemit.empty_iff hprepared).mpr hempty), if_pos hempty]
    obtain ⟨source', hyields, hnext⟩ := next_start_eq h.yields hinstance
    have hemptied : ∀ nowMs, StreamAgrees source
        { state.emit result.2 with source := source', nowMs }
        (received.emptied frontier nowMs) := by
      intro nowMs
      obtain ⟨hw₀, hr₀⟩ := (hemit.empty_iff hprepared).mpr hempty
      refine ⟨⟨hw₀, hr₀, by simp [Session.emptied, Session.active], hemit.queue_eq⟩, hyields,
        h.arrivals_eq, rfl, h.iteration_id_eq, hrequests, hiterations, hempty', ?_⟩
      show Finmap.keys (state.emit result.2).locals.statesById = _
      rw [hstates, hclosed]
      exact keys_closed h.states_keys hw.active_distinct.ids
        (hw.closed_perm (hprepared.emptied hw hempty nowMs) rfl rfl)
    have hnext' : Engine.nextStart source instanceUuid (state.emit result.2).source =
      .ok (received.pending.head?.map SimulationRequest.startTimeMs, source') := hnext
    have hnow : (state.emit result.2).nowMs = received.nowMs := h.now_eq
    rw [hnext', check_ok_bind, hnow]
    cases hp : received.pending with
    | nil => exact .ok rfl (.stop (hemptied received.nowMs))
    | cons request rest => exact .ok rfl (.proceed (hemptied _))
  · rw [if_neg (mt (hemit.empty_iff hprepared).mp hempty), if_neg hempty]
    have hnow : (state.emit result.2).nowMs = received.nowMs := h.now_eq
    have hiteration : (state.emit result.2).iterationId = received.iterationId := h.iteration_id_eq
    rw [hnow, hiteration]
    refine Agree.bind (run_iteration_agree hw hprepares hemit instanceUuid) ?_
    rintro ⟨finishMs, locals⟩ session' _ _ - hiterate rfl hagree'
    have hw' := hprepared.iterated hw (iterates_of_iterate hiterate)
    obtain ⟨news, hcompleted, hmetrics⟩ := hagree'.completed
    obtain ⟨metric, hsession, hlocals⟩ := hagree'.iterations
    rw [hempty'.1, List.nil_append] at hmetrics
    rw [hempty'.2, List.nil_append] at hlocals
    have hperm := hagree'.closed_perm hw hw' hempty'.1
    rw [← hclosed] at hperm
    have hapart : ∀ entry ∈ session'.active, entry.id ∉ locals.closedIds := by
      intro entry he hmem
      have hnodup := hperm.nodup_iff.mpr hw.active_distinct.ids
      exact hnodup.disjoint (List.mem_append_right _ hmem) (List.mem_map_of_mem he)
    refine .ok rfl (.proceed ⟨hagree'.represents.emit hapart, ?_, ?_, hagree'.now_eq, ?_, ?_, ?_, ?_,
      ?_⟩)
    · rw [hagree'.pending_eq]
      exact h.yields
    · rw [hagree'.arrivals_eq]
      exact h.arrivals_eq
    · rw [hagree'.iteration_id]
    · show (state.emit result.2).emittedRequests ++ locals.requestMetrics = _
      rw [hrequests, hmetrics, hcompleted, ← List.map_append]
    · show (state.emit result.2).emittedIterations ++ locals.iterationMetrics = _
      rw [hiterations, hlocals, hsession]
    · show (emitRequestMetrics locals).requestMetrics = [] ∧ _
      rw [emit_request_metrics_eq]
      exact ⟨rfl, rfl⟩
    · show Finmap.keys (emitRequestMetrics locals).statesById = _
      have hids := hagree'.states_eq
      dsimp only at hids
      rw [emit_request_metrics_eq, hids, hstates]
      dsimp only
      rw [← Dict.eraseAll_append]
      exact keys_closed h.states_keys hw.active_distinct.ids hperm

/-- One pass of the streaming loop is one pass of the session. -/
theorem stream_body_agree {state : StreamState σ} {session : Session} (world : World C K)
    (hw : session.Wf engine.config engine.timelineMode requests)
    (h : StreamAgrees source state session) {instanceUuid : String}
    (hinstance : ∀ request ∈ requests, request.instanceUuid = instanceUuid) {turns : ℕ}
    (hturns : requests.length < turns) :
    Agree Eq (FlowAgrees (StreamAgrees source))
      (engine.streamBody source instanceUuid turns state world)
      (engine.pass instanceUuid session world) := by
  obtain ⟨arrived, hreq, hlen, hroster⟩ := hw.roster
  have hpending : ∀ request ∈ session.pending, request.instanceUuid = instanceUuid :=
    fun request hr ↦ hinstance request (hreq ▸ List.mem_append_right _ hr)
  have hnodup : (session.pending.map SimulationRequest.requestId).Nodup := by
    have hall := hw.distinct
    rw [hreq, List.map_append] at hall
    exact hall.of_append_right
  have hfresh : ∀ request ∈ session.pending, request.requestId ∉ state.locals.statesById := by
    intro request hr hmem
    rw [← Finmap.mem_keys, h.states_keys, List.mem_toFinset, hw.named.ids_eq] at hmem
    obtain ⟨ticket, ht, hid⟩ := List.mem_map.mp hmem
    have harrived := hroster.mem_iff.mp (List.mem_append_right (tickets session.completed) ht)
    have hall := hw.distinct
    rw [hreq, List.map_append] at hall
    refine hall.disjoint (List.mem_map.mpr ⟨ticket.1, ?_, hid⟩) (List.mem_map_of_mem hr)
    exact List.fst_mem_of_mem_zipIdx harrived
  have hlength : session.pending.length < turns := by
    rw [hreq, List.length_append] at hturns
    omega
  obtain ⟨herror, hok⟩ := move_arrivals_from_source engine session.nowMs session.lostMs
    session.arrivals h.yields hpending hnodup hfresh hlength
  rw [Engine.streamBody, h.now_eq, h.arrivals_eq, pass_eq]
  cases harr : arrivals engine.timelineMode session.nowMs session.lostMs session.arrivals
    session.pending with
  | error e =>
    rw [herror e harr, Engine.receive, harr]
    exact .error rfl
  | ok moved =>
  obtain ⟨entries, pending⟩ := moved
  obtain ⟨source', hyields, hsource⟩ := hok entries pending harr
  obtain ⟨received, hreceived⟩ : ∃ received, { session with
      pending
      arrivals := session.arrivals + entries.length
      waiting := session.waiting ++ entries } = received := ⟨_, rfl⟩
  have hreceive : engine.receive session = .ok received := by
    rw [← hreceived]
    simp [Engine.receive, harr, pure, Except.pure]
  have hwf := (receives_of_receive hreceive).wf hw
  have hrep := represents_received hw h.represents harr
  rw [hreceived] at hrep
  have hmoved : ∀ maxActiveRequests, StreamAgrees source { state with
      source := source'
      arrivalSeq := session.arrivals + entries.length
      locals := entries.foldl Locals.register state.locals
      maxActiveRequests } received := by
    intro maxActiveRequests
    refine ⟨hrep, ?_, ?_, ?_, ?_, ?_, ?_, ?_, ?_⟩
    all_goals try rw [← hreceived]
    · exact hyields
    · exact h.now_eq
    · exact h.iteration_id_eq
    · exact h.completed_eq
    · exact h.iterations_eq
    · rw [Locals.register_all_eq]
      exact h.emitted
    · show Finmap.keys (entries.foldl Locals.register state.locals).statesById = _
      rw [Locals.register_all_states_keys, h.states_keys, ← List.toFinset_append, Session.active,
        Session.active]
      simp
  rw [hsource, hreceive, check_ok_bind, check_ok_bind]
  refine stream_arrived_agree world hwf ?_ ?_
  · have hnow : session.nowMs = state.nowMs := h.now_eq.symm
    rw [hnow]
    exact hmoved _
  · intro request hr
    obtain ⟨_, hreq', -⟩ := hwf.roster
    exact hinstance request (hreq' ▸ List.mem_append_right _ hr)

/-- The streaming loop runs the session. -/
theorem stream_loop_agree {instanceUuid : String}
    (hinstance : ∀ request ∈ requests, request.instanceUuid = instanceUuid) {turns : ℕ}
    (hturns : requests.length < turns) (fuel : ℕ) {state : StreamState σ} {session : Session}
    (world : World C K) (hw : session.Wf engine.config engine.timelineMode requests)
    (h : StreamAgrees source state session) :
    Agree Eq (StreamAgrees source) (engine.streamLoop source instanceUuid turns fuel state world)
      (engine.serveAll instanceUuid fuel session world) := by
  induction fuel generalizing state session world with
  | zero => exact .error rfl
  | succ fuel ih =>
    obtain ⟨source', hpeek, hyields⟩ := h.yields.peek_in
    have hpeeked : StreamAgrees source { state with source := source' } session :=
      { h with yields := hyields }
    unfold Engine.streamLoop Engine.serveAll
    rw [hpeek, check_ok_bind]
    dsimp only
    have hguard : session.pending.head? = none ∧ state.locals.waiting = [] ∧
        state.locals.running = [] ↔ session.pending = [] ∧ session.Idle := by
      rw [h.represents.idle_iff, List.head?_eq_none_iff]
    by_cases hdone : session.pending = [] ∧ session.Idle
    · rw [if_pos (hguard.mpr hdone), if_pos hdone]
      exact .ok rfl hpeeked
    rw [if_neg (mt hguard.mp hdone), if_neg hdone]
    refine Agree.bind (stream_body_agree world hw hpeeked hinstance hturns) ?_
    rintro flow flow' world' _ - hpass rfl hagree
    have hwf := (passes_of_pass hpass).wf hw
    cases hagree with
    | stop hnext => exact .ok rfl hnext
    | proceed hnext => exact ih world' hwf hnext

/-- What a streaming replay returns, against the session it ends in. -/
structure StreamResultAgrees (result : StreamResult) (session : Option Session) : Prop where
  requests_eq : result.requestMetrics = session.elim [] fun session ↦ session.completed.map Prod.snd
  iterations_eq : result.iterationMetrics = session.elim [] Session.iterationMetrics
  final_active_eq : result.stats.finalActiveRequests = 0
  request_count_eq : result.stats.emittedRequestCount = result.requestMetrics.length
  iteration_count_eq : result.stats.emittedIterationCount = result.iterationMetrics.length

/-- The streaming engine serves the instance. -/
theorem run_instance_stream_agree (engine : Engine C K) {instanceUuid : String} {state : σ}
    (hyields : source.Yields state requests)
    (hinstance : ∀ request ∈ requests, request.instanceUuid = instanceUuid)
    (hd : (requests.map SimulationRequest.requestId).Nodup) {turns : ℕ}
    (hturns : requests.length < turns) (fuel : ℕ) (world : World C K) :
    Agree Eq StreamResultAgrees
      (engine.runInstanceStream source instanceUuid turns fuel state world)
      (engine.serveInstance instanceUuid fuel requests world) := by
  obtain ⟨source', hpeek, hyields⟩ := hyields.peek_in
  rw [Engine.runInstanceStream, hpeek, check_ok_bind]
  cases requests with
  | nil => exact .ok rfl ⟨rfl, rfl, rfl, rfl, rfl⟩
  | cons request pending =>
    refine Agree.bind_same fun queue world' _ ↦ ?_
    have hwf := Session.start_wf engine.config engine.timelineMode queue hd
    have hstart : StreamAgrees source
        { source := source', nowMs := request.startTimeMs, locals := { transferQueue := queue } }
        (Session.start queue request pending) :=
      ⟨⟨rfl, rfl, by simp [Session.start, Session.active], rfl⟩, hyields, rfl, rfl, rfl, rfl, rfl,
        ⟨rfl, rfl⟩, rfl⟩
    refine Agree.bind (stream_loop_agree hinstance hturns fuel world' hwf hstart) ?_
    rintro final session _ _ - hserve rfl h
    obtain ⟨-, hw₀, hr₀⟩ := serve_all_idle hserve
    refine Agree.bind_same fun _ _ _ ↦ .ok rfl ⟨h.completed_eq, h.iterations_eq, ?_, rfl, rfl⟩
    have hkeys := h.states_keys
    rw [Session.active, hw₀, hr₀] at hkeys
    simp [Dict.len, hkeys]

end InferTwin
