import InferTwin.Refinement.Arrivals
import InferTwin.Refinement.Iteration
import InferTwin.Server.Termination

namespace InferTwin

open Effect

variable {C K σ τ : Type}

theorem Represents.idle_iff {locals : Locals} {session : Session} (h : Represents locals session) :
    locals.waiting = [] ∧ locals.running = [] ↔ session.Idle := by
  rw [h.waiting_eq, h.running_eq, List.map_eq_nil_iff, List.map_eq_nil_iff]
  rfl

theorem RepresentsFrontier.empty_iff {engine : Engine C K} {locals : Locals} {session : Session}
    {frontier : Frontier} (h : RepresentsFrontier locals session frontier)
    (hp : frontier.Prepared engine session) :
    locals.waiting = [] ∧ locals.running = [] ↔ frontier.Empty := by
  rw [h.waiting_eq, h.running_eq, ← hp.running_eq]
  simp only [List.append_eq_nil_iff, List.map_eq_nil_iff, Frontier.Empty]
  tauto

/-- The list loop holds the requests of a session and the metrics of those it finished. -/
structure ListAgrees (state : LoopState) (session : Session) : Prop where
  represents : Represents state.locals session
  pending_eq : state.pending = session.pending
  arrivals_eq : state.pendingIndex = session.arrivals
  now_eq : state.nowMs = session.nowMs
  iteration_id_eq : state.iterationId = session.iterationId
  completed_eq : state.locals.requestMetrics = session.completed.map Prod.snd
  iterations_eq : state.locals.iterationMetrics = session.iterationMetrics

variable {engine : Engine C K} {requests : List SimulationRequest}

theorem Represents.at_time {locals : Locals} {session : Session} (h : Represents locals session)
    (nowMs : ℚ) : Represents locals { session with nowMs } :=
  ⟨h.waiting_eq, h.running_eq, h.held, h.queue_eq⟩

/-- If nothing is active and nothing is to come, then that was so before the arrivals moved. -/
theorem not_pending_of_idle {session received : Session} (h : Receives engine session received)
    (hp : received.pending = []) (hidle : received.Idle) :
    session.pending = [] ∧ session.Idle := by
  obtain ⟨⟨entries, taken, hpending, he, htickets, -, -⟩, -⟩ := h
  rw [he] at hidle
  obtain ⟨hwaiting, hrunning⟩ := hidle
  obtain ⟨hw, hentries⟩ := List.append_eq_nil_iff.mp hwaiting
  have htaken : taken = [] := by
    have hlength := congrArg List.length htickets
    simpa [hentries, eq_comm] using hlength
  exact ⟨by rw [hpending, hp, htaken]; rfl, hw, hrunning⟩

/-- One pass of the list loop is one pass of the session. -/
theorem loop_body_agree {state : LoopState} {session : Session} (world : World C K)
    (hw : session.Wf engine.config engine.timelineMode requests) (h : ListAgrees state session)
    (hleft : ¬(session.pending = [] ∧ session.Idle)) (instanceUuid : String) :
    Agree Eq (FlowAgrees ListAgrees) (engine.loopBody instanceUuid state world)
      (engine.pass instanceUuid session world) := by
  rw [Engine.loopBody, h.pending_eq, h.now_eq, h.arrivals_eq,
    move_arrivals_eq engine session.nowMs session.lostMs, Engine.pass]
  cases harr : arrivals engine.timelineMode session.nowMs session.lostMs session.arrivals
    session.pending with
  | error e =>
    rw [Engine.receive, harr]
    exact .error rfl
  | ok moved =>
  obtain ⟨entries, pending⟩ := moved
  obtain ⟨received, hreceived⟩ : ∃ received, { session with
      pending
      arrivals := session.arrivals + entries.length
      waiting := session.waiting ++ entries } = received := ⟨_, rfl⟩
  have hreceive : engine.receive session = .ok received := by
    rw [← hreceived]
    simp [Engine.receive, harr, pure, Except.pure]
  have hwf := (receives_of_receive hreceive).wf hw
  have hrep := represents_received hw h.represents harr
  rw [hreceived] at hrep
  have hmoved : ListAgrees { state with
      pending
      pendingIndex := session.arrivals + entries.length
      locals := entries.foldl Locals.register state.locals } received := by
    refine ⟨hrep, ?_, ?_, ?_, ?_, ?_, ?_⟩ <;> rw [← hreceived]
    · exact h.now_eq
    · exact h.iteration_id_eq
    · rw [Locals.register_all_eq]
      exact h.completed_eq
    · rw [Locals.register_all_eq]
      exact h.iterations_eq
  rw [hreceive]
  simp only [Except.map, check_ok_bind]
  have hpending : pending = received.pending := hmoved.pending_eq
  have hnow : session.nowMs = received.nowMs := h.now_eq.symm.trans hmoved.now_eq
  subst hpending
  by_cases hidle : received.Idle
  · rw [if_pos (hrep.idle_iff.mpr hidle), if_pos hidle]
    have hjump : ∀ nowMs, ListAgrees { state with
        pending := received.pending
        pendingIndex := session.arrivals + entries.length
        locals := entries.foldl Locals.register state.locals
        nowMs } { received with nowMs } :=
      fun nowMs ↦ ⟨hrep.at_time nowMs, rfl, hmoved.arrivals_eq, rfl, hmoved.iteration_id_eq,
        hmoved.completed_eq, hmoved.iterations_eq⟩
    cases hp : received.pending with
    | nil => exact absurd (not_pending_of_idle (receives_of_receive hreceive) hp hidle) hleft
    | cons request rest =>
      rw [hp] at hjump
      exact .ok rfl (.proceed (hjump _))
  rw [if_neg (mt hrep.idle_iff.mp hidle), if_neg hidle]
  rw [hnow]
  refine Agree.bind (frontier_agree engine world hwf hrep) ?_
  rintro result frontier world' _ - hfrontier rfl hagree
  have hprepares := prepares_of_frontier hfrontier
  have hprepared := hprepares.prepared hwf
  have hheld := hagree.represents hrep
  refine Agree.bind_same fun _ world'' _ ↦ ?_
  by_cases hempty : frontier.Empty
  · rw [if_pos ((hheld.empty_iff hprepared).mpr hempty), if_pos hempty]
    have hemptied : ∀ nowMs, ListAgrees { state with
        pending := received.pending
        pendingIndex := session.arrivals + entries.length
        locals := result.2
        nowMs } (received.emptied frontier nowMs) := by
      intro nowMs
      obtain ⟨hw₀, hr₀⟩ := (hheld.empty_iff hprepared).mpr hempty
      refine ⟨⟨hw₀, hr₀, by simp [Session.emptied, Session.active], hheld.queue_eq⟩, rfl,
        hmoved.arrivals_eq, rfl, hmoved.iteration_id_eq, ?_, ?_⟩
      · rw [hagree.locals_eq, Session.emptied, List.map_append]
        exact congrArg (· ++ _) hmoved.completed_eq
      · rw [hagree.locals_eq]
        exact hmoved.iterations_eq
    cases hp : received.pending with
    | nil =>
      rw [hp] at hemptied
      exact .ok rfl (.stop (hemptied received.nowMs))
    | cons request rest =>
      rw [hp] at hemptied
      exact .ok rfl (.proceed (hemptied _))
  · rw [if_neg (mt (hheld.empty_iff hprepared).mp hempty), if_neg hempty, hmoved.iteration_id_eq]
    refine Agree.bind (run_iteration_agree hwf hprepares hheld instanceUuid) ?_
    rintro ⟨finishMs, locals⟩ session' _ _ - - rfl hiteration
    refine .ok rfl (.proceed ⟨hiteration.represents, hiteration.pending_eq.symm, ?_,
      hiteration.now_eq, ?_, ?_, ?_⟩)
    · rw [hiteration.arrivals_eq]
      exact hmoved.arrivals_eq
    · rw [hiteration.iteration_id]
    · obtain ⟨news, hc, hm⟩ := hiteration.completed
      rw [hc, hm, hagree.locals_eq, hmoved.completed_eq]
      simp
    · obtain ⟨metric, hs, hl⟩ := hiteration.iterations
      rw [hs, hl, hagree.locals_eq, hmoved.iterations_eq]

/-- The list loop runs the session. -/
theorem run_loop_agree (instanceUuid : String) (fuel : ℕ) {state : LoopState} {session : Session}
    (world : World C K) (hw : session.Wf engine.config engine.timelineMode requests)
    (h : ListAgrees state session) :
    Agree Eq ListAgrees (engine.runLoop instanceUuid fuel state world)
      (engine.serveAll instanceUuid fuel session world) := by
  induction fuel generalizing state session world with
  | zero => exact .error rfl
  | succ fuel ih =>
    have hguard : state.pending = [] ∧ state.locals.waiting = [] ∧ state.locals.running = [] ↔
        session.pending = [] ∧ session.Idle := by
      rw [h.pending_eq, h.represents.idle_iff]
    unfold Engine.runLoop Engine.serveAll
    by_cases hdone : session.pending = [] ∧ session.Idle
    · rw [if_pos (hguard.mpr hdone), if_pos hdone]
      exact .ok rfl h
    rw [if_neg (mt hguard.mp hdone), if_neg hdone]
    refine Agree.bind (loop_body_agree world hw h hdone instanceUuid) ?_
    rintro flow flow' world' _ - hpass rfl hagree
    have hwf := (passes_of_pass hpass).wf hw
    cases hagree with
    | stop hnext => exact .ok rfl hnext
    | proceed hnext => exact ih world' hwf hnext

theorem initial_list_agrees (queue : SharedLinkFIFOTransferQueue) (request : SimulationRequest)
    (pending : List SimulationRequest) :
    ListAgrees (Engine.initialLoopState queue request pending)
      (Session.start queue request pending) where
  represents := ⟨rfl, rfl, by simp [Session.start, Session.active], rfl⟩
  pending_eq := rfl
  arrivals_eq := rfl
  now_eq := rfl
  iteration_id_eq := rfl
  completed_eq := rfl
  iterations_eq := rfl

/-- The metrics of a replay of the list engine, against the session it ends in. -/
def ResultAgrees (result : InstanceResult) (session : Option Session) : Prop :=
  match session with
  | none => result = {}
  | some session => result.requestMetrics = session.completed.map Prod.snd ∧
      result.iterationMetrics = session.iterationMetrics

/-- The list engine serves the instance. -/
theorem run_instance_agree (engine : Engine C K) (instanceUuid : String) (fuel : ℕ)
    (world : World C K) (hd : (requests.map SimulationRequest.requestId).Nodup) :
    Agree Eq ResultAgrees (engine.runInstance instanceUuid fuel requests world)
      (engine.serveInstance instanceUuid fuel (SimulationRequest.sorted requests) world) := by
  have hd' : ((SimulationRequest.sorted requests).map SimulationRequest.requestId).Nodup :=
    ((SimulationRequest.sorted_perm requests).map _).nodup_iff.mpr hd
  rw [Engine.runInstance]
  generalize SimulationRequest.sorted requests = sorted at hd'
  cases sorted with
  | nil => exact .ok rfl rfl
  | cons request pending =>
    refine Agree.bind_same fun queue world' _ ↦ ?_
    have hwf := Session.start_wf engine.config engine.timelineMode queue hd'
    refine Agree.bind (run_loop_agree instanceUuid fuel world' hwf
      (initial_list_agrees queue request pending)) ?_
    rintro state session _ _ - - rfl h
    exact Agree.bind_same fun _ _ _ ↦ .ok rfl ⟨h.completed_eq, h.iterations_eq⟩

end InferTwin
