import InferTwin.Properties.FrontierPlan
import InferTwin.Server.WorkConserving

namespace InferTwin

open Effect

variable {C K : Type}

/-- The running requests come in the order of arrival, and before the waiting ones, which
do as well. -/
def Locals.InOrder (locals : Locals) : Prop :=
  ((locals.running ++ locals.waiting).map fun ref ↦ (locals.heap ref).arrivalSeq).Pairwise (· < ·)

theorem in_order_of_held {locals : Locals} {entries : List Entry}
    (hrefs : locals.running ++ locals.waiting = entries.map Entry.seq)
    (hheld : ∀ entry ∈ entries, Held locals entry)
    (horder : (entries.map Entry.ticket).Pairwise (·.2 < ·.2)) : locals.InOrder := by
  have hseqs : (locals.running ++ locals.waiting).map (fun ref ↦ (locals.heap ref).arrivalSeq) =
      (entries.map Entry.ticket).map Prod.snd := by
    rw [hrefs, List.map_map, List.map_map]
    exact List.map_congr_left fun entry he ↦
      congrArg RequestState.arrivalSeq (hheld entry he).heap_eq
  unfold Locals.InOrder
  rw [hseqs]
  exact List.pairwise_map.mpr horder

theorem Represents.in_order {config : SchedulerConfig} {timelineMode : TimelineMode}
    {requests : List SimulationRequest} {locals : Locals} {session : Session}
    (h : Represents locals session) (hw : session.Wf config timelineMode requests) :
    locals.InOrder := by
  refine in_order_of_held ?_ h.held hw.order
  rw [h.running_eq, h.waiting_eq, Session.active, List.map_append, List.map_map]
  rfl

section Prepared

variable {engine : Engine C K} {session : Session} {frontier : Frontier} {locals : Locals}
  {requests : List SimulationRequest}

/-- Preparing a batch keeps the order of those it leaves. -/
theorem Frontier.Prepared.active_order (h : frontier.Prepared engine session)
    (hw : session.Wf engine.config engine.timelineMode requests) :
    ((frontier.active session).map Entry.ticket).Pairwise (·.2 < ·.2) := by
  obtain ⟨dealt, hdealt, hsub, -⟩ := h.split
  refine hw.order.sublist ?_
  simp only [Frontier.active, Session.active, List.map_append, hdealt]
  refine (List.Sublist.refl _).append (List.Sublist.append ?_ (List.Sublist.refl _))
  simpa [Function.comp_def] using hsub

theorem RepresentsFrontier.in_order (h : RepresentsFrontier locals session frontier)
    (hp : frontier.Prepared engine session)
    (hw : session.Wf engine.config engine.timelineMode requests) : locals.InOrder := by
  refine in_order_of_held ?_ h.held (hp.active_order hw)
  rw [h.running_eq, h.waiting_eq]
  simp [Frontier.active, Function.comp_def]

/-- The scheduler keeps the order too. -/
theorem RepresentsFrontier.admission_in_order {world world' : World C K} {instanceUuid : String}
    {shape : BatchShape} {admission : Admission}
    (h : RepresentsFrontier locals session frontier)
    (hw : session.Wf engine.config engine.timelineMode requests)
    (hprepares : Prepares engine session world frontier world')
    (hs : schedule engine.config instanceUuid session.iterationId session.nowMs locals.waiting
      locals.running locals.heap = .ok (shape, admission)) :
    { locals with
      waiting := admission.waiting
      running := admission.running
      heap := admission.heap : Locals }.InOrder := by
  have hp := hprepares.prepared hw
  rw [schedule_eq hw hprepares h] at hs
  obtain ⟨granted, hg, hs⟩ := except_bind_ok.mp hs
  obtain ⟨admitted, ha, hs⟩ := except_bind_ok.mp hs
  cases hshape : batchShape instanceUuid session ((granted ++ admitted).map Prod.snd) with
  | error e =>
    rw [hshape] at hs
    cases hs
  | ok built =>
    rw [hshape] at hs
    cases hs
    have hheld := h.batch_held hp hw hg ha
    have horder := hp.active_order hw
    have htickets : ((batchOf granted frontier.idle admitted).map (·.1.entry) ++
        frontier.waiting).map Entry.ticket = (frontier.active session).map Entry.ticket := by
      have hbatch := hp.batch_tickets hg ha
      simp only [Frontier.active, List.map_append, List.map_map, Function.comp_def,
        Job.entry_ticket] at hbatch ⊢
      rw [hbatch, List.append_assoc]
    rw [← htickets] at horder
    refine in_order_of_held ?_ ?_ horder
    · rw [List.map_append, ← hp.batch_refs hg ha]
      simp [Function.comp_def]
    · intro entry hentry
      have hmem := List.perm_append_comm.mem_iff.mp hentry
      exact (hheld entry hmem).congr rfl rfl rfl rfl

end Prepared

/-- The iterations of an instance, one after the other. The next one is held up only when
of the requests that have come, those not finished need no iteration. -/
structure InstanceResult.OnTime (requests : List SimulationRequest) (result : InstanceResult) :
    Prop where
  numbered : result.iterationMetrics.map IterationMetrics.iterationId =
    List.range result.iterationMetrics.length
  forward : ∀ metric ∈ result.iterationMetrics, metric.startTimeMs ≤ metric.finishTimeMs
  chain : result.iterationMetrics.IsChain fun iteration next ↦
    iteration.finishTimeMs ≤ next.startTimeMs ∧
      (iteration.finishTimeMs < next.startTimeMs →
        ∀ request ∈ requests, request.startTimeMs ≤ iteration.finishTimeMs →
          ∃ metric ∈ result.requestMetrics, metric.requestId = request.requestId ∧
            (metric.finishTimeMs ≤ iteration.finishTimeMs ∨ metric.ZeroMiss))

/-- Of two requests, the one that comes first in the order of replay is scheduled no later. -/
def InstanceResult.FirstInOrder (requests : List SimulationRequest) (result : InstanceResult) :
    Prop :=
  ∀ request ∈ requests, ∀ later ∈ requests, request.sortKey ≤ later.sortKey →
    ∀ metric ∈ result.requestMetrics, ∀ metric' ∈ result.requestMetrics,
      metric.requestId = request.requestId → metric'.requestId = later.requestId →
        metric.firstScheduledTimeMs ≤ metric'.firstScheduledTimeMs

/-- What the replay has emitted so far. -/
def Locals.emitted (locals : Locals) : InstanceResult where
  requestMetrics := locals.requestMetrics
  iterationMetrics := locals.iterationMetrics

section Served

variable {engine : Engine C K} {instanceUuid : String} {requests : List SimulationRequest}
  {world₀ world : World C K} {session : Session}

theorem Session.OnTime.emitted {sorted : List SimulationRequest} {result : InstanceResult}
    (h : session.OnTime sorted) (hsub : ∀ request ∈ requests, request ∈ sorted)
    (hw : session.Wf engine.config engine.timelineMode sorted)
    (hrequests : result.requestMetrics = session.completed.map Prod.snd)
    (hiterations : result.iterationMetrics = session.iterationMetrics) :
    result.OnTime requests where
  numbered := by
    have hlength := congrArg List.length h.numbered
    rw [List.length_map, List.length_range] at hlength
    rw [hiterations, h.numbered, hlength]
  forward := by
    rw [hiterations]
    exact h.forward
  chain := by
    rw [hiterations]
    refine h.chain.imp fun iteration next hstep ↦ ⟨hstep.1, fun hlt request hr hle ↦ ?_⟩
    obtain ⟨completion, hc, hrequest, hdone⟩ := hstep.2 hlt request (hsub request hr) hle
    obtain ⟨_, _, hfinished⟩ := hw.completed completion hc
    refine ⟨completion.2, ?_, ?_, hdone⟩
    · rw [hrequests]
      exact List.mem_map_of_mem hc
    · rw [hfinished.describes.id_eq, hrequest]

/-- A metric belongs to a request, which began at the time the metric gives. -/
theorem Session.Wf.began_of_metric {config : SchedulerConfig} {timelineMode : TimelineMode}
    (hw : session.Wf config timelineMode requests) (hp : session.pending = [])
    {completion : Completion} (hc : completion ∈ session.completed) :
    (completion.1.request, completion.1.seq) ∈ requests.zipIdx ∧
      completion.2.requestId = completion.1.request.requestId ∧
      session.Began completion.1.seq completion.2.firstScheduledTimeMs := by
  obtain ⟨arrived, hreq, -, hperm⟩ := hw.roster
  rw [hp, List.append_nil] at hreq
  subst hreq
  obtain ⟨_, _, hfinished⟩ := hw.completed completion hc
  have hdescribes := hfinished.describes
  refine ⟨?_, hdescribes.id_eq, .completed hc rfl hdescribes.first_eq⟩
  exact hperm.mem_iff.mp (List.mem_append_left _ (List.mem_map.mpr ⟨completion, hc, rfl⟩))

/-- No request is completed twice. -/
theorem Session.Wf.completed_unique {config : SchedulerConfig} {timelineMode : TimelineMode}
    (hw : session.Wf config timelineMode requests) {completion completion' : Completion}
    (hc : completion ∈ session.completed) (hc' : completion' ∈ session.completed)
    (hseq : completion.1.seq = completion'.1.seq) : completion = completion' := by
  obtain ⟨arrived, -, -, hperm⟩ := hw.roster
  have hseqs : ((tickets session.completed).map Prod.snd).Nodup := by
    have hall : ((tickets session.completed ++ session.active.map Entry.ticket).map
        Prod.snd).Nodup := by
      rw [(hperm.map Prod.snd).nodup_iff, List.zipIdx_map_snd]
      exact List.nodup_range'
    rw [List.map_append] at hall
    exact hall.of_append_left
  rw [tickets, List.map_map] at hseqs
  exact List.inj_on_of_nodup_map hseqs hc hc' hseq

theorem Session.Fair.first_in_order {sorted : List SimulationRequest} {result : InstanceResult}
    (h : session.Fair) (hw : session.Wf engine.config engine.timelineMode sorted)
    (hp : session.pending = []) (hsorted : sorted.Pairwise fun a b ↦ a.sortKey ≤ b.sortKey)
    (hsub : ∀ request ∈ requests, request ∈ sorted)
    (hrequests : result.requestMetrics = session.completed.map Prod.snd) :
    result.FirstInOrder requests := by
  have hidentified : ∀ request ∈ sorted, ∀ other ∈ sorted,
      request.requestId = other.requestId → request = other :=
    fun request hr other ho he ↦ List.inj_on_of_nodup_map hw.distinct hr ho he
  have howner : ∀ request ∈ requests, ∀ metric ∈ result.requestMetrics,
      metric.requestId = request.requestId → ∃ completion ∈ session.completed,
        completion.2 = metric ∧ (request, completion.1.seq) ∈ sorted.zipIdx ∧
          session.Began completion.1.seq metric.firstScheduledTimeMs := by
    intro request hr metric hm hid
    rw [hrequests] at hm
    obtain ⟨completion, hc, rfl⟩ := List.mem_map.mp hm
    obtain ⟨hticket, hid', hbegan⟩ := hw.began_of_metric hp hc
    have hsame : completion.1.request = request :=
      hidentified _ (List.fst_mem_of_mem_zipIdx hticket) request (hsub request hr)
        (hid'.symm.trans hid)
    rw [hsame] at hticket
    exact ⟨completion, hc, rfl, hticket, hbegan⟩
  intro request hr later hl hle metric hm metric' hm' hid hid'
  obtain ⟨completion, hc, rfl, hticket, hbegan⟩ := howner request hr metric hm hid
  obtain ⟨completion', hc', rfl, hticket', hbegan'⟩ := howner later hl metric' hm' hid'
  rw [List.mem_zipIdx_iff_getElem?] at hticket hticket'
  rcases lt_trichotomy completion.1.seq completion'.1.seq with hlt | heq | hgt
  · exact h.ordered _ _ _ _ hbegan hbegan' hlt
  · have hsame := hw.completed_unique hc hc' heq
    rw [hsame]
  · -- the later request cannot stand before the earlier one
    obtain ⟨hbound, hat⟩ := List.getElem?_eq_some_iff.mp hticket
    obtain ⟨hbound', hat'⟩ := List.getElem?_eq_some_iff.mp hticket'
    have hback : later.sortKey ≤ request.sortKey := by
      have hpair := List.pairwise_iff_getElem.mp hsorted _ _ hbound' hbound hgt
      rw [hat, hat'] at hpair
      exact hpair
    have hids := SimulationRequest.sortKey_injective_on_ids (le_antisymm hle hback)
    have hnodup : sorted.Nodup := hw.distinct.of_map _
    have hsame : sorted[completion.1.seq] = sorted[completion'.1.seq] :=
      hat.trans ((hidentified _ (hsub request hr) _ (hsub later hl) hids).trans hat'.symm)
    exact absurd (hnodup.getElem_inj_iff.mp hsame) hgt.ne'

end Served

/-- Fair, and at work. -/
structure Session.Serving (requests : List SimulationRequest) (session : Session) : Prop where
  fair : session.Fair
  on_time : session.OnTime requests

theorem Session.Serving.start (requests : List SimulationRequest)
    (queue : SharedLinkFIFOTransferQueue) (request : SimulationRequest)
    (pending : List SimulationRequest) :
    (Session.start queue request pending).Serving requests := by
  have hnone : ∀ seq firstMs, ¬(Session.start queue request pending).Began seq firstMs := by
    rintro seq firstMs (⟨hmem, -, -⟩ | ⟨hmem, -, -⟩) <;> cases hmem
  refine ⟨⟨?_, ?_, ?_⟩, ⟨rfl, ?_, ?_, ?_, List.isChain_nil, ?_⟩⟩
  · exact fun seq firstMs hb ↦ absurd hb (hnone seq firstMs)
  · exact fun seq firstMs _ _ hb ↦ absurd hb (hnone seq firstMs)
  · exact fun seq firstMs hb ↦ absurd hb (hnone seq firstMs)
  all_goals simp [Session.start]

theorem Passes.serving {engine : Engine C K} {instanceUuid : String}
    {requests : List SimulationRequest} {session : Session} {flow : Flow Session}
    {world world' : World C K} (h : Passes engine instanceUuid session world flow world')
    (hsorted : requests.Pairwise fun a b ↦ a.sortKey ≤ b.sortKey)
    (hw : session.Wf engine.config engine.timelineMode requests) (hs : session.Serving requests) :
    flow.state.Serving requests :=
  ⟨h.fair hw hs.fair, h.on_time hsorted hw hs.on_time⟩

/-- First come, first served, and no idle server while there is work. In every state that a
replay of a list reaches, between two passes, once a batch has been prepared and once it has
been scheduled, the requests in service and on the line stand in the order of arrival; the
iterations follow one another, and the next one is held up only when whoever has come and is
not finished needs no iteration. When the replay returns, who came first was scheduled no
later. -/
theorem fcfs_work_conserving (engine : Engine C K) (instanceUuid : String)
    {requests : List SimulationRequest} (hd : (requests.map SimulationRequest.requestId).Nodup)
    (world₀ : World C K) :
    (∀ state world, engine.ListReaches instanceUuid requests world₀ state world →
      state.locals.InOrder ∧ state.locals.emitted.OnTime requests ∧
      ∀ plan locals, engine.ListPlans state world plan locals → locals.InOrder ∧
        ∀ shape admission, schedule engine.config instanceUuid state.iterationId state.nowMs
            locals.waiting locals.running locals.heap = .ok (shape, admission) →
          { locals with
            waiting := admission.waiting
            running := admission.running
            heap := admission.heap : Locals }.InOrder) ∧
    ∀ fuel result world, engine.runInstance instanceUuid fuel requests world₀ = .ok result world →
      result.FirstInOrder requests ∧ result.OnTime requests := by
  have hsorted : (SimulationRequest.sorted requests).Pairwise fun a b ↦ a.sortKey ≤ b.sortKey :=
    List.pairwise_insertionSort _ requests
  have hsub : ∀ request ∈ requests, request ∈ SimulationRequest.sorted requests :=
    fun request hr ↦ (SimulationRequest.sorted_perm requests).mem_iff.mpr hr
  have hstart : ∀ queue request pending,
      SimulationRequest.sorted requests = request :: pending →
        (Session.start queue request pending).Serving (SimulationRequest.sorted requests) :=
    fun queue request pending _ ↦ .start _ queue request pending
  have hstep : ∀ session world flow world',
      session.Wf engine.config engine.timelineMode (SimulationRequest.sorted requests) →
      session.Serving (SimulationRequest.sorted requests) →
      Passes engine instanceUuid session world flow world' →
      flow.state.Serving (SimulationRequest.sorted requests) :=
    fun _ _ _ _ hw hs hpass ↦ hpass.serving hsorted hw hs
  constructor
  · intro state world hreach
    obtain ⟨session, hserves, hagree⟩ := hreach.agrees hd
    have hw := hserves.wf hd
    have hserving := hserves.induction (P := fun session _ ↦
      session.Serving (SimulationRequest.sorted requests)) hd hstart hstep
    refine ⟨hagree.represents.in_order hw, ?_, ?_⟩
    · exact hserving.on_time.emitted hsub hw hagree.completed_eq hagree.iterations_eq
    · intro plan locals hplans
      obtain ⟨received, frontier, _, hwf, hprepares, hheld, -, -, hnow, hid⟩ :=
        hagree.prepared hw hplans
      refine ⟨hheld.in_order (hprepares.prepared hwf) hwf, ?_⟩
      intro shape admission hschedule
      rw [hnow, hid] at hschedule
      exact hheld.admission_in_order hwf hprepares hschedule
  · intro fuel result world hrun
    rcases run_instance_serves (P := fun session _ ↦
      session.Serving (SimulationRequest.sorted requests)) hd hstart hstep hrun with
      ⟨rfl, rfl⟩ | ⟨session, _, hw, hserving, hpending, -, hrequests, hiterations⟩
    · exact ⟨by simp [InstanceResult.FirstInOrder], rfl, by simp, List.isChain_nil⟩
    · exact ⟨hserving.fair.first_in_order hw hpending hsorted hsub hrequests,
        hserving.on_time.emitted hsub hw hrequests hiterations⟩

/-- The replay of the pair returns a metric for each of them. -/
theorem Sample.pair_returns : ∃ result world',
    (Sample.engine Sample.config .progressive .exact).runInstance "instance" 13 Sample.pair
      Sample.world = .ok result world' ∧ result.requestMetrics.length = 2 := by
  have hok : (match (Sample.engine Sample.config .progressive .exact).runInstance "instance" 13
        Sample.pair Sample.world with
      | .ok result _ => decide (result.requestMetrics.length = 2)
      | .error _ _ => false) = true := by
    decide +kernel
  cases hrun : (Sample.engine Sample.config .progressive .exact).runInstance "instance" 13
      Sample.pair Sample.world with
  | error e world' => simp [hrun] at hok
  | ok result world' =>
    rw [hrun] at hok
    exact ⟨result, world', rfl, of_decide_eq_true hok⟩

theorem fcfs_work_conserving_pair :
    (∃ plan locals, (Sample.engine Sample.config .progressive .exact).ListPlans Sample.pairStart
      Sample.world plan locals ∧ locals.InOrder) ∧
    ∃ result : InstanceResult, result.requestMetrics.length = 2 ∧
      result.FirstInOrder Sample.pair ∧ result.OnTime Sample.pair := by
  have hsorted : Sample.pair.Pairwise fun a b ↦ a.sortKey ≤ b.sortKey := by decide +kernel
  have hids : (Sample.pair.map SimulationRequest.requestId).Nodup := by decide +kernel
  have hfcfs := fcfs_work_conserving (Sample.engine Sample.config .progressive .exact) "instance"
    hids Sample.world
  constructor
  · obtain ⟨plan, locals, hplans⟩ := Sample.pair_list_plans
    have hstart : (Sample.engine Sample.config .progressive .exact).ListReaches "instance"
        Sample.pair Sample.world Sample.pairStart Sample.world :=
      .start hsorted.insertionSort_eq rfl
    exact ⟨plan, locals, hplans, ((hfcfs.1 _ _ hstart).2.2 plan locals hplans).1⟩
  · obtain ⟨result, world', hrun, hlength⟩ := Sample.pair_returns
    exact ⟨result, hlength, hfcfs.2 13 result world' hrun⟩

end InferTwin
