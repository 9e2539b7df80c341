import InferTwin.Server.Pass
import Mathlib.Logic.Relation

namespace InferTwin

open Effect

variable {C K : Type}

theorem arrivals_ok {timelineMode : TimelineMode} {nowMs lostMs : ℚ} {seq : ℕ}
    {pending rest : List SimulationRequest} {entries : List Entry}
    (h : arrivals timelineMode nowMs lostMs seq pending = .ok (entries, rest)) :
    ∃ taken, pending = taken ++ rest ∧ entries.map Entry.ticket = taken.zipIdx seq ∧
      (∀ entry ∈ entries, entry.Waiting timelineMode nowMs lostMs ∧
        entry.lookup = none ∧ entry.lostMs = lostMs) ∧
      (∀ request ∈ taken, request.startTimeMs ≤ nowMs) ∧
      ∀ request ∈ rest.head?, nowMs < request.startTimeMs := by
  induction pending generalizing seq entries with
  | nil =>
    cases h
    exact ⟨[], rfl, rfl, by simp, by simp, by simp⟩
  | cons request pending ih =>
    unfold arrivals at h
    split_ifs at h with hle
    · simp only [except_bind_ok] at h
      obtain ⟨entry, hentry, ⟨entries', rest'⟩, hrest, h⟩ := h
      cases h
      obtain ⟨taken, rfl, htickets, hall, htaken, hhead⟩ := ih hrest
      obtain ⟨hw, hl, hreq, -, hseq⟩ := Entry.Waiting.arrive hle hentry
      refine ⟨request :: taken, rfl, ?_, List.forall_mem_cons.mpr ⟨⟨hw, hl⟩, hall⟩,
        List.forall_mem_cons.mpr ⟨hle, htaken⟩, hhead⟩
      simp [Entry.ticket, hreq, hseq, ← htickets]
    · cases h
      refine ⟨[], rfl, rfl, by simp, by simp, ?_⟩
      intro r hr
      cases hr
      exact not_le.mp hle

/-- What moving the arrivals does. -/
structure Receives (engine : Engine C K) (session session' : Session) : Prop where
  entries : ∃ (entries : List Entry) (taken : List SimulationRequest),
    session.pending = taken ++ session'.pending ∧
    session' = { session with
      pending := session'.pending
      arrivals := session.arrivals + entries.length
      waiting := session.waiting ++ entries } ∧
    entries.map Entry.ticket = taken.zipIdx session.arrivals ∧
    (∀ entry ∈ entries, entry.Waiting engine.timelineMode session.nowMs session.lostMs ∧
      entry.lookup = none ∧ entry.lostMs = session.lostMs) ∧
    (∀ request ∈ taken, request.startTimeMs ≤ session.nowMs)
  later : ∀ request ∈ session'.pending.head?, session.nowMs < request.startTimeMs

theorem receives_of_receive {engine : Engine C K} {session session' : Session}
    (h : engine.receive session = .ok session') : Receives engine session session' := by
  simp only [Engine.receive, except_bind_ok] at h
  obtain ⟨⟨entries, rest⟩, harr, h⟩ := h
  cases h
  obtain ⟨taken, hp, ht, hall, htaken, hhead⟩ := arrivals_ok harr
  exact ⟨⟨entries, taken, hp, rfl, ht, hall, htaken⟩, hhead⟩

namespace Receives

variable {engine : Engine C K} {session session' : Session} {requests : List SimulationRequest}

theorem now_eq (h : Receives engine session session') : session'.nowMs = session.nowMs := by
  obtain ⟨⟨_, _, _, he, _⟩, _⟩ := h
  rw [he]

theorem wf (h : Receives engine session session')
    (hw : session.Wf engine.config engine.timelineMode requests) :
    session'.Wf engine.config engine.timelineMode requests := by
  obtain ⟨⟨entries, taken, hp, he, ht, hall, -⟩, -⟩ := h
  obtain ⟨arrived, hreq, hlen, hperm⟩ := hw.roster
  have hlength : entries.length = taken.length := by
    simpa using congrArg List.length ht
  have hactive : session'.active = session.active ++ entries := by
    rw [he]
    simp [Session.active]
  have hcompleted : session'.completed = session.completed := by rw [he]
  have hnow : session'.nowMs = session.nowMs := by rw [he]
  have hlost : session'.lostMs = session.lostMs := by rw [he]
  have hwaiting : session'.waiting = session.waiting ++ entries := by rw [he]
  have hrunning : session'.running = session.running := by rw [he]
  have hseqs : ∀ ticket ∈ session.active.map Entry.ticket, ticket.2 < session.arrivals := by
    intro ticket hticket
    have hmem := hperm.mem_iff.mp (List.mem_append_right (tickets session.completed) hticket)
    have hlt := List.snd_lt_of_mem_zipIdx hmem
    omega
  constructor
  · exact hw.distinct
  · rw [hwaiting, hnow, hlost]
    intro entry hentry
    rcases List.mem_append.mp hentry with hentry | hentry
    · exact hw.waiting entry hentry
    · exact (hall entry hentry).1
  · rw [hwaiting]
    intro entry hentry
    cases hsw : session.waiting with
    | nil =>
      rw [hsw] at hentry
      exact (hall entry (List.mem_of_mem_tail hentry)).2.1
    | cons first rest =>
      rw [hsw] at hentry
      rcases List.mem_append.mp hentry with hentry | hentry
      · exact hw.tail_fresh entry (by rw [hsw]; exact hentry)
      · exact (hall entry hentry).2.1
  · rw [hrunning, hnow, hlost]
    exact hw.running
  · rw [hcompleted]
    exact hw.completed
  · rw [hrunning]
    exact hw.unchunked
  · rw [hactive, List.map_append, ht]
    refine List.pairwise_append.mpr ⟨hw.order, ?_, ?_⟩
    · have hrange : ((taken.zipIdx session.arrivals).map Prod.snd).Pairwise (· < ·) := by
        rw [List.zipIdx_map_snd]
        exact List.pairwise_lt_range'
      exact List.pairwise_map.mp hrange
    · intro a ha b hb
      exact (hseqs a ha).trans_le (List.le_snd_of_mem_zipIdx hb)
  · refine ⟨arrived ++ taken, ?_, ?_, ?_⟩
    · rw [hreq, hp, List.append_assoc]
    · rw [he, List.length_append, hlen, hlength]
    · rw [hcompleted, hactive, List.map_append, ht, List.zipIdx_append, ← List.append_assoc,
        Nat.zero_add, hlen]
      exact hperm.append_right _

end Receives

theorem Session.Wf.of_idle {config : SchedulerConfig} {timelineMode : TimelineMode}
    {requests : List SimulationRequest} {session : Session}
    (hw : session.Wf config timelineMode requests) (hidle : session.Idle) (nowMs : ℚ) :
    { session with nowMs }.Wf config timelineMode requests where
  distinct := hw.distinct
  waiting := by simp [hidle.1]
  tail_fresh := hw.tail_fresh
  running := by simp [hidle.2]
  completed := hw.completed
  unchunked := hw.unchunked
  order := hw.order
  roster := hw.roster

namespace Frontier.Prepared

variable {engine : Engine C K} {session : Session} {frontier : Frontier}
  {requests : List SimulationRequest}

theorem emptied (h : frontier.Prepared engine session)
    (hw : session.Wf engine.config engine.timelineMode requests)
    (hempty : frontier.Empty) (nowMs : ℚ) :
    (session.emptied frontier nowMs).Wf engine.config engine.timelineMode requests := by
  obtain ⟨hwait, hadm, hgrant, hidle⟩ := hempty
  obtain ⟨dealt, hdealt, -, hperm⟩ := h.split
  obtain ⟨arrived, hreq, hlen, hroster⟩ := hw.roster
  have hrunning : session.running = [] := by
    rw [← h.running_eq, hgrant, hidle]
    rfl
  constructor
  · exact hw.distinct
  · simp [Session.emptied]
  · simp [Session.emptied]
  · simp [Session.emptied]
  · intro completion hc
    rcases List.mem_append.mp hc with hc | hc
    · exact hw.completed completion hc
    · exact ⟨_, _, h.completed completion hc⟩
  · simp [Session.emptied]
  · simp [Session.emptied, Session.active]
  · refine ⟨arrived, hreq, hlen, ?_⟩
    rw [hadm, List.map_nil, List.append_nil] at hperm
    rw [hwait, List.map_nil, List.append_nil] at hdealt
    have hactive : session.active.map Entry.ticket = dealt := by
      simp [Session.active, hrunning, hdealt]
    rw [hactive] at hroster
    have hgoal : tickets (session.emptied frontier nowMs).completed ++
        (session.emptied frontier nowMs).active.map Entry.ticket =
          tickets session.completed ++ tickets frontier.completed := by
      simp [Session.emptied, Session.active]
    rw [hgoal]
    exact (hperm.append_left _).trans hroster

theorem iterated (h : frontier.Prepared engine session)
    (hw : session.Wf engine.config engine.timelineMode requests) {instanceUuid : String}
    {session' : Session} {world world' : World C K}
    (hi : Iterates engine instanceUuid session frontier world session' world') :
    session'.Wf engine.config engine.timelineMode requests := by
  obtain ⟨hgranted, hadmitted, hshape, hne, hlatency, hbreakdown, happlies, hmetric⟩ := hi
  rename_i granted admitted shape latency world₁ breakdown applied world₂ metric
  have hle := engine.clock.le_add session.nowMs latency.durationMs latency.duration_nonneg
  have hbatched := h.batched hgranted hadmitted
  obtain ⟨hrun, hdone, hsub, hperm⟩ := happlies.stages hle hbatched
  rw [h.batch_tickets hgranted hadmitted] at hsub hperm
  obtain ⟨dealt, hdealt, hsubd, hpermd⟩ := h.split
  obtain ⟨arrived, hreq, hlen, hroster⟩ := hw.roster
  have hactive : session.active.map Entry.ticket =
      session.running.map Job.ticket ++ (dealt ++ frontier.waiting.map Entry.ticket) := by
    simp [Session.active, hdealt, Function.comp_def]
  have hactive' : (List.map Job.entry applied.running ++ frontier.waiting.map
      (Entry.sitOut engine.timelineMode latency.durationMs)).map Entry.ticket =
      applied.running.map Job.ticket ++ frontier.waiting.map Entry.ticket := by
    simp [Function.comp_def]
  constructor
  · exact hw.distinct
  · intro entry hentry
    obtain ⟨kept, hkept, rfl⟩ := List.mem_map.mp hentry
    exact (h.waiting kept hkept).sitOut hle
  · intro entry hentry
    rw [← List.map_tail] at hentry
    obtain ⟨kept, hkept, rfl⟩ := List.mem_map.mp hentry
    exact h.tail_fresh kept hkept
  · exact hrun
  · intro completion hc
    rcases List.mem_append.mp hc with hc | hc
    · rcases List.mem_append.mp hc with hc | hc
      · exact hw.completed completion hc
      · exact ⟨_, _, h.completed completion hc⟩
    · exact ⟨_, _, hdone completion hc⟩
  · intro hc
    obtain ⟨hg, hid, hwhole⟩ := h.whole hc
    refine happlies.unfinished hle hbatched ?_
    intro item hitem
    have hgnil : granted = [] := by
      have hs := h.sliced_granted hgranted
      rw [hg] at hs
      cases hs
      rfl
    simp only [batchOf, hgnil, hid, List.map_nil, List.nil_append, List.mem_map] at hitem
    obtain ⟨built, hb, rfl⟩ := hitem
    obtain ⟨plan, hp, hs⟩ := sliced_mem (h.sliced_admitted hadmitted) hb
    obtain ⟨entry, hentry, rfl⟩ := List.mem_map.mp hp
    have hd := hs.describes
    refine ⟨built.2, rfl, ?_⟩
    have hcomputed := (h.admitted entry hentry).1.ledger.computed_le
    have hrem := hwhole entry hentry
    rw [built.2.after_eq, hd.before_eq, hd.tokens_eq, hd.prompt_eq]
    simp only [Job.enter, RequestState.remaining] at hrem ⊢
    omega
  · show ((List.map Job.entry applied.running ++ frontier.waiting.map
      (Entry.sitOut engine.timelineMode latency.durationMs)).map Entry.ticket).Pairwise (·.2 < ·.2)
    have horder := hw.order
    rw [hactive] at horder
    rw [hactive']
    refine horder.sublist ?_
    rw [← List.append_assoc]
    exact (hsub.trans ((List.Sublist.refl _).append hsubd)).append (List.Sublist.refl _)
  · refine ⟨arrived, hreq, hlen, ?_⟩
    show (tickets (session.completed ++ frontier.completed ++ applied.completed) ++
      (List.map Job.entry applied.running ++ frontier.waiting.map
        (Entry.sitOut engine.timelineMode latency.durationMs)).map Entry.ticket).Perm _
    rw [hactive']
    refine List.Perm.trans ?_ hroster
    rw [hactive, List.perm_iff_count]
    intro ticket
    have h₁ := hperm.count_eq ticket
    have h₂ := hpermd.count_eq ticket
    simp only [tickets_append, List.count_append] at h₁ h₂ ⊢
    omega

end Frontier.Prepared

/-- What one pass can do. -/
inductive Passes (engine : Engine C K) (instanceUuid : String) (session : Session)
    (world : World C K) : Flow Session → World C K → Prop
  | jump {received request rest} (hreceive : Receives engine session received)
      (hidle : received.Idle) (hpending : received.pending = request :: rest) :
      Passes engine instanceUuid session world
        (.proceed { received with nowMs := request.startTimeMs }) world
  | idle {received} (hreceive : Receives engine session received) (hidle : received.Idle)
      (hpending : received.pending = []) :
      Passes engine instanceUuid session world (.stop received) world
  | skip {received frontier world' request rest} (hreceive : Receives engine session received)
      (hbusy : ¬received.Idle) (hprepares : Prepares engine received world frontier world')
      (hempty : frontier.Empty) (hpending : received.pending = request :: rest) :
      Passes engine instanceUuid session world
        (.proceed (received.emptied frontier (max received.nowMs request.startTimeMs)))
        (engine.drained world')
  | finish {received frontier world'} (hreceive : Receives engine session received)
      (hbusy : ¬received.Idle) (hprepares : Prepares engine received world frontier world')
      (hempty : frontier.Empty) (hpending : received.pending = []) :
      Passes engine instanceUuid session world (.stop (received.emptied frontier received.nowMs))
        (engine.drained world')
  | batch {received frontier world' session' world''} (hreceive : Receives engine session received)
      (hbusy : ¬received.Idle) (hprepares : Prepares engine received world frontier world')
      (hleft : ¬frontier.Empty)
      (hiterates : Iterates engine instanceUuid received frontier (engine.drained world') session'
        world'') :
      Passes engine instanceUuid session world (.proceed session') world''

theorem passes_of_pass {engine : Engine C K} {instanceUuid : String} {session : Session}
    {flow : Flow Session} {world world' : World C K}
    (h : engine.pass instanceUuid session world = .ok flow world') :
    Passes engine instanceUuid session world flow world' := by
  unfold Engine.pass at h
  simp only [bind_ok, check_ok] at h
  obtain ⟨received, _, ⟨hreceive, rfl⟩, h⟩ := h
  have hreceive := receives_of_receive hreceive
  split_ifs at h with hidle
  · cases hp : received.pending with
    | nil =>
      simp only [hp] at h
      cases h
      exact .idle hreceive hidle hp
    | cons request rest =>
      simp only [hp] at h
      cases h
      have hjump : Passes engine instanceUuid session world' _ world' :=
        .jump hreceive hidle hp
      rwa [hp] at hjump
  · simp only [bind_ok, drain_ok] at h
    obtain ⟨frontier, _, hfrontier, _, _, rfl, h⟩ := h
    have hprepares := prepares_of_frontier hfrontier
    split_ifs at h with hempty
    · cases hp : received.pending with
      | nil =>
        simp only [hp] at h
        cases h
        exact .finish hreceive hidle hprepares hempty hp
      | cons request rest =>
        simp only [hp] at h
        cases h
        exact .skip hreceive hidle hprepares hempty hp
    · simp only [bind_ok] at h
      obtain ⟨session', _, hiterate, h⟩ := h
      cases h
      exact .batch hreceive hidle hprepares hempty (iterates_of_iterate hiterate)

/-- The session with which a pass ends, however it ends. -/
def Flow.state {σ : Type} : Flow σ → σ
  | proceed state => state
  | stop state => state

/-- One pass keeps the invariant. -/
theorem Passes.wf {engine : Engine C K} {instanceUuid : String} {session : Session}
    {flow : Flow Session} {requests : List SimulationRequest} {world world' : World C K}
    (h : Passes engine instanceUuid session world flow world')
    (hw : session.Wf engine.config engine.timelineMode requests) :
    flow.state.Wf engine.config engine.timelineMode requests := by
  cases h with
  | jump hreceive hidle hpending => exact (hreceive.wf hw).of_idle hidle _
  | idle hreceive hidle hpending => exact hreceive.wf hw
  | skip hreceive hbusy hprepares hempty hpending =>
    have hwf := hreceive.wf hw
    exact (hprepares.prepared hwf).emptied hwf hempty _
  | finish hreceive hbusy hprepares hempty hpending =>
    have hwf := hreceive.wf hw
    exact (hprepares.prepared hwf).emptied hwf hempty _
  | batch hreceive hbusy hprepares hleft hiterates =>
    have hwf := hreceive.wf hw
    exact (hprepares.prepared hwf).iterated hwf hiterates

/-- Nobody comes that was not expected. -/
theorem Passes.pending_subset {engine : Engine C K} {instanceUuid : String} {session : Session}
    {flow : Flow Session} {world world' : World C K}
    (h : Passes engine instanceUuid session world flow world') :
    flow.state.pending ⊆ session.pending := by
  have hreceived : ∀ received : Session, Receives engine session received →
      received.pending ⊆ session.pending := by
    intro received hreceive
    obtain ⟨⟨_, _, hp, _⟩, _⟩ := hreceive
    rw [hp]
    exact List.subset_append_right _ _
  intro request hr
  cases h with
  | jump hreceive => exact hreceived _ hreceive hr
  | idle hreceive => exact hreceived _ hreceive hr
  | skip hreceive => exact hreceived _ hreceive hr
  | finish hreceive => exact hreceived _ hreceive hr
  | batch hreceive _ _ _ hiterates =>
    cases hiterates
    exact hreceived _ hreceive hr

/-- A pass of the system that does not end its run. -/
def Steps (engine : Engine C K) (instanceUuid : String) (before after : Session × World C K) :
    Prop :=
  engine.pass instanceUuid before.1 before.2 = .ok (.proceed after.1) after.2

/-- Whatever every pass keeps holds all through a run. -/
theorem serve_all_induction {engine : Engine C K} {instanceUuid : String}
    {P : Session → World C K → Prop}
    (hstep : ∀ session world flow world', P session world →
      Passes engine instanceUuid session world flow world' → P flow.state world')
    {fuel : ℕ} {session session' : Session} {world world' : World C K} (hp : P session world)
    (h : engine.serveAll instanceUuid fuel session world = .ok session' world') :
    P session' world' := by
  induction fuel generalizing session world with
  | zero => cases h
  | succ fuel ih =>
    unfold Engine.serveAll at h
    split_ifs at h with hdone
    · cases h
      exact hp
    · simp only [bind_ok] at h
      obtain ⟨flow, world₁, hpass, h⟩ := h
      have hnext := hstep _ _ _ _ hp (passes_of_pass hpass)
      cases flow with
      | stop final =>
        cases h
        exact hnext
      | proceed next => exact ih hnext h

end InferTwin
