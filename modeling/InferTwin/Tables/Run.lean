import InferTwin.Tables.StreamRun
import InferTwin.Replay.Run

namespace InferTwin

open Effect

variable {C K σ : Type}

/-- Metrics that account for every request by its tag, and that agree on what was made
visible. -/
structure Accounted (requestMetrics : List BatchAwareRequestMetrics)
    (iterationMetrics : List IterationMetrics) (requests : List SimulationRequest) : Prop where
  tags : (requestMetrics.map BatchAwareRequestMetrics.tag).Perm
    (requests.map SimulationRequest.tag)
  visible : (requestMetrics.map BatchAwareRequestMetrics.visible).sum =
    (iterationMetrics.map IterationMetrics.visible).sum

namespace Accounted

variable {requestMetrics requestMetrics' : List BatchAwareRequestMetrics}
  {iterationMetrics iterationMetrics' : List IterationMetrics}
  {requests requests' : List SimulationRequest}

theorem append (h : Accounted requestMetrics iterationMetrics requests)
    (h' : Accounted requestMetrics' iterationMetrics' requests') :
    Accounted (requestMetrics ++ requestMetrics') (iterationMetrics ++ iterationMetrics')
      (requests ++ requests') where
  tags := by
    rw [List.map_append, List.map_append]
    exact h.tags.append h'.tags
  visible := by
    rw [List.map_append, List.map_append, List.sum_append, List.sum_append, h.visible, h'.visible]

theorem perm (h : Accounted requestMetrics iterationMetrics requests)
    (hmetrics : requestMetrics'.Perm requestMetrics)
    (hiterations : iterationMetrics'.Perm iterationMetrics)
    (hrequests : requests.Perm requests') :
    Accounted requestMetrics' iterationMetrics' requests' where
  tags := ((hmetrics.map _).trans h.tags).trans (hrequests.map _)
  visible := by
    rw [(hmetrics.map _).sum_eq, (hiterations.map _).sum_eq, h.visible]

/-- Books in balance with nobody active and nobody to come. -/
theorem of_balanced {locals : Locals}
    (h : locals.Balanced requestMetrics iterationMetrics [] requests)
    (hactive : locals.active = []) :
    Accounted requestMetrics iterationMetrics requests where
  tags := by
    have htags := h.tags
    rw [hactive] at htags
    simpa using htags
  visible := by
    have hvisible := h.visible
    rw [hactive] at hvisible
    simpa [Heap.visible] using hvisible

end Accounted

/-- Nobody is active before the first arrival. -/
theorem Locals.balanced_initial (queue : SharedLinkFIFOTransferQueue)
    (requests : List SimulationRequest) :
    Locals.Balanced { transferQueue := queue } [] [] requests requests where
  registered := ⟨List.nodup_nil, by simp [Locals.active], by simp [Locals.active],
    by simp [Locals.active]⟩
  tags := by simp [Locals.active]
  visible := rfl

theorem Locals.numbered_initial (queue : SharedLinkFIFOTransferQueue) :
    Locals.Numbered { transferQueue := queue } 0 where
  nodup := List.nodup_nil
  active_lt := by simp [Locals.active]
  keys := by simp

section Instance

variable {engine : Engine C K} {instanceUuid : String} {turns fuel : ℕ}
  {requests : List SimulationRequest} {world world' : World C K}

/-- In no pass of the replay is a request finished without an iteration while another one is
registered under its id. -/
def Engine.instanceRegistered (engine : Engine C K) (instanceUuid : String) (fuel : ℕ)
    (requests : List SimulationRequest) (world : World C K) : Bool :=
  match SimulationRequest.sorted requests, SharedLinkFIFOTransferQueue.create instanceUuid with
  | request :: pending, .ok queue =>
    engine.loopRegistered instanceUuid fuel (initialLoopState queue request pending) world
  | _, _ => true

theorem initial_loop_state_balanced (queue : SharedLinkFIFOTransferQueue)
    (request : SimulationRequest) (pending : List SimulationRequest) :
    (Engine.initialLoopState queue request pending).Balanced (request :: pending) :=
  ⟨Locals.numbered_initial queue, Locals.balanced_initial queue (request :: pending)⟩

theorem run_instance_accounted {result : InstanceResult}
    (hregistered : engine.instanceRegistered instanceUuid fuel requests world)
    (h : engine.runInstance instanceUuid fuel requests world = .ok result world') :
    Accounted result.requestMetrics result.iterationMetrics requests := by
  have hperm : (SimulationRequest.sorted requests).Perm requests :=
    List.perm_insertionSort _ requests
  unfold Engine.runInstance at h
  cases hsorted : SimulationRequest.sorted requests with
  | nil =>
    simp only [hsorted] at h
    cases h
    rw [hsorted, List.nil_perm] at hperm
    subst hperm
    exact ⟨.refl _, rfl⟩
  | cons request pending =>
    simp only [hsorted, bind_ok, check_ok] at h
    obtain ⟨queue, _, ⟨hqueue, rfl⟩, final, world₁, hloop, _, world₂, -, h⟩ := h
    cases h
    unfold Engine.instanceRegistered at hregistered
    rw [hsorted, hqueue] at hregistered
    obtain ⟨hactive, hpending, hbalanced⟩ := run_loop_balanced hregistered
      (initial_loop_state_balanced queue request pending) hloop
    have hbooks := hbalanced.balanced
    rw [hpending] at hbooks
    rw [hsorted] at hperm
    exact (Accounted.of_balanced hbooks hactive).perm (.refl _) (.refl _) hperm

theorem instance_registered_of_nodup
    (hd : (requests.map SimulationRequest.requestId).Nodup) :
    engine.instanceRegistered instanceUuid fuel requests world := by
  have hperm : (SimulationRequest.sorted requests).Perm requests :=
    List.perm_insertionSort _ requests
  unfold Engine.instanceRegistered
  cases hsorted : SimulationRequest.sorted requests with
  | nil => rfl
  | cons request pending =>
    rw [hsorted] at hperm
    cases SharedLinkFIFOTransferQueue.create instanceUuid with
    | error _ => rfl
    | ok queue =>
      exact loop_registered_of_nodup ((hperm.map _).nodup_iff.mpr hd)
        (initial_loop_state_balanced queue request pending)

theorem run_instance_stream_accounted {source : RequestSource σ} {s : σ} {result : StreamResult}
    (hyields : source.Yields s requests)
    (h : engine.runInstanceStream source instanceUuid turns fuel s world = .ok result world') :
    Accounted result.requestMetrics result.iterationMetrics requests := by
  unfold Engine.runInstanceStream at h
  obtain ⟨⟨next, s₁⟩, _, hchecked, h⟩ := bind_ok.mp h
  obtain ⟨hpeeked, rfl⟩ := check_ok.mp hchecked
  obtain ⟨s₂, hpeek, hyields'⟩ := hyields.peek_in
  rw [hpeek] at hpeeked
  cases hpeeked
  cases requests with
  | nil =>
    cases h
    exact ⟨.refl _, rfl⟩
  | cons request pending =>
    simp only [List.head?_cons, bind_ok, check_ok] at h
    obtain ⟨queue, _, ⟨-, rfl⟩, final, world₁, hloop, _, world₂, -, h⟩ := h
    cases h
    have hinitial : StreamState.Balanced source
        { source := s₁, nowMs := request.startTimeMs, locals := { transferQueue := queue } }
        (request :: pending) (request :: pending) :=
      ⟨hyields', Locals.numbered_initial queue, Locals.balanced_initial queue _, rfl, rfl⟩
    obtain ⟨hfinal, hactive⟩ := stream_loop_balanced hinitial hloop
    exact .of_balanced hfinal.balanced hactive

end Instance

/-- Grouping loses nobody. -/
theorem append_to_group_perm (request : SimulationRequest)
    (groups : List (String × List SimulationRequest)) :
    ((appendToGroup request groups).flatMap Prod.snd).Perm
      (request :: groups.flatMap Prod.snd) := by
  induction groups with
  | nil => exact .refl _
  | cons group groups ih =>
    obtain ⟨instanceUuid, requests⟩ := group
    unfold appendToGroup
    split_ifs
    · rw [List.flatMap_cons, List.flatMap_cons, List.append_assoc]
      exact List.perm_middle
    · rw [List.flatMap_cons, List.flatMap_cons]
      exact (ih.append_left requests).trans List.perm_middle

theorem foldl_append_to_group_perm (requests : List SimulationRequest)
    (groups : List (String × List SimulationRequest)) :
    ((requests.foldl (fun groups request ↦ appendToGroup request groups) groups).flatMap
      Prod.snd).Perm (groups.flatMap Prod.snd ++ requests) := by
  induction requests generalizing groups with
  | nil => rw [List.foldl_nil, List.append_nil]
  | cons request requests ih =>
    refine (ih (appendToGroup request groups)).trans ?_
    exact ((append_to_group_perm request groups).append_right requests).trans
      List.perm_middle.symm

theorem group_by_instance_perm (requests : List SimulationRequest) :
    ((groupByInstance requests).flatMap Prod.snd).Perm requests :=
  (foldl_append_to_group_perm (SimulationRequest.sorted requests) []).trans
    (List.perm_insertionSort _ requests)

namespace BatchAwareReplayEngine

/-- The same of every group. -/
def groupsRegistered (engine : BatchAwareReplayEngine C K) (fuel : ℕ) :
    List (String × List SimulationRequest) → Shared K → Bool
  | [], _ => true
  | (instanceUuid, requests) :: groups, shared =>
    (engine.forInstance instanceUuid).instanceRegistered instanceUuid fuel requests {
        cache := (engine.cacheFactory instanceUuid).2
        sink := shared.sink
        memo := shared.memo } &&
      match onInstance (engine.cacheFactory instanceUuid).2
          ((engine.forInstance instanceUuid).runInstance instanceUuid fuel requests) shared with
      | .ok _ shared => engine.groupsRegistered fuel groups shared
      | .error _ _ => true

/-- No request of the run is finished without an iteration while another one is registered
under its id. -/
def runRegistered (engine : BatchAwareReplayEngine C K) (fuel : ℕ)
    (requests : List SimulationRequest) (shared : Shared K) : Bool :=
  engine.groupsRegistered fuel (groupByInstance requests) shared

variable {engine : BatchAwareReplayEngine C K} {fuel : ℕ} {shared shared' : Shared K}

theorem run_groups_accounted {groups : List (String × List SimulationRequest)}
    {result : InstanceResult} (hregistered : engine.groupsRegistered fuel groups shared)
    (h : engine.runGroups fuel groups shared = .ok result shared') :
    Accounted result.requestMetrics result.iterationMetrics (groups.flatMap Prod.snd) := by
  induction groups generalizing shared result with
  | nil =>
    cases h
    exact ⟨.refl _, rfl⟩
  | cons group groups ih =>
    obtain ⟨instanceUuid, requests⟩ := group
    unfold groupsRegistered at hregistered
    rw [Bool.and_eq_true] at hregistered
    obtain ⟨hinstance, hrest⟩ := hregistered
    unfold runGroups at h
    obtain ⟨first, shared₁, hfirst, h⟩ := bind_ok.mp h
    rw [hfirst] at hrest
    obtain ⟨rest, shared₂, hgroups, h⟩ := bind_ok.mp h
    cases h
    obtain ⟨world, hrun, -⟩ := zoom_ok.mp hfirst
    exact (run_instance_accounted hinstance hrun).append (ih hrest hgroups)

theorem groups_registered_of_nodup {groups : List (String × List SimulationRequest)}
    (hd : ((groups.flatMap Prod.snd).map SimulationRequest.requestId).Nodup) :
    engine.groupsRegistered fuel groups shared := by
  induction groups generalizing shared with
  | nil => rfl
  | cons group groups ih =>
    rw [List.flatMap_cons, List.map_append] at hd
    unfold groupsRegistered
    rw [Bool.and_eq_true]
    refine ⟨instance_registered_of_nodup hd.of_append_left, ?_⟩
    split
    · exact ih hd.of_append_right
    · rfl

theorem run_accounted {requests : List SimulationRequest} {result : BatchAwareReplayResult}
    (hregistered : engine.runRegistered fuel requests shared)
    (h : engine.run fuel requests shared = .ok result shared') :
    Accounted result.requestMetrics result.iterationMetrics requests := by
  unfold run at h
  obtain ⟨merged, shared₁, hgroups, h⟩ := bind_ok.mp h
  obtain ⟨_, _, hget, h⟩ := bind_ok.mp h
  cases hget
  cases h
  exact (run_groups_accounted hregistered hgroups).perm (List.perm_insertionSort _ _)
    (List.perm_insertionSort _ _) (group_by_instance_perm requests)

/-- With distinct ids the condition holds of every run. -/
theorem run_registered_of_nodup {requests : List SimulationRequest}
    (hd : (requests.map SimulationRequest.requestId).Nodup) :
    engine.runRegistered fuel requests shared :=
  groups_registered_of_nodup (((group_by_instance_perm requests).map _).nodup_iff.mpr hd)

end BatchAwareReplayEngine

end InferTwin
