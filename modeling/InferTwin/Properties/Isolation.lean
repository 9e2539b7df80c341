import InferTwin.Foundation.Group
import InferTwin.Foundation.StableSort
import InferTwin.Properties.Memoization
import InferTwin.Tables.Run

namespace InferTwin

open Effect

variable {C K : Type}

section Sorting

/-- Requests with distinct ids are sorted to one list, whatever order they come in. -/
theorem sorted_eq_of_perm {requests requests' : List SimulationRequest}
    (h : requests.Perm requests') (hd : (requests.map SimulationRequest.requestId).Nodup) :
    SimulationRequest.sorted requests = SimulationRequest.sorted requests' := by
  have hsorted : ∀ list, (SimulationRequest.sorted list).Pairwise fun a b ↦ a.sortKey ≤ b.sortKey :=
    StableSort.pairwise_sort_key SimulationRequest.sortKey
  have hperm := (SimulationRequest.sorted_perm requests).trans
    (h.trans (SimulationRequest.sorted_perm requests').symm)
  refine hperm.eq_of_pairwise ?_ (hsorted requests) (hsorted requests')
  intro a b ha hb hab hba
  have hkey : a.sortKey = b.sortKey := le_antisymm hab hba
  have hid : a.requestId = b.requestId := congrArg (fun key ↦ (ofLex key).2) hkey
  have ha := (SimulationRequest.sorted_perm requests).mem_iff.mp ha
  have hb := h.mem_iff.mpr ((SimulationRequest.sorted_perm requests').mem_iff.mp hb)
  exact List.inj_on_of_nodup_map hd ha hb hid

/-- The requests of one instance, sorted. -/
theorem sorted_itemsOf (requests : List SimulationRequest) (instanceUuid : String) :
    SimulationRequest.sorted (itemsOf SimulationRequest.instanceUuid requests instanceUuid) =
      itemsOf SimulationRequest.instanceUuid (SimulationRequest.sorted requests) instanceUuid :=
  (StableSort.filter_sort_key SimulationRequest.sortKey _ requests).symm

end Sorting

section Grouping

/-- Groups under distinct keys, each of all the requests of its instance. -/
structure Grouped (groups : List (String × List SimulationRequest))
    (done : List SimulationRequest) : Prop where
  nodup : (groups.map Prod.fst).Nodup
  keys : ∀ request ∈ done, request.instanceUuid ∈ groups.map Prod.fst
  items : ∀ group ∈ groups, group.2 = itemsOf SimulationRequest.instanceUuid done group.1

theorem append_to_group_keys (request : SimulationRequest)
    (groups : List (String × List SimulationRequest)) :
    (appendToGroup request groups).map Prod.fst =
      if request.instanceUuid ∈ groups.map Prod.fst then groups.map Prod.fst
      else groups.map Prod.fst ++ [request.instanceUuid] := by
  induction groups with
  | nil => rfl
  | cons group groups ih =>
    obtain ⟨instanceUuid, requests⟩ := group
    unfold appendToGroup
    by_cases huuid : instanceUuid = request.instanceUuid
    · simp [huuid]
    · rw [if_neg huuid, List.map_cons, ih, List.map_cons]
      have hne : request.instanceUuid ≠ instanceUuid := Ne.symm huuid
      simp only [List.mem_cons, hne, false_or]
      split
      · rfl
      · rfl

theorem append_to_group_items {request : SimulationRequest} {done : List SimulationRequest}
    {groups : List (String × List SimulationRequest)} (hnodup : (groups.map Prod.fst).Nodup)
    (hitems : ∀ group ∈ groups, group.2 = itemsOf SimulationRequest.instanceUuid done group.1)
    (hfresh : request.instanceUuid ∉ groups.map Prod.fst →
      itemsOf SimulationRequest.instanceUuid done request.instanceUuid = []) :
    ∀ group ∈ appendToGroup request groups,
      group.2 = itemsOf SimulationRequest.instanceUuid (done ++ [request]) group.1 := by
  induction groups with
  | nil =>
    intro group hgroup
    rw [appendToGroup, List.mem_singleton] at hgroup
    subst hgroup
    rw [itemsOf_concat, hfresh (by simp), if_pos rfl]
    rfl
  | cons first groups ih =>
    obtain ⟨instanceUuid, requests⟩ := first
    obtain ⟨hfirst, hitems⟩ := List.forall_mem_cons.mp hitems
    obtain ⟨hnew, hnodup⟩ := List.nodup_cons.mp hnodup
    intro group hgroup
    unfold appendToGroup at hgroup
    by_cases huuid : instanceUuid = request.instanceUuid
    · rw [if_pos huuid] at hgroup
      rcases List.mem_cons.mp hgroup with rfl | hgroup
      · rw [itemsOf_concat, if_pos huuid.symm, ← hfirst]
      · have hother : request.instanceUuid ≠ group.1 := by
          intro heq
          have hmem : group.1 ∈ groups.map Prod.fst := List.mem_map_of_mem hgroup
          rw [← heq, ← huuid] at hmem
          exact hnew hmem
        rw [itemsOf_concat, if_neg hother, List.append_nil]
        exact hitems group hgroup
    · rw [if_neg huuid] at hgroup
      rcases List.mem_cons.mp hgroup with rfl | hgroup
      · rw [itemsOf_concat, if_neg (Ne.symm huuid), List.append_nil]
        exact hfirst
      · refine ih hnodup hitems (fun habsent ↦ hfresh ?_) group hgroup
        rw [List.map_cons, List.mem_cons]
        rintro (heq | hmem)
        · exact huuid heq.symm
        · exact habsent hmem

theorem Grouped.append {groups : List (String × List SimulationRequest)}
    {done : List SimulationRequest} (h : Grouped groups done) (request : SimulationRequest) :
    Grouped (appendToGroup request groups) (done ++ [request]) where
  nodup := by
    rw [append_to_group_keys]
    split_ifs with hmem
    · exact h.nodup
    · rw [← List.concat_eq_append]
      exact h.nodup.concat hmem
  keys := by
    intro other hother
    rw [append_to_group_keys]
    rcases List.mem_append.mp hother with hother | hother
    · have hmem := h.keys other hother
      split_ifs
      · exact hmem
      · exact List.mem_append_left _ hmem
    · rw [List.mem_singleton] at hother
      subst hother
      split_ifs with hmem
      · exact hmem
      · exact List.mem_append_right _ (List.mem_singleton_self _)
  items := by
    refine append_to_group_items h.nodup h.items fun habsent ↦ ?_
    refine List.filter_eq_nil_iff.mpr fun other hother heq ↦ habsent ?_
    rw [← of_decide_eq_true heq]
    exact h.keys other hother

theorem group_by_instance_grouped (requests : List SimulationRequest) :
    Grouped (groupByInstance requests) (SimulationRequest.sorted requests) := by
  unfold groupByInstance
  induction SimulationRequest.sorted requests using List.reverseRecOn with
  | nil => exact ⟨List.nodup_nil, by simp, by simp⟩
  | append_singleton done request ih =>
    rw [List.foldl_concat]
    exact ih.append request

end Grouping

section Instances

variable {engine : Engine C K} {instanceUuid : String}

theorem schedule_instance {config : SchedulerConfig} {iterationId : ℕ} {startTimeMs : ℚ}
    {waiting running : List ℕ} {heap : Heap} {shape : BatchShape} {admission : Admission}
    (h : schedule config instanceUuid iterationId startTimeMs waiting running heap =
      .ok (shape, admission)) : shape.instanceUuid = instanceUuid := by
  unfold schedule at h
  obtain ⟨⟨tokenBudget, slices, heap'⟩, -, h⟩ := except_bind_ok.mp h
  obtain ⟨⟨slices', admission'⟩, -, h⟩ := except_bind_ok.mp h
  dsimp only at h
  split_ifs at h
  cases h
  rfl

/-- An iteration appends one metric, under the instance that is replayed. -/
theorem run_iteration_instance {nowMs finishMs : ℚ} {iterationId : ℕ} {locals locals' : Locals}
    {world world' : World C K}
    (h : engine.runIteration instanceUuid nowMs iterationId locals world =
      .ok (finishMs, locals') world') :
    ∃ metric, locals'.iterationMetrics = locals.iterationMetrics ++ [metric] ∧
      metric.instanceUuid = instanceUuid := by
  unfold Engine.runIteration at h
  simp only [bind_ok, check_ok] at h
  obtain ⟨⟨shape, admission⟩, _, ⟨hschedule, rfl⟩, h⟩ := h
  split_ifs at h
  · simp only [bind_ok] at h
    obtain ⟨_, _, hthrow, -⟩ := h
    cases hthrow
  simp only [bind_ok, check_ok] at h
  obtain ⟨latency, world₁, -, ⟨wait, heap⟩, _, ⟨-, rfl⟩, locals₁, world₂, happly, _, world₃, -, h⟩ := h
  cases h
  simp only [Engine.applyScheduleResult, bind_ok, check_ok] at happly
  obtain ⟨contributions, _, ⟨-, rfl⟩, ⟨totals, records, served⟩, world₄, hserve, metric, _,
    ⟨hmetric, rfl⟩, _, _, -, hlocals⟩ := happly
  cases hlocals
  have hserved : served.iterationMetrics = locals.iterationMetrics :=
    (apply_slices_applies hserve).iterations_eq
  refine ⟨metric, congrArg (· ++ [metric]) hserved, ?_⟩
  unfold buildIterationMetrics at hmetric
  obtain ⟨breakdown, -, hmetric⟩ := except_bind_ok.mp hmetric
  cases hmetric
  exact schedule_instance hschedule

/-- All iterations so far were of one instance. -/
def Locals.IteratesOn (instanceUuid : String) (locals : Locals) : Prop :=
  ∀ metric ∈ locals.iterationMetrics, metric.instanceUuid = instanceUuid

theorem BodyRuns.iterates_on {state next : LoopState} {flow : Flow LoopState}
    {world world' : World C K} (hbody : BodyRuns engine instanceUuid state world flow world')
    {all : List SimulationRequest} (hd : (all.map SimulationRequest.requestId).Nodup)
    (hbalanced : state.Balanced all) (h : state.locals.IteratesOn instanceUuid)
    (hflow : flow = .proceed next ∨ flow = .stop next) : next.locals.IteratesOn instanceUuid := by
  have hfrontier {pending pendingIndex locals plan locals'} {world₁ : World C K}
      (harrivals : engine.moveArrivals state.nowMs state.pending state.pendingIndex
        state.locals = .ok (pending, pendingIndex, locals))
      (hprepare : engine.prepareSchedulerFrontier state.nowMs locals world =
        .ok (plan, locals') world₁) : locals'.IteratesOn instanceUuid := by
    obtain ⟨hnumbered, hbooks⟩ :=
      move_arrivals_distinct hbalanced.numbered hd hbalanced.balanced harrivals
    obtain ⟨_, _, -, hiterations, -⟩ := frontier_balanced hnumbered hbooks hprepare
    rw [Locals.IteratesOn, hiterations, (move_arrivals_metrics harrivals).2]
    exact h
  cases hbody with
  | jump harrivals =>
    rcases hflow with hflow | hflow
    · cases hflow
      rw [Locals.IteratesOn, (move_arrivals_metrics harrivals).2]
      exact h
    · cases hflow
  | skip harrivals hprepare =>
    rcases hflow with hflow | hflow
    · cases hflow
      exact hfrontier harrivals hprepare
    · cases hflow
  | finish harrivals hprepare hempty =>
    rcases hflow with hflow | hflow
    · cases hflow
    · cases hflow
      exact hfrontier harrivals hprepare
  | batch harrivals hprepare hiteration =>
    rcases hflow with hflow | hflow
    · cases hflow
      obtain ⟨metric, hmetrics, hmetric⟩ := run_iteration_instance hiteration
      intro other hother
      rw [hmetrics] at hother
      rcases List.mem_append.mp hother with hother | hother
      · exact hfrontier harrivals hprepare other hother
      · rw [List.mem_singleton.mp hother]
        exact hmetric
    · cases hflow

theorem run_loop_iterates_on {fuel : ℕ} {state final : LoopState} {world world' : World C K}
    {all : List SimulationRequest} (hd : (all.map SimulationRequest.requestId).Nodup)
    (hbalanced : state.Balanced all) (h : state.locals.IteratesOn instanceUuid)
    (hrun : engine.runLoop instanceUuid fuel state world = .ok final world') :
    final.locals.IteratesOn instanceUuid := by
  induction fuel generalizing state world with
  | zero => cases hrun
  | succ fuel ih =>
    unfold Engine.runLoop at hrun
    split_ifs at hrun with hdone
    · cases hrun
      exact h
    obtain ⟨flow, world₁, hbody, hrun⟩ := bind_ok.mp hrun
    have hruns := body_runs hbody
    rcases hruns.balanced fun _ _ _ harrivals ↦
      move_arrivals_distinct hbalanced.numbered hd hbalanced.balanced harrivals with
      ⟨next, rfl, hbalanced'⟩ | ⟨last, rfl, -⟩
    · exact ih hbalanced' (hruns.iterates_on hd hbalanced h (Or.inl rfl)) hrun
    · cases hrun
      exact hruns.iterates_on hd hbalanced h (Or.inr rfl)

/-- The metrics of one instance among those of all. -/
def InstanceResult.ofInstance (result : InstanceResult) (instanceUuid : String) :
    InstanceResult where
  requestMetrics := itemsOf BatchAwareRequestMetrics.instanceUuid result.requestMetrics instanceUuid
  iterationMetrics := itemsOf IterationMetrics.instanceUuid result.iterationMetrics instanceUuid

theorem InstanceResult.ofInstance_append (own rest : InstanceResult) (instanceUuid : String) :
    InstanceResult.ofInstance {
        requestMetrics := own.requestMetrics ++ rest.requestMetrics
        iterationMetrics := own.iterationMetrics ++ rest.iterationMetrics } instanceUuid = {
      requestMetrics := (own.ofInstance instanceUuid).requestMetrics ++
        (rest.ofInstance instanceUuid).requestMetrics
      iterationMetrics := (own.ofInstance instanceUuid).iterationMetrics ++
        (rest.ofInstance instanceUuid).iterationMetrics } :=
  congrArg₂ InstanceResult.mk (List.filter_append _ _) (List.filter_append _ _)

/-- All metrics are of one instance. -/
structure InstanceResult.OnInstance (result : InstanceResult) (instanceUuid : String) : Prop where
  requests : ∀ metric ∈ result.requestMetrics, metric.instanceUuid = instanceUuid
  iterations : ∀ metric ∈ result.iterationMetrics, metric.instanceUuid = instanceUuid

theorem InstanceResult.OnInstance.own {result : InstanceResult} (h : result.OnInstance instanceUuid) :
    result.ofInstance instanceUuid = result :=
  congrArg₂ InstanceResult.mk
    (List.filter_eq_self.mpr fun metric hmetric ↦ decide_eq_true (h.requests metric hmetric))
    (List.filter_eq_self.mpr fun metric hmetric ↦ decide_eq_true (h.iterations metric hmetric))

theorem InstanceResult.OnInstance.other {result : InstanceResult} (h : result.OnInstance instanceUuid)
    {other : String} (hne : instanceUuid ≠ other) : result.ofInstance other = {} :=
  congrArg₂ InstanceResult.mk
    (List.filter_eq_nil_iff.mpr fun metric hmetric heq ↦
      hne ((h.requests metric hmetric).symm.trans (of_decide_eq_true heq)))
    (List.filter_eq_nil_iff.mpr fun metric hmetric heq ↦
      hne ((h.iterations metric hmetric).symm.trans (of_decide_eq_true heq)))

/-- All that a replay of an instance emits is of that instance. -/
theorem run_instance_on {fuel : ℕ} {requests : List SimulationRequest} {result : InstanceResult}
    {world world' : World C K} (hd : (requests.map SimulationRequest.requestId).Nodup)
    (hinstance : ∀ request ∈ requests, request.instanceUuid = instanceUuid)
    (h : engine.runInstance instanceUuid fuel requests world = .ok result world') :
    result.OnInstance instanceUuid := by
  constructor
  · intro metric hmetric
    have htags := (run_instance_accounted (instance_registered_of_nodup hd) h).tags
    obtain ⟨request, hrequest, htag⟩ :=
      List.mem_map.mp (htags.mem_iff.mp (List.mem_map_of_mem hmetric))
    exact (congrArg Tag.instanceUuid htag).symm.trans (hinstance request hrequest)
  · unfold Engine.runInstance at h
    cases hsorted : SimulationRequest.sorted requests with
    | nil =>
      simp only [hsorted] at h
      cases h
      simp
    | cons request pending =>
      simp only [hsorted, bind_ok, check_ok] at h
      obtain ⟨queue, _, ⟨hqueue, rfl⟩, final, world₁, hloop, _, world₂, -, h⟩ := h
      cases h
      have hperm := SimulationRequest.sorted_perm requests
      rw [hsorted] at hperm
      exact run_loop_iterates_on ((hperm.map _).nodup_iff.mpr hd)
        (initial_loop_state_balanced queue request pending) (fun _ h ↦ by cases h) hloop

end Instances

section Runs

variable {replayEngine : BatchAwareReplayEngine C K} {fuel : ℕ} {instanceUuid : String}

/-- Two replays of one instance that start with different sinks and memos. -/
theorem run_instance_alone {engine : Engine C K} (hbackend : engine.latencyBackend.Memoizable)
    {requests : List SimulationRequest} {cache : C} {sink : K} {memo : ShapeMemo}
    (hmemo : memo.FilledBy engine.latencyBackend) {result : InstanceResult} {world : World C K}
    (h : engine.runInstance instanceUuid fuel requests { cache, sink, memo } = .ok result world)
    (sink' : K) {memo' : ShapeMemo} (hmemo' : memo'.FilledBy engine.latencyBackend) :
    world.memo.FilledBy engine.latencyBackend ∧
    ∃ result' world', engine.runInstance instanceUuid fuel requests
        { cache, sink := sink', memo := memo' } = .ok result' world' ∧ result.Same result' := by
  -- both agree with the replay that calls the backend for every iteration
  have hrun := @same_run_instance _ _ False engine hbackend instanceUuid fuel requests
  have hfirst := hrun { cache, sink, memo } { cache, sink, memo }
    ⟨rfl, False.elim, rfl, hmemo, hmemo⟩
  rw [h] at hfirst
  obtain ⟨middle, _, hmiddle, hworld, hsame⟩ := hfirst.ok_left
  have hsecond := hrun { cache, sink := sink', memo := memo' } { cache, sink, memo }
    ⟨rfl, False.elim, rfl, hmemo', hmemo⟩
  rw [hmiddle] at hsecond
  obtain ⟨result', world', hresult', -, hsame'⟩ := hsecond.ok_right
  exact ⟨hworld.filled, result', world', hresult', hsame.1.trans hsame'.1.symm,
    hsame.2.trans hsame'.2.symm⟩

/-- Among the metrics of all groups, those of an instance are what a replay of its group alone
emits, and there are none where it has no group. -/
theorem run_groups_alone (hbackend : replayEngine.latencyBackend.Memoizable)
    {groups : List (String × List SimulationRequest)} (hnodup : (groups.map Prod.fst).Nodup)
    (hd : ∀ group ∈ groups, (group.2.map SimulationRequest.requestId).Nodup)
    (hinstance : ∀ group ∈ groups, ∀ request ∈ group.2, request.instanceUuid = group.1)
    {shared shared' : Shared K} (hmemo : shared.memo.FilledBy replayEngine.latencyBackend)
    {result : InstanceResult} (h : replayEngine.runGroups fuel groups shared = .ok result shared')
    (instanceUuid : String) (sink : K) :
    (∀ requests, (instanceUuid, requests) ∈ groups → ∃ alone world,
      (replayEngine.forInstance instanceUuid).runInstance instanceUuid fuel requests
        { cache := (replayEngine.cacheFactory instanceUuid).2, sink, memo := ∅ } =
          .ok alone world ∧ (result.ofInstance instanceUuid).Same alone) ∧
    (instanceUuid ∉ groups.map Prod.fst → result.ofInstance instanceUuid = {}) := by
  induction groups generalizing shared result with
  | nil =>
    cases h
    exact ⟨fun _ hmem ↦ (by cases hmem), fun _ ↦ rfl⟩
  | cons group groups ih =>
    obtain ⟨first, firstRequests⟩ := group
    obtain ⟨hnew, hnodup⟩ := List.nodup_cons.mp hnodup
    obtain ⟨hdFirst, hd⟩ := List.forall_mem_cons.mp hd
    obtain ⟨hinstanceFirst, hinstance⟩ := List.forall_mem_cons.mp hinstance
    unfold BatchAwareReplayEngine.runGroups at h
    obtain ⟨own, shared₁, hown, h⟩ := bind_ok.mp h
    obtain ⟨rest, shared₂, hrest, h⟩ := bind_ok.mp h
    cases h
    obtain ⟨world, hrun, rfl⟩ := zoom_ok.mp hown
    have hon : own.OnInstance first := run_instance_on hdFirst hinstanceFirst hrun
    obtain ⟨hmemo₁, alone, world', halone, hsame⟩ :=
      run_instance_alone hbackend hmemo hrun sink (ShapeMemo.filled_by_empty _)
    have hmemo₂ : (Shared.mk world.sink world.memo).memo.FilledBy replayEngine.latencyBackend :=
      hmemo₁
    obtain ⟨ihMem, ihAbsent⟩ := ih hnodup hd hinstance hmemo₂ hrest
    rcases eq_or_ne first instanceUuid with rfl | hne
    · refine ⟨fun requests hmem ↦ ?_, fun habsent ↦ absurd List.mem_cons_self habsent⟩
      rcases List.mem_cons.mp hmem with heq | hmem
      · cases heq
        refine ⟨alone, world', halone, ?_⟩
        rw [InstanceResult.ofInstance_append, hon.own, ihAbsent hnew]
        exact ⟨(List.append_nil _).trans hsame.1, (congrArg _ (List.append_nil _)).trans hsame.2⟩
      · exact absurd (List.mem_map_of_mem hmem) hnew
    · rw [InstanceResult.ofInstance_append, hon.other hne]
      refine ⟨fun requests hmem ↦ ?_, fun habsent ↦ ?_⟩
      · rcases List.mem_cons.mp hmem with heq | hmem
        · cases heq
          exact absurd rfl hne
        · exact ihMem requests hmem
      · rw [List.map_cons, List.mem_cons, not_or] at habsent
        exact ihAbsent habsent.2

/-- The requests of one instance make one group, if there are any. -/
theorem foldl_append_to_group {requests : List SimulationRequest}
    (h : ∀ request ∈ requests, request.instanceUuid = instanceUuid)
    (done : List SimulationRequest) :
    requests.foldl (fun groups request ↦ appendToGroup request groups) [(instanceUuid, done)] =
      [(instanceUuid, done ++ requests)] := by
  induction requests generalizing done with
  | nil => rw [List.foldl_nil, List.append_nil]
  | cons request requests ih =>
    obtain ⟨hfirst, hrest⟩ := List.forall_mem_cons.mp h
    rw [List.foldl_cons, appendToGroup, if_pos hfirst.symm, ih hrest, List.append_assoc]
    rfl

theorem group_by_instance_alone (requests : List SimulationRequest) (instanceUuid : String) :
    groupByInstance (itemsOf SimulationRequest.instanceUuid requests instanceUuid) =
      match itemsOf SimulationRequest.instanceUuid (SimulationRequest.sorted requests)
        instanceUuid with
      | [] => []
      | request :: pending => [(instanceUuid, request :: pending)] := by
  have hinstance : ∀ request ∈ itemsOf SimulationRequest.instanceUuid
      (SimulationRequest.sorted requests) instanceUuid, request.instanceUuid = instanceUuid :=
    fun request hrequest ↦ of_decide_eq_true (List.mem_filter.mp hrequest).2
  rw [groupByInstance, sorted_itemsOf]
  cases hitems : itemsOf SimulationRequest.instanceUuid (SimulationRequest.sorted requests)
    instanceUuid with
  | nil => rfl
  | cons request pending =>
    rw [hitems] at hinstance
    obtain ⟨hfirst, hrest⟩ := List.forall_mem_cons.mp hinstance
    rw [List.foldl_cons, appendToGroup, hfirst]
    exact foldl_append_to_group hrest [request]

/-- A run on the requests of one instance is a replay of that instance. -/
theorem run_groups_of_instance {requests : List SimulationRequest} {sink : K}
    {alone : InstanceResult} {world : World C K}
    (h : (replayEngine.forInstance instanceUuid).runInstance instanceUuid fuel
      (itemsOf SimulationRequest.instanceUuid (SimulationRequest.sorted requests) instanceUuid)
      { cache := (replayEngine.cacheFactory instanceUuid).2, sink, memo := ∅ } = .ok alone world) :
    ∃ shared, replayEngine.runGroups fuel
      (groupByInstance (itemsOf SimulationRequest.instanceUuid requests instanceUuid))
      { sink, memo := ∅ } = .ok alone shared := by
  rw [group_by_instance_alone]
  cases hitems : itemsOf SimulationRequest.instanceUuid (SimulationRequest.sorted requests)
    instanceUuid with
  | nil =>
    rw [hitems] at h
    cases h
    exact ⟨_, rfl⟩
  | cons request pending =>
    rw [hitems] at h
    have hown : onInstance (replayEngine.cacheFactory instanceUuid).2
        ((replayEngine.forInstance instanceUuid).runInstance instanceUuid fuel
          (request :: pending)) { sink, memo := ∅ } =
            .ok alone { sink := world.sink, memo := world.memo } := zoom_ok.mpr ⟨world, h, rfl⟩
    refine ⟨{ sink := world.sink, memo := world.memo }, ?_⟩
    simp only [BatchAwareReplayEngine.runGroups, bind_apply, hown, pure_apply, List.append_nil]

end Runs

section Result

variable {engine : BatchAwareReplayEngine C K} {fuel : ℕ}

/-- What a whole run emits for an instance is what a replay of its requests alone emits. -/
theorem merged_alone (hbackend : engine.latencyBackend.Memoizable)
    {requests : List SimulationRequest}
    (hd : (requests.map SimulationRequest.requestId).Nodup) {sink : K} {merged : InstanceResult}
    {shared : Shared K}
    (h : engine.runGroups fuel (groupByInstance requests) { sink, memo := ∅ } = .ok merged shared)
    (instanceUuid : String) (sink' : K) :
    ∃ alone world, (engine.forInstance instanceUuid).runInstance instanceUuid fuel
      (itemsOf SimulationRequest.instanceUuid (SimulationRequest.sorted requests) instanceUuid)
      { cache := (engine.cacheFactory instanceUuid).2, sink := sink', memo := ∅ } =
        .ok alone world ∧ (merged.ofInstance instanceUuid).Same alone := by
  have hgrouped := group_by_instance_grouped requests
  have hdSorted : ((SimulationRequest.sorted requests).map SimulationRequest.requestId).Nodup :=
    (((SimulationRequest.sorted_perm requests).map _).nodup_iff).mpr hd
  obtain ⟨hown, hnone⟩ := run_groups_alone hbackend hgrouped.nodup
    (fun group hgroup ↦ by
      rw [hgrouped.items group hgroup]
      exact hdSorted.sublist ((itemsOf_sublist _ _ _).map _))
    (fun group hgroup request hrequest ↦ by
      rw [hgrouped.items group hgroup] at hrequest
      exact of_decide_eq_true (List.mem_filter.mp hrequest).2)
    (ShapeMemo.filled_by_empty _) h instanceUuid sink'
  by_cases hmem : instanceUuid ∈ (groupByInstance requests).map Prod.fst
  · obtain ⟨⟨_, group⟩, hgroup, rfl⟩ := List.mem_map.mp hmem
    have hitems := hgrouped.items _ hgroup
    dsimp only at hitems
    rw [← hitems]
    exact hown group hgroup
  · have hitems : itemsOf SimulationRequest.instanceUuid (SimulationRequest.sorted requests)
        instanceUuid = [] := by
      refine List.filter_eq_nil_iff.mpr fun request hrequest heq ↦ hmem ?_
      rw [← of_decide_eq_true heq]
      exact hgrouped.keys request hrequest
    rw [hitems, hnone hmem]
    exact ⟨{}, _, rfl, rfl, rfl⟩

end Result

/-- The order of the requests does not show in a run, and an instance does not see the others. -/
theorem instances_isolated (engine : BatchAwareReplayEngine C K)
    (hbackend : ServingBackend engine.latencyBackend) (requests : List SimulationRequest)
    (hd : (requests.map SimulationRequest.requestId).Nodup) :
    (∀ requests', requests.Perm requests' → ∀ fuel shared,
      engine.run fuel requests shared = engine.run fuel requests' shared) ∧
    ∀ fuel sink result shared, engine.run fuel requests { sink, memo := ∅ } = .ok result shared →
      ∀ instanceUuid sink', ∃ alone shared',
        engine.run fuel (itemsOf SimulationRequest.instanceUuid requests instanceUuid)
          { sink := sink', memo := ∅ } = .ok alone shared' ∧
        itemsOf BatchAwareRequestMetrics.instanceUuid result.requestMetrics instanceUuid =
          alone.requestMetrics ∧
        (itemsOf IterationMetrics.instanceUuid result.iterationMetrics instanceUuid).map
            IterationMetrics.forgetMemo =
          alone.iterationMetrics.map IterationMetrics.forgetMemo := by
  constructor
  · intro requests' hperm fuel shared
    unfold BatchAwareReplayEngine.run groupByInstance
    rw [sorted_eq_of_perm hperm hd]
  · intro fuel sink result shared h instanceUuid sink'
    unfold BatchAwareReplayEngine.run at h
    obtain ⟨merged, shared₁, hgroups, h⟩ := bind_ok.mp h
    obtain ⟨_, _, hget, h⟩ := bind_ok.mp h
    cases hget
    cases h
    obtain ⟨alone, world, halone, hsame⟩ := merged_alone hbackend.memoizable hd hgroups instanceUuid sink'
    obtain ⟨shared', hrun⟩ := run_groups_of_instance halone
    refine ⟨{
      requestMetrics := alone.requestMetrics.insertionSort fun a b ↦ a.sortKey ≤ b.sortKey
      iterationMetrics := alone.iterationMetrics.insertionSort fun a b ↦ a.sortKey ≤ b.sortKey
      cacheEventStats := engine.sink.snapshotStats shared'.sink
      cacheEvents := engine.sink.snapshotEvents shared'.sink }, shared', ?_, ?_, ?_⟩
    · simp only [BatchAwareReplayEngine.run, bind_apply, hrun, get_apply]
      rfl
    · have hstable := StableSort.filter_sort_key BatchAwareRequestMetrics.sortKey
        (fun metric ↦ metric.instanceUuid = instanceUuid) merged.requestMetrics
      exact hstable.trans (congrArg (List.insertionSort _) hsame.1)
    · have hstable := StableSort.filter_sort_key IterationMetrics.sortKey
        (fun metric ↦ metric.instanceUuid = instanceUuid) merged.iterationMetrics
      rw [sorted_forget_memo, ← hsame.2, ← sorted_forget_memo]
      exact congrArg (List.map IterationMetrics.forgetMemo) hstable

/-- A pair of requests on one instance, and a third request on another. -/
def Sample.spread : List SimulationRequest :=
  { request "c" 0 [block "x" 0 2] with instanceUuid := "other" } :: pair

theorem instances_isolated_pair :
    (Sample.fleet Sample.config .progressive).run 13 Sample.spread { sink := (), memo := ∅ } =
      (Sample.fleet Sample.config .progressive).run 13 Sample.spread.reverse
        { sink := (), memo := ∅ } ∧
    ∃ result shared alone shared',
      (Sample.fleet Sample.config .progressive).run 13 Sample.spread { sink := (), memo := ∅ } =
        .ok result shared ∧
      (Sample.fleet Sample.config .progressive).run 13 Sample.pair { sink := (), memo := ∅ } =
        .ok alone shared' ∧
      itemsOf BatchAwareRequestMetrics.instanceUuid result.requestMetrics "instance" =
        alone.requestMetrics := by
  have hisolated := instances_isolated (Sample.fleet Sample.config .progressive)
    (.prefill (.formula Sample.formula)) Sample.spread (by decide)
  have hreturns : (outcome ((Sample.fleet Sample.config .progressive).run 13 Sample.spread
      { sink := (), memo := ∅ })).isOk := by decide +kernel
  obtain ⟨result, hresult⟩ := except_ok_of_is_ok hreturns
  obtain ⟨shared, hrun⟩ := outcome_eq_ok.mp hresult
  obtain ⟨alone, shared', halone, hmetrics, -⟩ := hisolated.2 13 () result shared hrun "instance" ()
  exact ⟨hisolated.1 _ (List.reverse_perm _).symm 13 _, result, shared, alone, shared', hrun,
    halone, hmetrics⟩

end InferTwin
