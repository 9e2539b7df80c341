import InferTwin.Refinement.StreamReplay
import InferTwin.Tables.ListRun

namespace InferTwin

open Effect

variable {C K σ : Type} {engine : Engine C K} {source : RequestSource σ}

theorem Dict.lookup_of_eraseAll {ν : Type} {dict : Dict String ν} {keys : List String}
    {key : String} {value : ν} (h : (dict.eraseAll keys).lookup key = some value) :
    dict.lookup key = some value ∧ key ∉ keys := by
  have hnot : key ∉ keys := by
    intro hmem
    have hkey : key ∈ Finmap.keys (dict.eraseAll keys) :=
      Finmap.mem_keys.mpr (Dict.mem_iff_lookup.mpr ⟨value, h⟩)
    rw [Dict.keys_eraseAll, Finset.mem_sdiff, List.mem_toFinset] at hkey
    exact hkey.2 hmem
  rw [Dict.lookup_eraseAll hnot] at h
  exact ⟨h, hnot⟩

/-- The source, the numbering and the books of the streaming loop between two phases. -/
structure StreamState.Balanced (source : RequestSource σ) (state : StreamState σ)
    (pending all : List SimulationRequest) : Prop where
  yields : source.Yields state.source pending
  numbered : state.locals.Numbered state.arrivalSeq
  balanced : state.locals.Balanced state.emittedRequests state.emittedIterations pending all
  requests_eq : state.locals.requestMetrics = []
  iterations_eq : state.locals.iterationMetrics = []

section Arrivals

variable {instanceUuid : String} {nowMs : ℚ} {turns count count' : ℕ} {s s' : σ}
  {locals locals' : Locals} {pending : List SimulationRequest}

/-- What the arrivals do: the guard lets nobody in under the id of an active request. -/
theorem move_arrivals_from_source_balanced (hyields : source.Yields s pending)
    (hnumbered : locals.Numbered count)
    {requestMetrics : List BatchAwareRequestMetrics} {iterationMetrics : List IterationMetrics}
    {all : List SimulationRequest}
    (hbalanced : locals.Balanced requestMetrics iterationMetrics pending all)
    (h : engine.moveArrivalsFromSource source instanceUuid nowMs turns s count locals =
      .ok (s', count', locals')) :
    ∃ pending', source.Yields s' pending' ∧ locals'.Numbered count' ∧
      locals'.Balanced requestMetrics iterationMetrics pending' all ∧
      locals'.requestMetrics = locals.requestMetrics ∧
      locals'.iterationMetrics = locals.iterationMetrics := by
  induction turns generalizing s count locals pending with
  | zero => cases h
  | succ turns ih =>
    unfold Engine.moveArrivalsFromSource at h
    obtain ⟨⟨next, s₁⟩, hpeek, h⟩ := except_bind_ok.mp h
    obtain ⟨s₂, hpeek', hyields₁⟩ := hyields.peek_in
    rw [hpeek'] at hpeek
    cases hpeek
    cases pending with
    | nil =>
      cases h
      exact ⟨[], hyields₁, hnumbered, hbalanced, rfl, rfl⟩
    | cons request pending =>
      simp only [List.head?_cons] at h
      split_ifs at h
      · cases h
        exact ⟨_, hyields₁, hnumbered, hbalanced, rfl, rfl⟩
      obtain ⟨⟨popped, s₃⟩, hpop, h⟩ := except_bind_ok.mp h
      obtain ⟨s₄, hpop', hyields₂⟩ := hyields₁.pop_in
      rw [hpop'] at hpop
      cases hpop
      obtain ⟨_, -, h⟩ := except_bind_ok.mp h
      dsimp only at h
      split_ifs at h with hduplicate
      · cases h
      obtain ⟨locals₁, hadmit, h⟩ := except_bind_ok.mp h
      have hadmits := admit_arrival_admits hadmit
      have hnew : ∀ ref ∈ locals.active, (locals.heap ref).requestId ≠ request.requestId := by
        intro ref href hid
        refine hduplicate (Dict.mem_iff_lookup.mpr ⟨ref, ?_⟩)
        rw [← hid]
        exact hbalanced.registered.states ref href
      obtain ⟨pending', hyields', hnumbered', hbalanced', hmetrics, hiterations⟩ := ih hyields₂
        (hadmits.numbered hnumbered) (hadmits.balanced hnumbered hbalanced hnew) h
      exact ⟨pending', hyields', hnumbered', hbalanced', hmetrics.trans hadmits.metrics_eq,
        hiterations.trans hadmits.iterations_eq⟩

end Arrivals

/-- Emitting the metrics of those who have left forgets nobody else. -/
theorem StreamState.Balanced.emit {state : StreamState σ} {pending all : List SimulationRequest}
    (h : state.Balanced source pending all) {locals' : Locals} {done : List ℕ}
    {metrics : List BatchAwareRequestMetrics} (iterations : List IterationMetrics)
    (hparts : state.locals.Parts locals' done metrics)
    (hiterations : locals'.iterationMetrics = state.locals.iterationMetrics ++ iterations)
    (hnumbered : locals'.Numbered state.arrivalSeq)
    (hbalanced : locals'.Balanced (state.emittedRequests ++ metrics)
      (state.emittedIterations ++ iterations) pending all) :
    (state.emit locals').Balanced source pending all := by
  have hmetrics : locals'.requestMetrics = metrics := by
    rw [hparts.metrics_eq, h.requests_eq, List.nil_append]
  rw [h.iterations_eq, List.nil_append] at hiterations
  have hclosed : locals'.closedIds = done.map fun ref ↦ (state.locals.heap ref).requestId := by
    have htags := congrArg (List.map Tag.requestId) (hparts.tags_eq h.balanced.registered)
    rw [List.map_map, List.map_map] at htags
    rw [Locals.closedIds, hmetrics]
    exact htags
  -- whoever is still active has an id of his own
  have hapart : ∀ ref ∈ locals'.active, (locals'.heap ref).requestId ∉ locals'.closedIds := by
    intro ref href hmem
    rw [hclosed] at hmem
    obtain ⟨other, hother, hid⟩ := List.mem_map.mp hmem
    have hregistered := h.balanced.registered
    have hstates := hregistered.states other
      (hparts.active_perm.subset (List.mem_append_left _ hother))
    have hstates' := hregistered.states ref (hparts.active_subset href)
    rw [hid, hparts.id_eq, hstates'] at hstates
    cases hstates
    have hnodup := hparts.active_perm.nodup_iff.mpr hregistered.nodup
    exact hnodup.disjoint hother href
  have hemit := emit_request_metrics_eq locals'
  refine ⟨h.yields, ?_, ?_, ?_, rfl⟩
  · show Locals.Numbered { emitRequestMetrics locals' with iterationMetrics := [] } _
    rw [hemit]
    exact ⟨hnumbered.nodup, hnumbered.active_lt, fun id ref hlookup ↦
      hnumbered.keys id ref (Dict.lookup_of_eraseAll hlookup).1⟩
  · show Locals.Balanced { emitRequestMetrics locals' with iterationMetrics := [] }
      (state.emittedRequests ++ locals'.requestMetrics)
      (state.emittedIterations ++ locals'.iterationMetrics) _ _
    rw [hemit, hmetrics, hiterations]
    refine ⟨⟨hbalanced.registered.nodup, ?_, ?_, hbalanced.registered.unfinished⟩,
      hbalanced.tags, hbalanced.visible⟩
    · intro ref href
      exact (Dict.lookup_eraseAll (hapart ref href)).trans (hbalanced.registered.states ref href)
    · intro ref href
      obtain ⟨request, hlookup, htag⟩ := hbalanced.registered.requests ref href
      exact ⟨request, (Dict.lookup_eraseAll (hapart ref href)).trans hlookup, htag⟩
  · show (emitRequestMetrics locals').requestMetrics = []
    rw [hemit]

section Runs

variable {instanceUuid : String} {turns fuel : ℕ} {state final : StreamState σ}
  {flow : Flow (StreamState σ)} {world world' : World C K}
  {pending all : List SimulationRequest}

/-- The books of the streaming loop after a pass; after the last one nobody is left. -/
inductive StreamState.BalancedFlow (source : RequestSource σ) (all : List SimulationRequest) :
    Flow (StreamState σ) → Prop
  | proceed {next : StreamState σ} {pending} (h : next.Balanced source pending all) :
      BalancedFlow source all (.proceed next)
  | stop {final : StreamState σ} (h : final.Balanced source [] all)
      (hactive : final.locals.active = []) : BalancedFlow source all (.stop final)

theorem next_start_yields {s s' : σ} {start : Option ℚ} (hyields : source.Yields s pending)
    (h : Engine.nextStart source instanceUuid s = .ok (start, s')) :
    source.Yields s' pending ∧ (start = none → pending = []) := by
  unfold Engine.nextStart at h
  obtain ⟨s₁, hpeek, hyields'⟩ := hyields.peek_in
  rw [hpeek, except_ok_bind] at h
  cases pending with
  | nil =>
    cases h
    exact ⟨hyields', fun _ ↦ rfl⟩
  | cons request pending =>
    simp only [List.head?_cons, except_bind_ok] at h
    obtain ⟨_, -, h⟩ := h
    cases h
    exact ⟨hyields', by simp⟩

theorem stream_arrived_balanced (hbalanced : state.Balanced source pending all)
    (h : engine.streamArrived source instanceUuid state world = .ok flow world') :
    StreamState.BalancedFlow source all flow := by
  unfold Engine.streamArrived at h
  split_ifs at h with hidle
  · obtain ⟨⟨start, s'⟩, _, hchecked, h⟩ := bind_ok.mp h
    obtain ⟨hstart, rfl⟩ := check_ok.mp hchecked
    obtain ⟨hyields, hnone⟩ := next_start_yields hbalanced.yields hstart
    cases start with
    | none =>
      cases h
      obtain rfl := hnone rfl
      refine .stop { hbalanced with yields := hyields } ?_
      dsimp only
      rw [Locals.active, hidle.1, hidle.2, List.append_nil]
    | some startTimeMs =>
      cases h
      exact .proceed { hbalanced with yields := hyields }
  · obtain ⟨⟨plan, locals'⟩, world₁, hfrontier, h⟩ := bind_ok.mp h
    obtain ⟨metrics, done, hparts, hiterations, hnumbered, hbooks⟩ :=
      frontier_balanced hbalanced.numbered hbalanced.balanced hfrontier
    have hemitted := hbalanced.emit [] hparts (by rw [hiterations, List.append_nil])
      hnumbered (by rwa [List.append_nil])
    dsimp only at h
    obtain ⟨_, world₂, -, h⟩ := bind_ok.mp h
    split_ifs at h with hempty
    · obtain ⟨⟨start, s'⟩, _, hchecked, h⟩ := bind_ok.mp h
      obtain ⟨hstart, rfl⟩ := check_ok.mp hchecked
      obtain ⟨hyields, hnone⟩ := next_start_yields hemitted.yields hstart
      cases start with
      | none =>
        cases h
        obtain rfl := hnone rfl
        refine .stop { hemitted with yields := hyields } ?_
        dsimp only
        rw [Locals.active, hempty.1, hempty.2, List.append_nil]
      | some startTimeMs =>
        cases h
        exact .proceed { hemitted with yields := hyields }
    · obtain ⟨⟨finishMs, locals''⟩, world₃, hiteration, h⟩ := bind_ok.mp h
      cases h
      obtain ⟨metrics', done', metric, hparts', hiterations', hnumbered', hbooks'⟩ :=
        run_iteration_balanced hemitted.numbered hemitted.balanced hiteration
      have hagain := hemitted.emit [metric] hparts' hiterations' hnumbered' hbooks'
      exact .proceed { hagain with }

theorem stream_loop_balanced (hbalanced : state.Balanced source pending all)
    (h : engine.streamLoop source instanceUuid turns fuel state world = .ok final world') :
    final.Balanced source [] all ∧ final.locals.active = [] := by
  induction fuel generalizing state world pending with
  | zero => cases h
  | succ fuel ih =>
    unfold Engine.streamLoop at h
    obtain ⟨⟨next, s'⟩, _, hchecked, h⟩ := bind_ok.mp h
    obtain ⟨hpeek, rfl⟩ := check_ok.mp hchecked
    obtain ⟨s₁, hpeek', hyields⟩ := hbalanced.yields.peek_in
    rw [hpeek'] at hpeek
    cases hpeek
    dsimp only at h
    split_ifs at h with hdone
    · cases h
      obtain rfl : pending = [] := List.head?_eq_none_iff.mp hdone.1
      refine ⟨{ hbalanced with yields := hyields }, ?_⟩
      dsimp only
      rw [Locals.active, hdone.2.1, hdone.2.2, List.append_nil]
    obtain ⟨flow, world₁, hbody, h⟩ := bind_ok.mp h
    have hflow : StreamState.BalancedFlow source all flow := by
      unfold Engine.streamBody at hbody
      obtain ⟨⟨s₂, arrivalSeq, locals⟩, _, hchecked, harrived⟩ := bind_ok.mp hbody
      obtain ⟨harrivals, rfl⟩ := check_ok.mp hchecked
      obtain ⟨pending', hyields', hnumbered, hbooks, hmetrics, hiterations⟩ :=
        move_arrivals_from_source_balanced hyields hbalanced.numbered hbalanced.balanced harrivals
      have hmoved : ({ state with
          source := s₂, arrivalSeq, locals
          maxActiveRequests := max state.maxActiveRequests locals.statesById.len }
            : StreamState σ).Balanced source pending' all :=
        ⟨hyields', hnumbered, hbooks, hmetrics.trans hbalanced.requests_eq,
          hiterations.trans hbalanced.iterations_eq⟩
      exact stream_arrived_balanced hmoved harrived
    cases hflow with
    | proceed hnext => exact ih hnext h
    | stop hfinal hactive =>
      cases h
      exact ⟨hfinal, hactive⟩

end Runs

end InferTwin
