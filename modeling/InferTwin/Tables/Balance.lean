import InferTwin.Tables.Registered

namespace InferTwin

open Effect

variable {C K : Type} {engine : Engine C K}

/-- The request objects of a replay are numbered from 0 on, and the table of objects leads
from an id to an object of that id. -/
structure Locals.Numbered (locals : Locals) (count : ℕ) : Prop where
  nodup : locals.active.Nodup
  active_lt : ∀ ref ∈ locals.active, ref < count
  keys : ∀ id ref, locals.statesById.lookup id = some ref →
    ref < count ∧ (locals.heap ref).requestId = id

/-- Registered requests, with books that are in balance: every request of `all` is accounted
for by its metric, as an active one, or as one to come, and what the iterations have made
visible is what the requests say. -/
structure Locals.Balanced (locals : Locals) (requestMetrics : List BatchAwareRequestMetrics)
    (iterationMetrics : List IterationMetrics) (pending all : List SimulationRequest) :
    Prop where
  registered : locals.Registered
  tags : (requestMetrics.map BatchAwareRequestMetrics.tag ++
    (locals.active.map (fun ref ↦ (locals.heap ref).tag) ++
      pending.map SimulationRequest.tag)).Perm (all.map SimulationRequest.tag)
  visible : (requestMetrics.map BatchAwareRequestMetrics.visible).sum +
    locals.heap.visible locals.active = (iterationMetrics.map IterationMetrics.visible).sum

section Parts

variable {locals locals' : Locals} {done : List ℕ} {metrics : List BatchAwareRequestMetrics}

theorem Locals.Parts.numbered (h : locals.Parts locals' done metrics) {count : ℕ}
    (hnumbered : locals.Numbered count) : locals'.Numbered count where
  nodup := (h.active_perm.nodup_iff.mpr hnumbered.nodup).of_append_right
  active_lt ref href := hnumbered.active_lt ref (h.active_subset href)
  keys id ref hlookup := by
    rw [h.states_eq] at hlookup
    rw [h.id_eq]
    exact hnumbered.keys id ref hlookup

/-- Requests leave with their metrics; `gained` is what has become visible meanwhile. -/
theorem Locals.Parts.balanced (h : locals.Parts locals' done metrics)
    {requestMetrics : List BatchAwareRequestMetrics}
    {iterationMetrics : List IterationMetrics} (gained : List IterationMetrics)
    {pending all : List SimulationRequest}
    (hbalanced : locals.Balanced requestMetrics iterationMetrics pending all)
    (hgained : (gained.map IterationMetrics.visible).sum + locals.heap.visible locals.active =
      locals'.heap.visible locals.active) :
    locals'.Balanced (requestMetrics ++ metrics) (iterationMetrics ++ gained) pending all where
  registered := h.registered hbalanced.registered
  tags := by
    refine List.Perm.trans ?_ hbalanced.tags
    rw [List.map_append, List.append_assoc, h.tags_eq hbalanced.registered]
    refine List.Perm.append_left _ ?_
    rw [← List.append_assoc]
    refine List.Perm.append_right _ ?_
    have hsame : (locals'.active.map fun ref ↦ (locals'.heap ref).tag) =
        locals'.active.map fun ref ↦ (locals.heap ref).tag :=
      List.map_congr_left fun ref _ ↦ h.tag_eq ref
    rw [hsame, ← List.map_append]
    exact h.active_perm.map _
  visible := by
    have hsplit : locals'.heap.visible locals.active =
        (metrics.map BatchAwareRequestMetrics.visible).sum +
          locals'.heap.visible locals'.active := by
      rw [h.visible_eq, Heap.visible, Heap.visible, ← List.sum_append, ← List.map_append]
      exact ((h.active_perm.map _).sum_eq).symm
    rw [List.map_append, List.map_append, List.sum_append, List.sum_append, add_assoc, ← hsplit,
      ← hgained, ← hbalanced.visible, add_left_comm, add_comm]

end Parts

section Arrival

variable {nowMs : ℚ} {request : SimulationRequest} {count : ℕ} {locals locals' : Locals}

/-- What the admission of an arrived request adds. -/
structure Locals.Admits (locals locals' : Locals) (request : SimulationRequest) (count : ℕ) :
    Prop where
  state : ∃ state : RequestState, state.tag = request.tag ∧ state.status = .waiting ∧
    state.visible = 0 ∧ locals'.heap = Function.update locals.heap count state
  running_eq : locals'.running = locals.running
  waiting_eq : locals'.waiting = locals.waiting ++ [count]
  states_eq : locals'.statesById = locals.statesById.insert request.requestId count
  requests_eq : locals'.requestsById = locals.requestsById.insert request.requestId request
  metrics_eq : locals'.requestMetrics = locals.requestMetrics
  iterations_eq : locals'.iterationMetrics = locals.iterationMetrics
  lookups_eq : locals'.lookupById = locals.lookupById
  prospect_eq : (locals'.heap count).prospect = {
    promptBlocks := request.promptBlocks
    promptTokens := request.promptTokens
    cacheLookupDone := false
    missTokens := none
    numComputedTokens := 0 }

theorem admit_arrival_admits
    (h : engine.admitArrival nowMs request count locals = .ok locals') :
    locals.Admits locals' request count := by
  unfold Engine.admitArrival at h
  obtain ⟨state, hstate, h⟩ := except_bind_ok.mp h
  obtain ⟨state', hwait, h⟩ := except_bind_ok.mp h
  cases h
  unfold stateFromRequest at hstate
  split_ifs at hstate
  cases hstate
  have hsame : state'.tag = request.tag ∧ state'.status = .waiting ∧ state'.visible = 0 ∧
      state'.prospect = {
        promptBlocks := request.promptBlocks
        promptTokens := request.promptTokens
        cacheLookupDone := false
        missTokens := none
        numComputedTokens := 0 } := by
    unfold recordInitialComputeWait RequestState.recordComputeWait at hwait
    cases hmode : engine.timelineMode with
    | legacy =>
      simp only [hmode] at hwait
      cases hwait
      exact ⟨rfl, rfl, rfl, rfl⟩
    | progressive =>
      simp only [hmode] at hwait
      split_ifs at hwait
      cases hwait
      exact ⟨rfl, rfl, rfl, rfl⟩
  obtain ⟨htag, hstatus, hvisible, hprospect⟩ := hsame
  have hid : state'.requestId = request.requestId := congrArg Tag.requestId htag
  refine ⟨⟨state', htag, hstatus, hvisible, rfl⟩, rfl, rfl, ?_, ?_, rfl, rfl, rfl, ?_⟩
  · dsimp only
    rw [hid]
  · dsimp only
    rw [hid]
  · dsimp only
    rw [Function.update_self]
    exact hprospect

namespace Locals.Admits

theorem active_eq (h : locals.Admits locals' request count) :
    locals'.active = locals.active ++ [count] := by
  rw [Locals.active, h.running_eq, h.waiting_eq, Locals.active, List.append_assoc]

/-- The objects of earlier arrivals are as before. -/
theorem heap_eq (h : locals.Admits locals' request count) {ref : ℕ} (href : ref < count) :
    locals'.heap ref = locals.heap ref := by
  obtain ⟨state, -, -, -, hheap⟩ := h.state
  rw [hheap, Function.update_of_ne href.ne]

theorem numbered (h : locals.Admits locals' request count) (hnumbered : locals.Numbered count) :
    locals'.Numbered (count + 1) where
  nodup := by
    rw [h.active_eq]
    refine hnumbered.nodup.append (List.nodup_singleton count) fun ref href hcount ↦ ?_
    have hlt := hnumbered.active_lt ref href
    rw [List.mem_singleton.mp hcount] at hlt
    exact lt_irrefl _ hlt
  active_lt ref href := by
    rw [h.active_eq] at href
    rcases List.mem_append.mp href with href | href
    · exact Nat.lt_succ_of_lt (hnumbered.active_lt ref href)
    · rw [List.mem_singleton.mp href]
      exact Nat.lt_succ_self count
  keys id ref hlookup := by
    rw [h.states_eq] at hlookup
    by_cases hid : id = request.requestId
    · subst hid
      rw [Finmap.lookup_insert] at hlookup
      cases hlookup
      obtain ⟨state, htag, -, -, hheap⟩ := h.state
      rw [hheap, Function.update_self]
      exact ⟨Nat.lt_succ_self _, congrArg Tag.requestId htag⟩
    · rw [Finmap.lookup_insert_of_ne _ hid] at hlookup
      obtain ⟨hlt, hkey⟩ := hnumbered.keys id ref hlookup
      rw [h.heap_eq hlt]
      exact ⟨Nat.lt_succ_of_lt hlt, hkey⟩

/-- A request whose id is not that of an active one is registered beside the others. -/
theorem balanced (h : locals.Admits locals' request count) (hnumbered : locals.Numbered count)
    {requestMetrics : List BatchAwareRequestMetrics} {iterationMetrics : List IterationMetrics}
    {pending all : List SimulationRequest}
    (hbalanced : locals.Balanced requestMetrics iterationMetrics (request :: pending) all)
    (hnew : ∀ ref ∈ locals.active, (locals.heap ref).requestId ≠ request.requestId) :
    locals'.Balanced requestMetrics iterationMetrics pending all := by
  obtain ⟨state, htag, hstatus, hvisible, hheap⟩ := h.state
  have hid : state.requestId = request.requestId := congrArg Tag.requestId htag
  have hsame : ∀ ref ∈ locals.active, locals'.heap ref = locals.heap ref :=
    fun ref href ↦ h.heap_eq (hnumbered.active_lt ref href)
  have hself : locals'.heap count = state := by rw [hheap, Function.update_self]
  refine ⟨⟨(h.numbered hnumbered).nodup, ?_, ?_, ?_⟩, ?_, ?_⟩
  · rw [h.active_eq, h.states_eq]
    refine List.forall_mem_append.mpr ⟨fun ref href ↦ ?_, fun ref href ↦ ?_⟩
    · rw [hsame ref href, Finmap.lookup_insert_of_ne _ (hnew ref href)]
      exact hbalanced.registered.states ref href
    · rw [List.mem_singleton.mp href, hself, hid, Finmap.lookup_insert]
  · rw [h.active_eq, h.requests_eq]
    refine List.forall_mem_append.mpr ⟨fun ref href ↦ ?_, fun ref href ↦ ?_⟩
    · rw [hsame ref href, Finmap.lookup_insert_of_ne _ (hnew ref href)]
      exact hbalanced.registered.requests ref href
    · rw [List.mem_singleton.mp href, hself, hid, Finmap.lookup_insert]
      exact ⟨request, rfl, htag.symm⟩
  · rw [h.active_eq]
    refine List.forall_mem_append.mpr ⟨fun ref href ↦ ?_, ?_⟩
    · rw [hsame ref href]
      exact hbalanced.registered.unfinished ref href
    · simp [hself, hstatus]
  · refine List.Perm.trans (List.Perm.append_left _ ?_) hbalanced.tags
    have hactive : (locals.active.map fun ref ↦ (locals'.heap ref).tag) =
        locals.active.map fun ref ↦ (locals.heap ref).tag :=
      List.map_congr_left fun ref href ↦ congrArg RequestState.tag (hsame ref href)
    rw [h.active_eq, List.map_append, hactive, List.append_assoc, List.map_cons, List.map_nil,
      hself, htag]
    exact .refl _
  · have hactive : locals'.heap.visible locals'.active = locals.heap.visible locals.active := by
      rw [h.active_eq, Heap.visible, Heap.visible, List.map_append, List.sum_append]
      rw [List.map_congr_left fun ref href ↦ congrArg RequestState.visible (hsame ref href)]
      simp [hself, hvisible]
    rw [hactive]
    exact hbalanced.visible

end Locals.Admits

end Arrival

end InferTwin
