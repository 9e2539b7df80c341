import InferTwin.Tables.Frontier

namespace InferTwin

open Effect

variable {C K : Type}

/-- Nothing is left to compute for the request and nothing to load: the frontier finishes it
without an iteration. -/
def RequestState.Spent (state : RequestState) : Prop :=
  state.remainingPrefillTokens = .ok 0 ∧ state.hasPendingKvLoad = .ok false

instance (state : RequestState) : Decidable state.Spent := inferInstanceAs (Decidable (_ ∧ _))

theorem RequestState.Spent.looked_up {state : RequestState} (h : state.Spent) :
    state.LookedUp := by
  obtain ⟨_, hrequire, -⟩ := except_bind_ok.mp h.1
  exact RequestState.require_ok_iff.mp hrequire

theorem RequestState.Spent.remaining_eq {state : RequestState} (h : state.Spent) :
    state.remaining = 0 := by
  have hremaining := h.1
  rw [h.looked_up.remaining_eq] at hremaining
  exact Except.ok.inj hremaining

/-- The object that the table of objects has under a request's id. -/
def Locals.RegisteredAs (locals : Locals) (ref : ℕ) : Prop :=
  locals.statesById.lookup (locals.heap ref).requestId = some ref

instance (locals : Locals) (ref : ℕ) : Decidable (locals.RegisteredAs ref) :=
  inferInstanceAs (Decidable (_ = _))

theorem Locals.registered_as_congr {locals locals' : Locals} {ref : ℕ}
    (hstates : locals'.statesById = locals.statesById)
    (hid : (locals'.heap ref).requestId = (locals.heap ref).requestId) :
    locals'.RegisteredAs ref ↔ locals.RegisteredAs ref := by
  unfold RegisteredAs
  rw [hstates, hid]

/-- The plan with one more waiting request, none where the scan stops in front of it. -/
def FrontierPlan.counted (config : SchedulerConfig) (ref : ℕ) (state : RequestState)
    (frontier : FrontierPlan) : Except ReplayError (Option FrontierPlan) := do
  if (← state.remainingPrefillTokens) = 0 then return some (frontier.count ref 0)
  else if frontier.tokenBudget = 0 then return none
  else
    let plannedTokens ← plannedPrefillTokens config state frontier.tokenBudget
    return if plannedTokens = 0 then none else some (frontier.count ref plannedTokens)

namespace Engine

variable (engine : Engine C K)

/-- A request as the frontier finds it when its turn comes: looked up, if it was not before. -/
def turn (nowMs : ℚ) (locals : Locals) (ref : ℕ) : Replay C K RequestState := do
  let request ← check (locals.requestsById.getItem (locals.heap ref).requestId)
  if (locals.heap ref).cacheLookupDone then return locals.heap ref
  else
    let (state, _) ← engine.lookupRequest nowMs (locals.heap ref) request
    return state

/-- Whoever the scan of the waiting queue would come to with nothing left to compute or to load
has finished before or is registered under its id. -/
def waitingRegistered (nowMs : ℚ) (locals : Locals) :
    List ℕ → FrontierPlan → World C K → Bool
  | [], _, _ => true
  | ref :: refs, frontier, world =>
    if frontier.plannedSlices ≥ engine.config.maxNumSeqs then true
    else match engine.turn nowMs locals ref world with
      | .error _ _ => true
      | .ok state world =>
        if state.Spent then
          decide ((locals.heap ref).status = .finished ∨ locals.RegisteredAs ref) &&
            waitingRegistered nowMs locals refs frontier world
        else match frontier.counted engine.config ref state with
          | .ok (some frontier) => waitingRegistered nowMs locals refs frontier world
          | _ => true

/-- The same of a whole preparation of a batch, running requests first. -/
def frontierRegistered (nowMs : ℚ) (locals : Locals) (world : World C K) : Bool :=
  match engine.prepareRunning nowMs locals.running locals world with
  | .error _ _ => true
  | .ok looked world =>
    looked.running.all (fun ref ↦ (looked.heap ref).Spent →
        (looked.heap ref).status = .finished ∨ looked.RegisteredAs ref) &&
      match engine.planRunning looked.heap
          (looked.running.filter fun ref ↦
            ¬((looked.heap ref).status = .finished ∨ (looked.heap ref).Spent))
          { tokenBudget := engine.config.maxNumBatchedTokens } with
      | .ok (false, frontier) =>
        engine.waitingRegistered nowMs looked looked.waiting frontier world
      | _ => true

end Engine

variable {engine : Engine C K} {nowMs : ℚ}

section Turns

variable {ref : ℕ} {request : SimulationRequest} {locals locals' : Locals}
  {world world' : World C K}

theorem ensure_lookup_heap
    (h : engine.ensureLookup nowMs ref request locals world = .ok locals' world') :
    ∀ other ≠ ref, locals'.heap other = locals.heap other := by
  unfold Engine.ensureLookup at h
  split_ifs at h with hdone
  · cases h
    exact fun _ _ ↦ rfl
  · obtain ⟨⟨state, metrics⟩, world₁, hlookup, h⟩ := bind_ok.mp h
    cases h
    exact fun other hother ↦ Function.update_of_ne hother _ _

/-- The lookup at a turn finds the request in the state that the turn says. -/
theorem ensure_lookup_turn
    (hrequest : locals.requestsById.lookup (locals.heap ref).requestId = some request)
    (h : engine.ensureLookup nowMs ref request locals world = .ok locals' world') :
    engine.turn nowMs locals ref world = .ok (locals'.heap ref) world' := by
  unfold Engine.turn
  rw [Dict.getItem_eq_ok hrequest, check_ok_bind]
  unfold Engine.ensureLookup at h
  split_ifs at h ⊢ with hdone
  · cases h
    rfl
  · obtain ⟨⟨state, metrics⟩, world₁, hlookup, h⟩ := bind_ok.mp h
    cases h
    refine bind_ok.mpr ⟨_, _, hlookup, ?_⟩
    dsimp only
    rw [Function.update_self]
    rfl

end Turns

/-- Locals that still hold some requests as they were when the scan was begun. -/
structure Locals.Awaits (locals locals' : Locals) (refs : List ℕ) : Prop where
  requests_eq : locals'.requestsById = locals.requestsById
  heap_eq : ∀ ref ∈ refs, locals'.heap ref = locals.heap ref

namespace Locals.Awaits

variable {locals locals' locals'' : Locals} {ref : ℕ} {refs : List ℕ}

theorem turn_eq (h : locals.Awaits locals' (ref :: refs)) :
    engine.turn nowMs locals ref = engine.turn nowMs locals' ref := by
  unfold Engine.turn
  rw [h.requests_eq, h.heap_eq ref (List.mem_cons_self ..)]

/-- The requests behind the one that is looked up wait on. -/
theorem tail (h : locals.Awaits locals' (ref :: refs)) (hfresh : ref ∉ refs)
    {request : SimulationRequest} {world world' : World C K}
    (hlookup : engine.ensureLookup nowMs ref request locals' world = .ok locals'' world') :
    locals.Awaits locals'' refs where
  requests_eq := (ensure_lookup_steady hlookup).requests_eq.trans h.requests_eq
  heap_eq other hother := by
    have hne : other ≠ ref := fun heq ↦ hfresh (heq ▸ hother)
    rw [ensure_lookup_heap hlookup other hne]
    exact h.heap_eq other (List.mem_cons_of_mem _ hother)

end Locals.Awaits

/-- What finishing a request without an iteration changes. -/
theorem finish_zero_miss_heap {ref : ℕ} {request : SimulationRequest} {lookup : LookupMetrics}
    {locals locals' : Locals}
    (h : Engine.finishZeroMissRequest nowMs ref request lookup locals = .ok locals') :
    locals'.requestsById = locals.requestsById ∧
      (locals'.heap ref).status = .finished ∧
      ∀ other ≠ ref, locals'.heap other = locals.heap other := by
  unfold Engine.finishZeroMissRequest at h
  split_ifs at h with hfinished
  · cases h
    exact ⟨rfl, hfinished, fun _ _ ↦ rfl⟩
  · obtain ⟨metric, -, h⟩ := except_bind_ok.mp h
    cases h
    refine ⟨rfl, ?_, fun other hother ↦ Function.update_of_ne hother _ _⟩
    dsimp only
    rw [Function.update_self]
    rfl

/-- The condition says of a scan of the waiting queue that it finishes registered requests only;
and a scan leaves alone whoever is not in the queue. -/
theorem scan_waiting_registered {index : ℕ} {refs : List ℕ} {frontier frontier' : FrontierPlan}
    {base locals locals' : Locals} {world world' : World C K} (hawaits : base.Awaits locals refs)
    (hnodup : refs.Nodup)
    (h : engine.scanWaiting nowMs index refs frontier locals world =
      .ok (frontier', locals') world') :
    (engine.waitingRegistered nowMs base refs frontier world ↔
      ∀ ref ∈ refs, (locals'.heap ref).status = .finished →
        (base.heap ref).status = .finished ∨ base.RegisteredAs ref) ∧
    ∀ ref ∉ refs, locals'.heap ref = locals.heap ref := by
  induction refs generalizing index frontier locals world with
  | nil =>
    cases h
    exact ⟨iff_of_true rfl (by simp), fun _ _ ↦ rfl⟩
  | cons ref refs ih =>
    obtain ⟨hfresh, hnodup'⟩ := List.nodup_cons.mp hnodup
    unfold Engine.scanWaiting at h
    unfold Engine.waitingRegistered
    by_cases hfull : frontier.plannedSlices ≥ engine.config.maxNumSeqs
    · rw [if_pos hfull] at h ⊢
      cases h
      exact ⟨iff_of_true rfl fun ref href hfinished ↦
        .inl (hawaits.heap_eq ref href ▸ hfinished), fun _ _ ↦ rfl⟩
    rw [if_neg hfull] at h ⊢
    simp only [bind_ok, check_ok] at h
    obtain ⟨request, _, ⟨hrequest, rfl⟩, looked, _, hlookup, remaining, world₁,
      ⟨hremaining, rfl⟩, h⟩ := h
    rw [hawaits.turn_eq, ensure_lookup_turn (Dict.getItem_ok hrequest) hlookup]
    dsimp only
    have htail := hawaits.tail hfresh hlookup
    have hframe := ensure_lookup_heap hlookup
    have hself : (looked.heap ref).status = .finished → (base.heap ref).status = .finished := by
      rw [← hawaits.heap_eq ref (List.mem_cons_self ..)]
      exact ((ensure_lookup_steady hlookup).heap ref).finished_iff.mp
    -- a scan that stops at this request has only looked it up
    have hstop : (∀ other ∈ ref :: refs, (looked.heap other).status = .finished →
        (base.heap other).status = .finished ∨ base.RegisteredAs other) ∧
        ∀ other ∉ ref :: refs, looked.heap other = locals.heap other := by
      refine ⟨List.forall_mem_cons.mpr ⟨fun hfinished ↦ .inl (hself hfinished), ?_⟩, ?_⟩
      · exact fun other hother hfinished ↦ .inl (htail.heap_eq other hother ▸ hfinished)
      · exact fun other hother ↦ hframe other (List.ne_of_not_mem_cons hother)
    -- one that goes on leaves it as it is
    have hpass {index : ℕ} {frontier : FrontierPlan}
        (h : engine.scanWaiting nowMs index refs frontier looked world₁ =
          .ok (frontier', locals') world') :
        (engine.waitingRegistered nowMs base refs frontier world₁ ↔
          ∀ other ∈ ref :: refs, (locals'.heap other).status = .finished →
            (base.heap other).status = .finished ∨ base.RegisteredAs other) ∧
        ∀ other ∉ ref :: refs, locals'.heap other = locals.heap other := by
      obtain ⟨hrefs, hothers⟩ := ih htail hnodup' h
      refine ⟨hrefs.trans ?_, fun other hother ↦ ?_⟩
      · rw [List.forall_mem_cons, hothers ref hfresh]
        exact (and_iff_right fun hfinished ↦ .inl (hself hfinished)).symm
      · obtain ⟨hne, hmem⟩ := List.ne_and_not_mem_of_not_mem_cons hother
        exact (hothers other hmem).trans (hframe other hne)
    by_cases hr : remaining = 0
    · subst hr
      rw [if_pos rfl] at h
      simp only [bind_ok, check_ok] at h
      obtain ⟨pendingKvLoad, _, ⟨hpending, rfl⟩, h⟩ := h
      cases pendingKvLoad with
      | true =>
        have hspent : ¬(looked.heap ref).Spent := fun hspent ↦ by
          rw [hspent.2] at hpending
          cases hpending
        rw [if_neg hspent]
        simp only [FrontierPlan.counted, hremaining, bind, Except.bind, if_true]
        exact hpass h
      | false =>
        rw [if_pos ⟨hremaining, hpending⟩, Bool.and_eq_true, decide_eq_true_iff]
        simp only [Bool.false_eq_true, if_false, bind_ok, check_ok] at h
        obtain ⟨request', _, ⟨-, rfl⟩, lookup, _, ⟨-, rfl⟩, closed, _, ⟨hfinish, rfl⟩, h⟩ := h
        obtain ⟨hrequests, hclosing, hclosed⟩ := finish_zero_miss_heap hfinish
        have hawaits' : base.Awaits closed refs :=
          ⟨hrequests.trans htail.requests_eq, fun other hother ↦
            (hclosed other fun heq ↦ hfresh (heq ▸ hother)).trans (htail.heap_eq other hother)⟩
        obtain ⟨hrefs, hothers⟩ := ih hawaits' hnodup' h
        refine ⟨?_, fun other hother ↦ ?_⟩
        · rw [List.forall_mem_cons, hothers ref hfresh, hrefs]
          exact and_congr_left fun _ ↦ (imp_iff_right hclosing).symm
        · obtain ⟨hne, hmem⟩ := List.ne_and_not_mem_of_not_mem_cons hother
          rw [hothers other hmem, hclosed other hne]
          exact hframe other hne
    have hspent : ¬(looked.heap ref).Spent := fun hspent ↦ by
      rw [hspent.1] at hremaining
      exact hr (Except.ok.inj hremaining).symm
    rw [if_neg hr] at h
    rw [if_neg hspent]
    by_cases hbudget : frontier.tokenBudget = 0
    · rw [if_pos hbudget] at h
      cases h
      simp only [FrontierPlan.counted, hremaining, bind, Except.bind, if_neg hr, if_pos hbudget,
        pure, Except.pure]
      exact ⟨iff_of_true trivial hstop.1, hstop.2⟩
    rw [if_neg hbudget] at h
    simp only [bind_ok, check_ok] at h
    obtain ⟨planned, _, ⟨hplanned, rfl⟩, h⟩ := h
    by_cases hnone : planned = 0
    · rw [if_pos hnone] at h
      cases h
      simp only [FrontierPlan.counted, hremaining, hplanned, bind, Except.bind, if_neg hr,
        if_neg hbudget, if_pos hnone, pure, Except.pure]
      exact ⟨iff_of_true trivial hstop.1, hstop.2⟩
    · rw [if_neg hnone] at h
      simp only [FrontierPlan.counted, hremaining, hplanned, bind, Except.bind, if_neg hr,
        if_neg hbudget, if_neg hnone, pure, Except.pure]
      exact hpass h

/-- The loop over the running requests finishes those it finds spent, and leaves the others
alone. -/
theorem finish_zero_miss_requests_spent {refs : List ℕ} {locals locals' : Locals}
    (hnodup : refs.Nodup)
    (h : Engine.finishZeroMissRequests nowMs refs locals = .ok locals') :
    locals'.requestsById = locals.requestsById ∧
      (∀ ref ∈ refs, (locals.heap ref).Spent → (locals'.heap ref).status = .finished) ∧
      ∀ ref, ¬(ref ∈ refs ∧ (locals.heap ref).Spent) → locals'.heap ref = locals.heap ref := by
  induction refs generalizing locals with
  | nil =>
    cases h
    exact ⟨rfl, by simp, fun _ _ ↦ rfl⟩
  | cons ref refs ih =>
    obtain ⟨hfresh, hnodup'⟩ := List.nodup_cons.mp hnodup
    have hskip (hspent : ¬(locals.heap ref).Spent)
        (h : Engine.finishZeroMissRequests nowMs refs locals = .ok locals') :
        locals'.requestsById = locals.requestsById ∧
          (∀ other ∈ ref :: refs, (locals.heap other).Spent →
            (locals'.heap other).status = .finished) ∧
          ∀ other, ¬(other ∈ ref :: refs ∧ (locals.heap other).Spent) →
            locals'.heap other = locals.heap other := by
      obtain ⟨hrequests, hfinished, hothers⟩ := ih hnodup' h
      refine ⟨hrequests, List.forall_mem_cons.mpr ⟨fun h ↦ absurd h hspent, hfinished⟩, ?_⟩
      exact fun other hother ↦ hothers other fun hmem ↦
        hother ⟨List.mem_cons_of_mem _ hmem.1, hmem.2⟩
    unfold Engine.finishZeroMissRequests at h
    obtain ⟨remaining, hremaining, h⟩ := except_bind_ok.mp h
    split_ifs at h with hr
    · refine hskip (fun hspent ↦ hr ?_) h
      rw [hspent.1] at hremaining
      exact (Except.ok.inj hremaining).symm
    obtain ⟨pendingKvLoad, hpending, h⟩ := except_bind_ok.mp h
    split_ifs at h with hload
    · refine hskip (fun hspent ↦ ?_) h
      rw [hspent.2] at hpending
      cases hpending
      cases hload
    obtain ⟨request, -, h⟩ := except_bind_ok.mp h
    obtain ⟨lookup, -, h⟩ := except_bind_ok.mp h
    obtain ⟨closed, hfinish, h⟩ := except_bind_ok.mp h
    have hspent : (locals.heap ref).Spent := by
      refine ⟨not_not.mp hr ▸ hremaining, ?_⟩
      rw [hpending, Bool.eq_false_of_not_eq_true hload]
    obtain ⟨hrequests, hself, hclosed⟩ := finish_zero_miss_heap hfinish
    obtain ⟨hrequests', hfinished, hothers⟩ := ih hnodup' h
    refine ⟨hrequests'.trans hrequests, List.forall_mem_cons.mpr ⟨fun _ ↦ ?_, ?_⟩, ?_⟩
    · rw [hothers ref fun hmem ↦ hfresh hmem.1]
      exact hself
    · intro other hother hspent'
      refine hfinished other hother ?_
      rwa [hclosed other fun heq ↦ hfresh (heq ▸ hother)]
    · intro other hother
      have hne : other ≠ ref := fun heq ↦ hother ⟨heq ▸ List.mem_cons_self .., heq ▸ hspent⟩
      rw [hothers other fun hmem ↦ ?_, hclosed other hne]
      rw [hclosed other hne] at hmem
      exact hother ⟨List.mem_cons_of_mem _ hmem.1, hmem.2⟩

theorem plan_running_congr {heap heap' : Heap} {refs : List ℕ}
    (hsame : ∀ ref ∈ refs, heap' ref = heap ref) (frontier : FrontierPlan) :
    engine.planRunning heap' refs frontier = engine.planRunning heap refs frontier := by
  induction refs generalizing frontier with
  | nil => rfl
  | cons ref refs ih =>
    obtain ⟨hself, hrest⟩ := List.forall_mem_cons.mp hsame
    simp only [Engine.planRunning, hself, ih hrest]

/-- The condition says that a batch is prepared without finishing a request under whose id
another one is registered. -/
theorem frontier_registered {plan : FrontierPlan} {locals locals' : Locals}
    {world world' : World C K} (hnodup : locals.active.Nodup)
    (h : engine.prepareSchedulerFrontier nowMs locals world = .ok (plan, locals') world') :
    engine.frontierRegistered nowMs locals world ↔
      ∀ ref ∈ locals.active, (locals'.heap ref).status = .finished →
        (locals.heap ref).status = .finished ∨ locals.RegisteredAs ref := by
  simp only [Engine.prepareSchedulerFrontier, bind_ok, check_ok] at h
  obtain ⟨looked, _, hprepare, closed, world₁, ⟨hfinish, rfl⟩, ⟨plan', scanned⟩, world₂, hwait,
    h⟩ := h
  cases h
  unfold Engine.frontierRegistered
  rw [hprepare]
  dsimp only
  rw [Bool.and_eq_true, List.all_eq_true]
  have hsteady := prepare_running_steady hprepare
  obtain ⟨-, -, -, -, hqueue, hrunning₂⟩ := finish_zero_miss_requests_clears hfinish
  have hnodup₁ : (looked.running ++ looked.waiting).Nodup := by
    rw [hsteady.running_eq, hsteady.waiting_eq]
    exact hnodup
  obtain ⟨hrequests, hspent, hothers⟩ :=
    finish_zero_miss_requests_spent hnodup₁.of_append_left hfinish
  have hback (ref : ℕ) : (looked.heap ref).status = .finished ∨ looked.RegisteredAs ref ↔
      (locals.heap ref).status = .finished ∨ locals.RegisteredAs ref :=
    or_congr (hsteady.heap ref).finished_iff
      (Locals.registered_as_congr hsteady.states_eq (hsteady.heap ref).id_eq)
  have hapart : ∀ ref ∈ looked.waiting, closed.heap ref = looked.heap ref := fun ref href ↦
    hothers ref fun hmem ↦ hnodup₁.disjoint hmem.1 href
  -- a running request is finished by the loop over these or was finished before
  have hloop : (∀ ref ∈ looked.running, decide ((looked.heap ref).Spent →
      (looked.heap ref).status = .finished ∨ looked.RegisteredAs ref) = true) ↔
      ∀ ref ∈ looked.running, (closed.heap ref).status = .finished →
        (looked.heap ref).status = .finished ∨ looked.RegisteredAs ref := by
    refine forall₂_congr fun ref href ↦ decide_eq_true_iff.trans ?_
    by_cases hs : (looked.heap ref).Spent
    · exact imp_congr_left (iff_of_true hs (hspent ref href hs))
    · rw [hothers ref fun hmem ↦ hs hmem.2]
      exact iff_of_true (fun h ↦ absurd h hs) .inl
  have hplan : engine.planRunning closed.heap
      (closed.running.filter fun ref ↦ (closed.heap ref).status ≠ .finished) =
      engine.planRunning looked.heap (looked.running.filter fun ref ↦
        ¬((looked.heap ref).status = .finished ∨ (looked.heap ref).Spent)) := by
    have hfilter : (closed.running.filter fun ref ↦ (closed.heap ref).status ≠ .finished) =
        looked.running.filter fun ref ↦
          ¬((looked.heap ref).status = .finished ∨ (looked.heap ref).Spent) := by
      rw [hrunning₂]
      refine List.filter_congr fun ref href ↦ decide_eq_decide.mpr (not_congr ?_)
      by_cases hs : (looked.heap ref).Spent
      · exact iff_of_true (hspent ref href hs) (.inr hs)
      · rw [hothers ref fun hmem ↦ hs hmem.2, or_iff_left hs]
    rw [hfilter]
    refine funext fun frontier ↦ plan_running_congr (fun ref href ↦ hothers ref fun hmem ↦ ?_) _
    exact of_decide_eq_true (List.mem_filter.mp href).2 (.inr hmem.2)
  simp only [Engine.prepareWaitingFrontier, bind_ok, check_ok, hplan] at hwait
  obtain ⟨⟨full, frontier⟩, _, ⟨hfull, rfl⟩, hwait⟩ := hwait
  rw [hfull]
  simp only [← hback]
  rw [Locals.active, ← hsteady.running_eq, ← hsteady.waiting_eq, List.forall_mem_append, hloop]
  cases full with
  | true =>
    cases hwait
    refine and_congr_right fun _ ↦ iff_of_true rfl fun ref href hfinished ↦ .inl ?_
    exact hapart ref href ▸ hfinished
  | false =>
    dsimp only at hwait ⊢
    rw [hqueue] at hwait
    obtain ⟨hscan, hframe⟩ := scan_waiting_registered ⟨hrequests, hapart⟩ hnodup₁.of_append_right
      hwait
    refine and_congr (forall₂_congr fun ref href ↦ ?_) hscan
    rw [hframe ref (hnodup₁.disjoint href)]

theorem waiting_registered_of_registered {refs : List ℕ} {frontier : FrontierPlan}
    {locals : Locals} {world : World C K} (h : ∀ ref ∈ refs, locals.RegisteredAs ref) :
    engine.waitingRegistered nowMs locals refs frontier world := by
  induction refs generalizing frontier world with
  | nil => rfl
  | cons ref refs ih =>
    obtain ⟨hself, hrest⟩ := List.forall_mem_cons.mp h
    unfold Engine.waitingRegistered
    split_ifs
    · rfl
    cases engine.turn nowMs locals ref world with
    | error _ _ => rfl
    | ok state world =>
      dsimp only
      split_ifs
      · rw [decide_eq_true (.inr hself), Bool.true_and]
        exact ih hrest
      · cases frontier.counted engine.config ref state with
        | error _ => rfl
        | ok counted =>
          cases counted with
          | none => rfl
          | some frontier => exact ih hrest

/-- Where all active requests are registered, whatever is finished is. -/
theorem frontier_registered_of_registered {locals : Locals} {world : World C K}
    (h : ∀ ref ∈ locals.active, locals.RegisteredAs ref) :
    engine.frontierRegistered nowMs locals world := by
  unfold Engine.frontierRegistered
  cases hprepare : engine.prepareRunning nowMs locals.running locals world with
  | error _ _ => rfl
  | ok looked world =>
    have hsteady := prepare_running_steady hprepare
    have hlooked : ∀ ref ∈ looked.running ++ looked.waiting, looked.RegisteredAs ref := by
      intro ref href
      rw [hsteady.running_eq, hsteady.waiting_eq] at href
      exact (Locals.registered_as_congr hsteady.states_eq (hsteady.heap ref).id_eq).mpr (h ref href)
    dsimp only
    rw [Bool.and_eq_true, List.all_eq_true]
    refine ⟨fun ref href ↦ decide_eq_true fun _ ↦
      .inr (hlooked ref (List.mem_append_left _ href)), ?_⟩
    split
    · exact waiting_registered_of_registered fun ref href ↦
        hlooked ref (List.mem_append_right _ href)
    · rfl

end InferTwin
