import InferTwin.Tables.ListRun
import InferTwin.Tables.Queued
import Mathlib.Algebra.BigOperators.Group.Finset.Basic

namespace InferTwin

open Effect

variable {C K : Type} {engine : Engine C K}

section Shares

variable {count ref : ℕ} {heap heap' : Heap}

/-- What is still to be said of a request: nothing once it has left. -/
def RequestState.share (state : RequestState) : ℕ × ℕ :=
  if state.status = .finished then 0 else state.visible

theorem RequestState.Continues.share_eq {state state' : RequestState}
    (h : state.Continues state') : state'.share = state.share := by
  unfold share
  rw [h.visible_eq]
  exact if_congr h.finished_iff rfl rfl

theorem RequestState.share_of_visible {state : RequestState}
    (h : state.status ≠ .finished ∨ state.visible = 0) : state.share = state.visible := by
  unfold share
  split_ifs with hfinished
  · exact (h.resolve_left fun hne ↦ hne hfinished).symm
  · rfl

def Heap.shares (heap : Heap) (count : ℕ) : ℕ × ℕ :=
  ∑ ref ∈ Finset.range count, (heap ref).share

theorem Heap.shares_congr (h : ∀ ref < count, (heap' ref).share = (heap ref).share) :
    heap'.shares count = heap.shares count :=
  Finset.sum_congr rfl fun ref href ↦ h ref (Finset.mem_range.mp href)

theorem Heap.shares_update (heap : Heap) (href : ref < count) (state : RequestState) :
    Heap.shares (Function.update heap ref state) count + (heap ref).share =
      heap.shares count + state.share := by
  have hmem : ref ∈ Finset.range count := Finset.mem_range.mpr href
  have hrest : ∑ other ∈ (Finset.range count).erase ref,
      (Function.update heap ref state other).share =
        ∑ other ∈ (Finset.range count).erase ref, (heap other).share := by
    refine Finset.sum_congr rfl fun other hother ↦ ?_
    rw [Function.update_of_ne (Finset.ne_of_mem_erase hother)]
  rw [Heap.shares, Heap.shares, ← Finset.add_sum_erase _ _ hmem, hrest, Function.update_self,
    ← Finset.add_sum_erase _ (fun other ↦ (heap other).share) hmem]
  rw [add_assoc, add_comm]
  exact congrArg (· + state.share) (add_comm _ _)

/-- The books of a replay: what its metrics say, and what is still to be said. -/
def Locals.books (locals : Locals) (count : ℕ) : ℕ × ℕ :=
  (locals.requestMetrics.map BatchAwareRequestMetrics.visible).sum + locals.heap.shares count

variable {locals locals' : Locals}

theorem Locals.Admits.books_eq {request : SimulationRequest}
    (h : locals.Admits locals' request count) : locals'.books (count + 1) = locals.books count := by
  obtain ⟨state, -, -, hvisible, hheap⟩ := h.state
  have hnew : (locals'.heap count).share = 0 := by
    rw [hheap, Function.update_self, RequestState.share_of_visible (.inr hvisible), hvisible]
  have hshares : locals'.heap.shares (count + 1) = locals.heap.shares count := by
    rw [Heap.shares, Finset.sum_range_succ, hnew, add_zero]
    refine Heap.shares_congr fun ref href ↦ ?_
    rw [h.heap_eq href]
  rw [Locals.books, h.metrics_eq, hshares]
  rfl

/-- Whoever finishes without an iteration says it all in his metric. -/
theorem Locals.Clears.books_eq {done dropped : List ℕ} {metrics : List BatchAwareRequestMetrics}
    (h : locals.Clears locals' done dropped metrics) (hnodup : done.Nodup)
    (hlt : ∀ ref ∈ done, ref < count) : locals'.books count = locals.books count := by
  have hmetrics : metrics.map BatchAwareRequestMetrics.visible =
      done.map fun ref ↦ (locals.heap ref).share := by
    refine forall₂_map_eq h.emits fun ref href metric hemits ↦ ?_
    rw [hemits.visible_eq, RequestState.share_of_visible (.inl (h.unfinished ref href))]
  have hshare (ref : ℕ) : (locals.heap ref).share =
      (locals'.heap ref).share + if ref ∈ done then (locals.heap ref).share else 0 := by
    by_cases hdone : ref ∈ done
    · rw [if_pos hdone]
      have hleft : (locals'.heap ref).share = 0 :=
        if_pos ((h.finished_iff ref).mpr (.inr hdone))
      rw [hleft, zero_add]
    · rw [if_neg hdone, add_zero]
      unfold RequestState.share
      rw [h.visible_eq]
      exact if_congr ((h.finished_iff ref).trans (or_iff_left hdone)).symm rfl rfl
  have hsum : locals.heap.shares count = locals'.heap.shares count +
      (done.map fun ref ↦ (locals.heap ref).share).sum := by
    rw [Heap.shares, Finset.sum_congr rfl fun ref _ ↦ hshare ref, Finset.sum_add_distrib]
    refine congrArg (locals'.heap.shares count + ·) ?_
    rw [← Finset.sum_filter, ← List.sum_toFinset _ hnodup]
    refine Finset.sum_congr (Finset.ext fun ref ↦ ?_) fun _ _ ↦ rfl
    rw [Finset.mem_filter, Finset.mem_range, List.mem_toFinset]
    exact ⟨fun hmem ↦ hmem.2, fun hmem ↦ ⟨hlt ref hmem, hmem⟩⟩
  rw [Locals.books, Locals.books, h.metrics_eq, List.map_append, List.sum_append, hmetrics, hsum,
    add_assoc, add_comm (List.sum _) (locals'.heap.shares count)]

end Shares

section Slices

variable {startTimeMs finishMs : ℚ} {contributions : Dict String IterationLatencyBreakdown}
  {slices : List ScheduledSlice} {totals totals' : IterationTotals}
  {records records' : List SliceRecord} {locals locals' : Locals} {world world' : World C K}
  {count : ℕ}

/-- A slice that does not upset the books: it reaches the request that it was made for, which
has not left unless nothing has become visible for it; or it has no tokens and reaches a later
one that is unserved. -/
def Locals.Fair (locals : Locals) (owner : ℕ) (slice : ScheduledSlice) : Prop :=
  locals.statesById.lookup slice.requestId = some owner ∧
      ((locals.heap owner).status ≠ .finished ∨ (locals.heap owner).visible = 0) ∨
    ∃ ref, locals.statesById.lookup slice.requestId = some ref ∧ owner < ref ∧
      slice.scheduledPrefillTokens = 0 ∧ (locals.heap ref).Unserved

/-- The table leads from an id to a request of that id; where its lookup missed nothing, the
lookup under the id has nothing to store. -/
structure Locals.Keyed (locals : Locals) (count : ℕ) : Prop where
  keys : ∀ id ref, locals.statesById.lookup id = some ref →
    ref < count ∧ (locals.heap ref).requestId = id
  settled : ∀ id ref, locals.statesById.lookup id = some ref →
    (locals.heap ref).missTokens = some 0 →
      ∀ lookup ∈ locals.lookupById.lookup id, lookup.materializationBlocks = []

theorem Locals.Queued.keyed (h : locals.Queued count) : locals.Keyed count where
  keys id ref hlookup := ⟨(h.newest id ref hlookup).1, (h.newest id ref hlookup).2.1⟩
  settled := h.settled

theorem Locals.Keyed.moves (h : locals.Keyed count)
    (hstates : locals'.statesById = locals.statesById)
    (hlookups : locals'.lookupById = locals.lookupById)
    (hheap : ∀ ref, (locals.heap ref).Moves (locals'.heap ref)) : locals'.Keyed count where
  keys id ref hlookup := by
    rw [hstates] at hlookup
    exact ⟨(h.keys id ref hlookup).1, (hheap ref).id_eq.trans (h.keys id ref hlookup).2⟩
  settled id ref hlookup hmiss := by
    rw [hstates] at hlookup
    rw [hlookups]
    exact h.settled id ref hlookup ((hheap ref).miss_eq.symm.trans hmiss)

theorem apply_slices_moves
    (h : engine.applySlices startTimeMs finishMs contributions slices totals records locals world =
      .ok (totals', records', locals') world') :
    locals'.lookupById = locals.lookupById ∧
      (∀ ref, (locals.heap ref).Moves (locals'.heap ref)) ∧
      ∀ slice ∈ slices, ∃ ref, locals.statesById.lookup slice.requestId = some ref := by
  induction slices generalizing totals records locals world with
  | nil =>
    cases h
    exact ⟨rfl, fun _ ↦ .refl _, by simp⟩
  | cons slice slices ih =>
    unfold Engine.applySlices at h
    simp only [bind_ok, check_ok] at h
    obtain ⟨ref, _, ⟨href, rfl⟩, lookup, _, ⟨-, rfl⟩, contribution, _, ⟨-, rfl⟩,
      ⟨progress, metric⟩, world₁, hslice, h⟩ := h
    obtain ⟨hlookups, hheap, hslices⟩ := ih h
    have hmoves := (apply_slice_moves hslice).2.1
    exact ⟨hlookups, fun other ↦ (Heap.related_update .refl hmoves other).trans (hheap other),
      List.forall_mem_cons.mpr ⟨⟨ref, Dict.getItem_ok href⟩, hslices⟩⟩

/-- Fair slices, in the order of their owners, keep the books; and whoever owns none of them
stays unserved. -/
theorem apply_slices_books {owners : List ℕ} (hfair : List.Forall₂ locals.Fair owners slices)
    (hsorted : owners.Pairwise (· < ·)) (hkeyed : locals.Keyed count)
    (h : engine.applySlices startTimeMs finishMs contributions slices totals records locals world =
      .ok (totals', records', locals') world') :
    totals'.visible + locals.books count = totals.visible + locals'.books count ∧
      ∀ ref ∉ owners, (locals.heap ref).Unserved → (locals'.heap ref).Unserved := by
  induction slices generalizing owners totals records locals world with
  | nil =>
    cases h
    exact ⟨rfl, fun _ _ hunserved ↦ hunserved⟩
  | cons slice slices ih =>
    obtain _ | @⟨owner, _, owners, _, hself, hrest⟩ := hfair
    obtain ⟨hbehind, hsorted'⟩ := List.pairwise_cons.mp hsorted
    unfold Engine.applySlices at h
    simp only [bind_ok, check_ok] at h
    obtain ⟨ref, _, ⟨href, rfl⟩, lookup, _, ⟨hlookup, rfl⟩, contribution, _, ⟨-, rfl⟩,
      ⟨progress, metric⟩, world₁, hslice, h⟩ := h
    have hfound := Dict.getItem_ok href
    obtain ⟨hlt, hid⟩ := hkeyed.keys _ _ hfound
    have hserves := apply_slice_serves hslice
    obtain ⟨hlooked, hmoves, hidles⟩ := apply_slice_moves hslice
    have hsame : Function.update locals.heap ref progress.state ref = progress.state :=
      Function.update_self ..
    have hother {other : ℕ} (hne : other ≠ ref) :
        Function.update locals.heap ref progress.state other = locals.heap other :=
      Function.update_of_ne hne _ _
    have hheap : ∀ other, (locals.heap other).Moves
        (Function.update locals.heap ref progress.state other) :=
      Heap.related_update .refl hmoves
    -- an unserved request which is reached by a slice of another one stays unserved
    have hidle (hzero : slice.scheduledPrefillTokens = 0) (hunserved : (locals.heap ref).Unserved) :
        progress.state.Unserved := by
      have hidle := hidles hzero
      have hmiss := hunserved.miss_zero hlooked hidle.remaining_eq
      have hnone := hkeyed.settled _ ref hfound hmiss lookup
        (by rw [← hid]; exact Dict.getItem_ok hlookup)
      exact hmoves.unserved (hidle.visible_eq hnone) hidle.computed_eq hunserved
    -- what is still to be said of the request that is reached
    have hshare : (locals.heap ref).share = (locals.heap ref).visible := by
      apply RequestState.share_of_visible
      rcases hself with ⟨howner, hor⟩ | ⟨later, hlater, -, -, hunserved⟩
      · rw [hfound] at howner
        cases howner
        exact hor
      · rw [hfound] at hlater
        cases hlater
        exact .inr hunserved.visible_eq
    have hsaid : (metric.toList.map BatchAwareRequestMetrics.visible).sum + progress.state.share =
        progress.state.visible := by
      cases metric with
      | none =>
        have hrunning : progress.state.status ≠ .finished := by
          simp [hserves.finished_iff]
        simp [RequestState.share_of_visible (.inl hrunning)]
      | some metric =>
        have hclosed : progress.state.status = .finished := by
          simp [hserves.finished_iff]
        simp [RequestState.share, hclosed, (hserves.emits metric rfl).visible_eq]
    have hfair' : List.Forall₂ (Locals.Fair { locals with
        heap := Function.update locals.heap ref progress.state
        transferQueue := progress.queue
        requestMetrics := locals.requestMetrics ++ metric.toList }) owners slices := by
      refine ((List.forall₂_and_left _ _).mpr ⟨hbehind, hrest⟩).imp fun other slice' hother' ↦ ?_
      obtain ⟨hafter, ⟨howner, hor⟩ | ⟨last, hlast, hle, hzero, hunserved⟩⟩ := hother'
      · refine .inl ⟨howner, ?_⟩
        dsimp only
        by_cases hne : other = ref
        · rcases hself with ⟨hfirst, -⟩ | ⟨later, hlater, -, hzero, hunserved⟩
          · rw [hfound, Option.some.injEq] at hfirst
            omega
          · rw [hfound, Option.some.injEq] at hlater
            rw [hne, hsame]
            exact .inr (hidle hzero (hlater ▸ hunserved)).visible_eq
        · rw [hother hne]
          exact hor
      · refine .inr ⟨last, hlast, hle, hzero, ?_⟩
        dsimp only
        by_cases hne : last = ref
        · rcases hself with ⟨hfirst, -⟩ | ⟨later, hlater, -, hzero', -⟩
          · rw [hfound, Option.some.injEq] at hfirst
            omega
          · rw [hne, hsame]
            exact hidle hzero' (hne ▸ hunserved)
        · rw [hother hne]
          exact hunserved
    obtain ⟨hbooks, hunserved'⟩ := ih hfair' hsorted' (hkeyed.moves rfl rfl hheap) h
    constructor
    · have hupdate := locals.heap.shares_update hlt progress.state
      have hcounts := hserves.visible_eq
      unfold Locals.books at hbooks ⊢
      dsimp only at hbooks
      rw [List.map_append, List.sum_append] at hbooks
      rw [hshare] at hupdate
      rw [Prod.ext_iff] at hbooks hupdate hcounts hsaid ⊢
      simp only [Prod.fst_add, Prod.snd_add] at hbooks hupdate hcounts hsaid ⊢
      omega
    · intro other hnot hunserved
      obtain ⟨hne', hnot'⟩ := List.ne_and_not_mem_of_not_mem_cons hnot
      apply hunserved' other hnot'
      dsimp only
      by_cases hne : other = ref
      · rcases hself with ⟨hfirst, -⟩ | ⟨later, -, -, hzero, -⟩
        · rw [hfound, Option.some.injEq] at hfirst
          exact absurd (hne.trans hfirst) hne'
        · rw [hne, hsame]
          exact hidle hzero (hne ▸ hunserved)
      · rw [hother hne]
        exact hunserved

end Slices

/-- A displaced request with something left to compute: the slices made for it reach somebody
else. -/
structure Locals.Stuck (locals : Locals) (count ref : ℕ) : Prop
    extends locals.Displaced count ref where
  looked_up : (locals.heap ref).LookedUp
  remaining_ne : (locals.heap ref).remaining ≠ 0

section Stuck

variable {nowMs : ℚ} {count ref : ℕ} {refs : List ℕ} {locals locals' : Locals}
  {world world' : World C K}

theorem ensure_lookup_leaves {other : ℕ} {request : SimulationRequest}
    (hlooked : (locals.heap ref).LookedUp)
    (h : engine.ensureLookup nowMs other request locals world = .ok locals' world') :
    locals'.heap ref = locals.heap ref := by
  by_cases hne : ref = other
  · unfold Engine.ensureLookup at h
    rw [← hne, if_pos hlooked.done] at h
    cases h
    rfl
  · exact ensure_lookup_heap h ref hne

theorem prepare_running_leaves (hlooked : (locals.heap ref).LookedUp)
    (h : engine.prepareRunning nowMs refs locals world = .ok locals' world') :
    locals'.heap ref = locals.heap ref := by
  induction refs generalizing locals world with
  | nil =>
    cases h
    rfl
  | cons other refs ih =>
    simp only [Engine.prepareRunning, bind_ok, check_ok] at h
    obtain ⟨request, _, ⟨-, rfl⟩, locals₁, world₁, hlookup, h⟩ := h
    have hsame := ensure_lookup_leaves hlooked hlookup
    exact (ih (hsame ▸ hlooked) h).trans hsame

theorem scan_waiting_leaves {index : ℕ} {frontier frontier' : FrontierPlan}
    (hlooked : (locals.heap ref).LookedUp) (hleft : (locals.heap ref).remaining ≠ 0)
    (h : engine.scanWaiting nowMs index refs frontier locals world =
      .ok (frontier', locals') world') : locals'.heap ref = locals.heap ref := by
  induction refs generalizing index frontier locals world with
  | nil =>
    cases h
    rfl
  | cons other refs ih =>
    unfold Engine.scanWaiting at h
    by_cases hfull : frontier.plannedSlices ≥ engine.config.maxNumSeqs
    · rw [if_pos hfull] at h
      cases h
      rfl
    rw [if_neg hfull] at h
    simp only [bind_ok, check_ok] at h
    obtain ⟨request, _, ⟨-, rfl⟩, looked, _, hlookup, remaining, world₁, ⟨hremaining, rfl⟩, h⟩ := h
    have hsame := ensure_lookup_leaves hlooked hlookup
    have hlooked₁ : (looked.heap ref).LookedUp := hsame ▸ hlooked
    have hleft₁ : (looked.heap ref).remaining ≠ 0 := hsame ▸ hleft
    by_cases hr : remaining = 0
    · rw [if_pos hr] at h
      simp only [bind_ok, check_ok] at h
      obtain ⟨pendingKvLoad, _, ⟨-, rfl⟩, h⟩ := h
      split_ifs at h
      · exact (ih hlooked₁ hleft₁ h).trans hsame
      simp only [bind_ok, check_ok] at h
      obtain ⟨_, _, ⟨-, rfl⟩, _, _, ⟨-, rfl⟩, closed, _, ⟨hfinish, rfl⟩, h⟩ := h
      have hne : ref ≠ other := by
        rintro rfl
        rw [hlooked₁.remaining_eq, hr, Except.ok.injEq] at hremaining
        exact hleft₁ hremaining
      have hclosed : closed.heap ref = looked.heap ref :=
        (finish_zero_miss_heap hfinish).2.2 ref hne
      rw [ih (hclosed ▸ hlooked₁) (hclosed ▸ hleft₁) h, hclosed, hsame]
    rw [if_neg hr] at h
    by_cases hbudget : frontier.tokenBudget = 0
    · rw [if_pos hbudget] at h
      cases h
      exact hsame
    rw [if_neg hbudget] at h
    simp only [bind_ok, check_ok] at h
    obtain ⟨planned, _, ⟨-, rfl⟩, h⟩ := h
    split_ifs at h
    · cases h
      exact hsame
    · exact (ih hlooked₁ hleft₁ h).trans hsame

/-- The preparation of a batch leaves alone whoever was looked up and has something left to
compute. -/
theorem frontier_leaves {plan : FrontierPlan} (hnodup : locals.active.Nodup)
    (hlooked : (locals.heap ref).LookedUp) (hleft : (locals.heap ref).remaining ≠ 0)
    (h : engine.prepareSchedulerFrontier nowMs locals world = .ok (plan, locals') world') :
    locals'.heap ref = locals.heap ref := by
  simp only [Engine.prepareSchedulerFrontier, bind_ok, check_ok] at h
  obtain ⟨looked, world₁, hprepare, closed, _, ⟨hfinish, rfl⟩, ⟨plan', scanned⟩, world₂, hwait,
    h⟩ := h
  cases h
  have hsame := prepare_running_leaves hlooked hprepare
  have hrunning : looked.running.Nodup := by
    rw [(prepare_running_steady hprepare).running_eq]
    exact hnodup.of_append_left
  have hclosed : closed.heap ref = looked.heap ref := by
    refine (finish_zero_miss_requests_spent hrunning hfinish).2.2 ref fun hspent ↦ hleft ?_
    rw [← hsame]
    exact hspent.2.remaining_eq
  simp only [Engine.prepareWaitingFrontier, bind_ok, check_ok] at hwait
  obtain ⟨⟨full, frontier⟩, _, ⟨-, rfl⟩, hwait⟩ := hwait
  cases full with
  | true =>
    cases hwait
    exact hclosed.trans hsame
  | false =>
    have hkept : closed.heap ref = locals.heap ref := hclosed.trans hsame
    exact (scan_waiting_leaves (hkept ▸ hlooked) (hkept ▸ hleft) hwait).trans hkept

namespace Locals.Stuck

theorem admits (h : locals.Stuck count ref) {request : SimulationRequest}
    (hadmits : locals.Admits locals' request count) : locals'.Stuck (count + 1) ref := by
  have hsame := hadmits.heap_eq (h.numbered.active_lt ref h.active)
  exact ⟨h.toDisplaced.admits hadmits, hsame ▸ h.looked_up, hsame ▸ h.remaining_ne⟩

theorem prepares (h : locals.Stuck count ref) {plan : FrontierPlan}
    (hprepare : engine.prepareSchedulerFrontier nowMs locals world = .ok (plan, locals') world') :
    locals'.Stuck count ref := by
  have hsame := frontier_leaves h.numbered.nodup h.looked_up h.remaining_ne hprepare
  obtain ⟨done, dropped, metrics, hclears, hperm⟩ := frontier_clears h.numbered.nodup hprepare
  refine ⟨h.toDisplaced.clears hclears hperm fun hdone ↦ h.unfinished ?_, hsame ▸ h.looked_up,
    hsame ▸ h.remaining_ne⟩
  rw [← hsame]
  exact (hclears.finished_iff ref).mpr (.inr hdone)

theorem iterates (h : locals.Stuck count ref) {started served : Locals}
    {scheduled : List ℕ} {shape : BatchShape} {metric : IterationMetrics}
    {totals : IterationTotals}
    (hphases : Iteration locals started served locals' scheduled shape metric totals) :
    locals'.Stuck count ref := by
  have hsame : locals'.heap ref = started.heap ref := by
    rw [hphases.final_eq]
    refine hphases.untouched fun other _ hlookup ↦ h.displaced ?_
    unfold Locals.RegisteredAs
    rwa [(h.numbered.keys _ ref hlookup).2]
  have hrests := hphases.slices.rests ref
  refine ⟨h.toDisplaced.iterates hphases, ?_, ?_⟩
  · rw [hsame]
    exact hrests.looked_up.mpr h.looked_up
  · rw [hsame, hrests.remaining_eq]
    exact h.remaining_ne

end Locals.Stuck

variable {instanceUuid : String} {fuel : ℕ} {state final : LoopState} {flow : Flow LoopState}

theorem move_arrivals_stuck {pending pending' : List SimulationRequest} {count' : ℕ}
    (hstuck : locals.Stuck count ref)
    (h : engine.moveArrivals nowMs pending count locals = .ok (pending', count', locals')) :
    locals'.Stuck count' ref := by
  induction pending generalizing count locals with
  | nil =>
    cases h
    exact hstuck
  | cons request pending ih =>
    unfold Engine.moveArrivals at h
    split_ifs at h
    · obtain ⟨locals₁, hadmit, h⟩ := except_bind_ok.mp h
      exact ih (hstuck.admits (admit_arrival_admits hadmit)) h
    · cases h
      exact hstuck

theorem BodyRuns.stuck (hbody : BodyRuns engine instanceUuid state world flow world')
    (hstuck : state.locals.Stuck state.pendingIndex ref) :
    ∃ next, flow = .proceed next ∧ next.locals.Stuck next.pendingIndex ref := by
  cases hbody with
  | jump harrivals => exact ⟨_, rfl, move_arrivals_stuck hstuck harrivals⟩
  | skip harrivals hprepare =>
    exact ⟨_, rfl, (move_arrivals_stuck hstuck harrivals).prepares hprepare⟩
  | finish harrivals hprepare hempty =>
    have hactive := ((move_arrivals_stuck hstuck harrivals).prepares hprepare).active
    rw [hempty] at hactive
    simp at hactive
  | batch harrivals hprepare hiteration =>
    obtain ⟨_, _, _, _, _, _, hphases, -⟩ := run_iteration_phases hiteration
    exact ⟨_, rfl, ((move_arrivals_stuck hstuck harrivals).prepares hprepare).iterates hphases⟩

/-- A replay with a stuck request does not return. -/
theorem run_loop_stuck (hstuck : state.locals.Stuck state.pendingIndex ref) :
    engine.runLoop instanceUuid fuel state world ≠ .ok final world' := by
  induction fuel generalizing state world with
  | zero =>
    intro h
    cases h
  | succ fuel ih =>
    intro h
    unfold Engine.runLoop at h
    split_ifs at h with hdone
    · have hactive := hstuck.active
      rw [Locals.active, hdone.2.1, hdone.2.2] at hactive
      simp at hactive
    obtain ⟨flow, world₁, hbody, h⟩ := bind_ok.mp h
    obtain ⟨next, rfl, hstuck'⟩ := (body_runs hbody).stuck hstuck
    exact ih hstuck' h

end Stuck

section Iterations

variable {count : ℕ} {locals locals' : Locals} {world world' : World C K}

/-- Where nobody is stuck, the slices of a batch are fair. -/
theorem Iteration.fair {started served : Locals} {scheduled : List ℕ} {shape : BatchShape}
    {metric : IterationMetrics} {totals : IterationTotals}
    (hphases : Iteration locals started served locals' scheduled shape metric totals)
    (hq : locals.Queued count) (hfree : ∀ ref, ¬locals.Stuck count ref)
    (hfound : ∀ slice ∈ shape.requestSlices,
      ∃ ref, locals.statesById.lookup slice.requestId = some ref) :
    List.Forall₂ started.Fair scheduled shape.requestSlices := by
  have hsupplies := (List.forall₂_and_left _ _).mpr
    ⟨fun owner (howner : owner ∈ scheduled) ↦ howner, hphases.slices.supplies⟩
  have hfinds := (List.forall₂_and_left _ _).mpr ⟨hfound, hsupplies.flip⟩
  refine hfinds.flip.imp fun owner slice ⟨⟨ref, hlookup⟩, howner, hsupply⟩ ↦ ?_
  have hactive := hphases.scheduled_sublist.subset howner
  have hunfinished := hphases.slices.unfinished owner howner
  rw [← hphases.states_eq] at hlookup
  obtain ⟨hlt, hid, hlast⟩ := hq.newest _ ref (hphases.states_eq ▸ hlookup)
  rcases (hlast owner hactive hsupply.id_eq.symm).eq_or_lt with rfl | hbefore
  · refine .inl ⟨hlookup, .inl ?_⟩
    rwa [ne_eq, hphases.finished_iff]
  -- somebody else is registered under the id
  have hdisplaced : ¬locals.RegisteredAs owner := by
    intro hregistered
    unfold Locals.RegisteredAs at hregistered
    rw [hphases.states_eq, hsupply.id_eq, hregistered, Option.some.injEq] at hlookup
    exact hbefore.ne hlookup
  have hzero : slice.scheduledPrefillTokens = 0 := by
    by_contra htokens
    have hfits := hsupply.fits
    exact hfree owner ⟨⟨hq.numbered, hactive, hunfinished, hdisplaced⟩, hsupply.looked_up,
      by omega⟩
  have hwaiting : owner ∈ locals.waiting :=
    (List.mem_append.mp hactive).resolve_left fun hrunning ↦
      hsupply.works hzero (hq.running owner hrunning).2
  exact .inr ⟨ref, hlookup, hbefore, hzero,
    (hphases.slices.rests ref).unserved (hq.unserved owner hwaiting ref hbefore.le hlt)⟩

/-- Where nobody is stuck, an iteration keeps the queues in order, and says in its metric what
its requests have made visible. -/
theorem run_iteration_books {instanceUuid : String} {nowMs finishMs : ℚ} {iterationId : ℕ}
    (hq : locals.Queued count) (hfree : ∀ ref, ¬locals.Stuck count ref)
    (h : engine.runIteration instanceUuid nowMs iterationId locals world =
      .ok (finishMs, locals') world') :
    locals'.Queued count ∧ ∃ metric : IterationMetrics,
      locals'.iterationMetrics = locals.iterationMetrics ++ [metric] ∧
        locals'.books count = locals.books count + metric.visible := by
  obtain ⟨started, served, scheduled, shape, metric, totals, hphases, _, _, _, _, _, hserve⟩ :=
    run_iteration_phases h
  obtain ⟨hlookups, hserved, hfound⟩ := apply_slices_moves hserve
  rw [hphases.states_eq] at hfound
  have hstarted : ∀ ref, (locals.heap ref).Moves (started.heap ref) :=
    fun ref ↦ (hphases.slices.rests ref).moves
  have hmoves : ∀ ref, (locals.heap ref).Moves (locals'.heap ref) := by
    intro ref
    rw [hphases.heap_final]
    exact (hstarted ref).trans (hserved ref)
  obtain ⟨hbooks, hunserved⟩ := apply_slices_books (hphases.fair hq hfree hfound)
    (hq.sorted.sublist hphases.scheduled_sublist)
    (hq.keyed.moves hphases.states_eq hphases.lookups_eq hstarted) hserve
  constructor
  · refine hq.moves hphases.active_sublist ?_ hphases.states_final ?_ hmoves ?_ ?_ ?_
    · rw [hphases.final_eq]
      exact hphases.applies.waiting_eq ▸ hphases.waiting_subset
    · rw [hphases.final_eq]
      exact hlookups.trans hphases.lookups_eq
    · intro ref href hunfinished
      exact hphases.stays href (hphases.heap_final ▸ hunfinished)
    · intro ref href
      rw [hphases.final_eq, hphases.applies.running_eq] at href
      rcases List.mem_append.mp (hphases.running_subset (List.mem_filter.mp href).1) with
        hbefore | hscheduled
      · obtain ⟨hlooked, hload⟩ := hq.running ref hbefore
        exact ⟨(hmoves ref).looked_up.mpr hlooked, (hmoves ref).load_eq hload⟩
      · obtain ⟨slice, -, hsupply⟩ := forall₂_mem_right hphases.slices.supplies.flip hscheduled
        refine ⟨(hmoves ref).looked_up.mpr hsupply.looked_up, ?_⟩
        rw [hphases.heap_final]
        exact (hserved ref).load_eq (hphases.slices.handed ref hscheduled)
    · -- whoever still waits stands behind all of the slices
      intro first hfirst ref hle _ hself
      rw [hphases.final_eq] at hfirst
      rw [hphases.heap_final]
      refine hunserved ref (fun hscheduled ↦ ?_) ((hphases.slices.rests ref).unserved hself)
      have hsorted := hq.sorted
      rw [← hphases.active_eq] at hsorted
      have hlt := (List.pairwise_append.mp hsorted).2.2 ref
        (hphases.scheduled_running hscheduled) first (hphases.applies.waiting_eq ▸ hfirst)
      omega
  · refine ⟨metric, ?_, ?_⟩
    · rw [hphases.final_eq, hphases.applies.iterations_eq, hphases.iterations_eq]
    · have hstart : started.books count = locals.books count := by
        unfold Locals.books
        rw [hphases.metrics_eq, Heap.shares_congr fun ref _ ↦
          (hphases.slices.continues ref).share_eq]
      have hend : locals'.books count = served.books count := by
        rw [hphases.final_eq]
        rfl
      rw [hend, hphases.metric_eq, ← hstart, add_comm, hbooks]
      exact (zero_add _).symm

end Iterations

end InferTwin
