import InferTwin.Tables.Slices

namespace InferTwin

open Effect

variable {C K : Type} {engine : Engine C K}

/-- The blocks and the tokens that an iteration made visible. -/
def IterationTotals.visible (totals : IterationTotals) : ℕ × ℕ :=
  (totals.progressiveMaterializedBlocks, totals.progressiveMaterializedTokens)

theorem record_progressive_visible (state : RequestState) (blocks : List PrefixBlock) :
    (state.recordProgressiveMaterialization blocks).1.visible = state.visible +
      ((state.recordProgressiveMaterialization blocks).2.length,
        blockTokens (state.recordProgressiveMaterialization blocks).2) ∧
    (state.recordProgressiveMaterialization blocks).1.tag = state.tag ∧
    (state.recordProgressiveMaterialization blocks).1.status = state.status := by
  induction blocks generalizing state with
  | nil => exact ⟨rfl, rfl, rfl⟩
  | cons block blocks ih =>
    unfold RequestState.recordProgressiveMaterialization
    split_ifs
    · exact ih state
    · obtain ⟨hvisible, htag, hstatus⟩ := ih { state with
        progressiveMaterializedBlockKeys :=
          state.progressiveMaterializedBlockKeys ++ [block.blockKey]
        progressiveMaterializedBlocks := state.progressiveMaterializedBlocks + 1
        progressiveMaterializedTokens := state.progressiveMaterializedTokens + block.tokenCount }
      refine ⟨?_, htag, hstatus⟩
      rw [hvisible]
      simp only [RequestState.visible, List.length_cons, blockTokens_cons, Prod.mk_add_mk,
        Prod.mk.injEq]
      omega

/-- Serving a slice goes on with the request's tag, and counts in the totals of the iteration
what it counts in the request. -/
structure Counts (state : RequestState) (totals : IterationTotals) (progress : SliceProgress) :
    Prop where
  tag_eq : progress.state.tag = state.tag
  visible_eq : progress.totals.visible + state.visible = totals.visible + progress.state.visible

namespace Counts

variable {state : RequestState} {totals : IterationTotals} {progress progress' : SliceProgress}

theorem trans (h : Counts state totals progress)
    (h' : Counts progress.state progress.totals progress') : Counts state totals progress' where
  tag_eq := h'.tag_eq.trans h.tag_eq
  visible_eq := by
    have h₁ := h.visible_eq
    have h₂ := h'.visible_eq
    rw [Prod.ext_iff] at h₁ h₂ ⊢
    simp only [Prod.fst_add, Prod.snd_add] at h₁ h₂ ⊢
    omega

/-- Only what is not counted changes. -/
theorem same (htag : progress.state.tag = state.tag)
    (hvisible : progress.state.visible = state.visible)
    (htotals : progress.totals.visible = totals.visible) : Counts state totals progress :=
  ⟨htag, by rw [hvisible, htotals]⟩

theorem materialized (progress : SliceProgress) (blocks : List PrefixBlock) :
    Counts progress.state progress.totals (progress.materialized blocks) where
  tag_eq := (record_progressive_visible progress.state blocks).2.1
  visible_eq := by
    have hvisible := (record_progressive_visible progress.state blocks).1
    simp only [SliceProgress.materialized]
    rw [hvisible, Prod.ext_iff]
    simp only [IterationTotals.visible, Prod.fst_add, Prod.snd_add]
    omega

end Counts

theorem charge_slice_counts {timelineMode : TimelineMode} {startTimeMs : ℚ}
    {slice : ScheduledSlice} {contribution : IterationLatencyBreakdown} {state : RequestState}
    {queue : SharedLinkFIFOTransferQueue} {totals : IterationTotals} {progress : SliceProgress}
    (h : chargeSlice timelineMode startTimeMs slice contribution state queue totals =
      .ok progress) : Counts state totals progress := by
  unfold chargeSlice at h
  obtain ⟨⟨timing, state₁, queue₁⟩, htiming, h⟩ := except_bind_ok.mp h
  obtain ⟨state₂, hlatency, h⟩ := except_bind_ok.mp h
  cases h
  have hfirst : state₁.tag = state.tag ∧ state₁.visible = state.visible := by
    unfold recordScheduledKvLoadTiming at htiming
    split_ifs at htiming
    · cases htiming
      exact ⟨rfl, rfl⟩
    · simp only [except_bind_ok] at htiming
      obtain ⟨_, -, ⟨_, _⟩, -, state', hevent, htiming⟩ := htiming
      cases htiming
      simp only [RequestState.recordKvLoadEvent, RequestState.recordKvLoadWait,
        except_bind_ok] at hevent
      obtain ⟨_, hwait, hevent⟩ := hevent
      split_ifs at hwait
      cases hwait
      cases hevent
      exact ⟨rfl, rfl⟩
  unfold RequestState.recordLatencyContribution at hlatency
  split_ifs at hlatency
  cases hlatency
  exact .same hfirst.1 hfirst.2 rfl

theorem apply_scheduled_tag {state state' : RequestState} {tokens : ℕ} {finishMs : ℚ}
    (h : state.applyScheduledTokens tokens finishMs = .ok state') :
    state'.tag = state.tag ∧ state'.visible = state.visible := by
  have hlooked : state.LookedUp := by
    unfold RequestState.applyScheduledTokens at h
    obtain ⟨_, hrequire, -⟩ := except_bind_ok.mp h
    exact RequestState.require_ok_iff.mp hrequire
  rw [hlooked.apply_scheduled_eq] at h
  split_ifs at h
  cases h
  exact ⟨rfl, rfl⟩

theorem apply_load_only_tag {state state' : RequestState} {finishMs : ℚ}
    (h : state.applyLoadOnlyIteration finishMs = .ok state') :
    state'.tag = state.tag ∧ state'.visible = state.visible := by
  have hlooked : state.LookedUp := by
    unfold RequestState.applyLoadOnlyIteration at h
    obtain ⟨_, hrequire, -⟩ := except_bind_ok.mp h
    exact RequestState.require_ok_iff.mp hrequire
  rw [hlooked.apply_load_only_eq] at h
  split_ifs at h
  cases h
  exact ⟨rfl, rfl⟩

theorem advance_slice_counts {slice : ScheduledSlice} {lookup : LookupMetrics} {finishMs : ℚ}
    {progress progress' : SliceProgress} {world world' : World C K}
    (h : engine.advanceSlice slice lookup finishMs progress world = .ok progress' world') :
    Counts progress.state progress.totals progress' := by
  unfold Engine.advanceSlice at h
  split_ifs at h
  · simp only [bind_ok, check_ok] at h
    obtain ⟨state, _, ⟨hstate, rfl⟩, h⟩ := h
    cases h
    obtain ⟨htag, hvisible⟩ := apply_load_only_tag hstate
    exact .same htag hvisible rfl
  · simp only [bind_ok, check_ok] at h
    obtain ⟨state, _, ⟨hstate, rfl⟩, h⟩ := h
    obtain ⟨htag, hvisible⟩ := apply_scheduled_tag hstate
    cases hmode : engine.timelineMode with
    | legacy =>
      simp only [hmode] at htag hvisible
      simp only [Engine.materializeScheduledChunk, hmode] at h
      cases h
      exact .same htag hvisible rfl
    | progressive =>
      simp only [hmode] at htag hvisible
      simp only [Engine.materializeScheduledChunk, hmode, bind_ok] at h
      obtain ⟨blocks, _, -, h⟩ := h
      cases h
      have hsame : Counts progress.state progress.totals { progress with state } :=
        .same htag hvisible rfl
      exact hsame.trans (Counts.materialized _ blocks)

theorem materialize_finished_counts {lookup : LookupMetrics} {finishMs : ℚ}
    {progress progress' : SliceProgress} {world world' : World C K}
    (h : engine.materializeFinishedRequest lookup finishMs progress world =
      .ok progress' world') :
    Counts progress.state progress.totals progress' ∧
      progress'.state.status = progress.state.status := by
  cases hmode : engine.timelineMode with
  | legacy =>
    simp only [Engine.materializeFinishedRequest, hmode, bind_ok] at h
    obtain ⟨blocks, _, -, h⟩ := h
    cases h
    exact ⟨.same rfl rfl rfl, rfl⟩
  | progressive =>
    simp only [Engine.materializeFinishedRequest, hmode, bind_ok] at h
    obtain ⟨blocks, _, -, h⟩ := h
    cases h
    exact ⟨.materialized _ blocks, (record_progressive_visible _ _).2.2⟩

/-- What serving one slice makes of a request: it is finished if and only if a metric goes
out. -/
structure Serves (requestsById : Dict String SimulationRequest) (state : RequestState)
    (totals : IterationTotals) (progress : SliceProgress)
    (metric : Option BatchAwareRequestMetrics) : Prop extends Counts state totals progress where
  finished_iff : progress.state.status = .finished ↔ metric.isSome
  emits : ∀ m ∈ metric, Emits requestsById progress.state m

theorem apply_slice_serves {startTimeMs finishMs : ℚ} {slice : ScheduledSlice}
    {contribution : IterationLatencyBreakdown} {state : RequestState} {lookup : LookupMetrics}
    {requestsById : Dict String SimulationRequest} {queue : SharedLinkFIFOTransferQueue}
    {totals : IterationTotals} {progress : SliceProgress}
    {metric : Option BatchAwareRequestMetrics} {world world' : World C K}
    (h : engine.applySlice startTimeMs finishMs slice contribution state lookup
      (requestsById.getItem state.requestId) queue totals world = .ok (progress, metric) world') :
    Serves requestsById state totals progress metric := by
  unfold Engine.applySlice at h
  simp only [bind_ok, check_ok] at h
  obtain ⟨charged, _, ⟨hcharge, rfl⟩, advanced, world₁, hadvance, hcomplete⟩ := h
  have hcounts := (charge_slice_counts hcharge).trans (advance_slice_counts hadvance)
  unfold Engine.completeSlice at hcomplete
  by_cases hfinished : advanced.state.status = .finished
  · rw [if_pos hfinished] at hcomplete
    have hemit {stored : SliceProgress} {world₂ : World C K}
        (hstored : Counts advanced.state advanced.totals stored ∧
          stored.state.status = advanced.state.status)
        (h : (do
          let request ← check (requestsById.getItem state.requestId)
          let metric ← check (buildRequestMetrics request stored.state lookup)
          return (stored, some metric) : Replay C K _) world₂ = .ok (progress, metric) world') :
        Serves requestsById state totals progress metric := by
      simp only [bind_ok, check_ok] at h
      obtain ⟨request, _, ⟨hrequest, rfl⟩, m, _, ⟨hm, rfl⟩, h⟩ := h
      cases h
      have hall := hcounts.trans hstored.1
      have hid : progress.state.requestId = state.requestId := congrArg Tag.requestId hall.tag_eq
      refine ⟨hall, by simp [hstored.2, hfinished], ?_⟩
      intro m' hm'
      cases hm'
      exact emits_of_build (hid ▸ Dict.getItem_ok hrequest) hm
    split_ifs at hcomplete
    · exact hemit ⟨.same rfl rfl rfl, rfl⟩ hcomplete
    · obtain ⟨stored, world₂, hstore, hcomplete⟩ := bind_ok.mp hcomplete
      exact hemit (materialize_finished_counts hstore) hcomplete
  · rw [if_neg hfinished] at hcomplete
    cases hmode : engine.timelineMode with
    | legacy =>
      simp only [hmode] at hcomplete
      cases hcomplete
      exact ⟨hcounts, by simp [hfinished], by simp⟩
    | progressive =>
      simp only [hmode] at hcomplete
      cases hcomplete
      exact ⟨hcounts.trans (.same rfl rfl rfl), by simp [hfinished], by simp⟩

/-- Queues and tables stay, and the only objects that change are those registered under the
ids of the slices. -/
structure Locals.Applies (locals locals' : Locals) (slices : List ScheduledSlice) : Prop where
  waiting_eq : locals'.waiting = locals.waiting
  running_eq : locals'.running = locals.running
  states_eq : locals'.statesById = locals.statesById
  requests_eq : locals'.requestsById = locals.requestsById
  iterations_eq : locals'.iterationMetrics = locals.iterationMetrics
  tag_eq : ∀ ref, (locals'.heap ref).tag = (locals.heap ref).tag
  untouched : ∀ ref, (∀ slice ∈ slices, locals.statesById.lookup slice.requestId ≠ some ref) →
    locals'.heap ref = locals.heap ref

theorem forall₂_mem_right {α β : Type} {R : α → β → Prop} {as : List α} {bs : List β}
    (h : List.Forall₂ R as bs) {b : β} (hb : b ∈ bs) : ∃ a ∈ as, R a b := by
  induction h with
  | nil => simp at hb
  | @cons a b' as bs hab _ ih =>
    rcases List.mem_cons.mp hb with rfl | hb
    · exact ⟨a, List.mem_cons_self .., hab⟩
    · obtain ⟨a', ha', hab'⟩ := ih hb
      exact ⟨a', List.mem_cons_of_mem _ ha', hab'⟩

section ApplySlices

variable {startTimeMs finishMs : ℚ} {contributions : Dict String IterationLatencyBreakdown}
  {slices : List ScheduledSlice} {totals totals' : IterationTotals}
  {records records' : List SliceRecord} {locals locals' : Locals} {world world' : World C K}

theorem apply_slices_applies
    (h : engine.applySlices startTimeMs finishMs contributions slices totals records locals world =
      .ok (totals', records', locals') world') : locals.Applies locals' slices := by
  induction slices generalizing totals records locals world with
  | nil =>
    cases h
    exact ⟨rfl, rfl, rfl, rfl, rfl, fun _ ↦ rfl, fun _ _ ↦ rfl⟩
  | cons slice slices ih =>
    unfold Engine.applySlices at h
    simp only [bind_ok, check_ok] at h
    obtain ⟨ref, _, ⟨href, rfl⟩, lookup, _, ⟨-, rfl⟩, contribution, _, ⟨-, rfl⟩,
      ⟨progress, metric⟩, world₁, hslice, h⟩ := h
    have hserves := apply_slice_serves hslice
    have hrest := ih h
    refine ⟨hrest.waiting_eq, hrest.running_eq, hrest.states_eq, hrest.requests_eq,
      hrest.iterations_eq, ?_, ?_⟩
    · intro other
      exact (hrest.tag_eq other).trans (Heap.same_update RequestState.tag hserves.tag_eq other)
    · intro other hother
      obtain ⟨hfirst, hslices⟩ := List.forall_mem_cons.mp hother
      have hne : other ≠ ref := by
        rintro rfl
        exact hfirst (Dict.getItem_ok href)
      exact (hrest.untouched other hslices).trans (Function.update_of_ne hne _ _)

/-- What serving the slices makes of requests that are registered under their own ids. -/
theorem apply_slices_serves {scheduled : List ℕ}
    (hids : List.Forall₂ (fun ref (slice : ScheduledSlice) ↦
      slice.requestId = (locals.heap ref).requestId) scheduled slices)
    (hstates : ∀ ref ∈ scheduled,
      locals.statesById.lookup (locals.heap ref).requestId = some ref)
    (hnodup : scheduled.Nodup)
    (h : engine.applySlices startTimeMs finishMs contributions slices totals records locals world =
      .ok (totals', records', locals') world') :
    ∃ done metrics, locals'.requestMetrics = locals.requestMetrics ++ metrics ∧
      done.Sublist scheduled ∧
      (∀ ref ∈ scheduled, (locals'.heap ref).status = .finished ↔ ref ∈ done) ∧
      List.Forall₂ (fun ref ↦ Emits locals.requestsById (locals'.heap ref)) done metrics ∧
      totals'.visible + (scheduled.map fun ref ↦ (locals.heap ref).visible).sum =
        totals.visible + (scheduled.map fun ref ↦ (locals'.heap ref).visible).sum := by
  induction slices generalizing scheduled totals records locals world with
  | nil =>
    cases hids
    cases h
    exact ⟨[], [], (List.append_nil _).symm, .slnil, by simp, .nil, rfl⟩
  | cons slice slices ih =>
    obtain _ | @⟨ref, _, refs, _, hid, hids'⟩ := hids
    obtain ⟨hfresh, hnodup'⟩ := List.nodup_cons.mp hnodup
    obtain ⟨hstate, hstates'⟩ := List.forall_mem_cons.mp hstates
    unfold Engine.applySlices at h
    simp only [bind_ok, check_ok] at h
    obtain ⟨ref', _, ⟨href, rfl⟩, lookup, _, ⟨-, rfl⟩, contribution, _, ⟨-, rfl⟩,
      ⟨progress, metric⟩, world₁, hslice, h⟩ := h
    have hregistered := Dict.getItem_ok href
    rw [hid, hstate] at hregistered
    cases hregistered
    have hserves := apply_slice_serves hslice
    have hother : ∀ other ∈ refs,
        Function.update locals.heap ref progress.state other = locals.heap other := by
      intro other hmem
      refine Function.update_of_ne ?_ _ _
      rintro rfl
      exact hfresh hmem
    have htag : ∀ other,
        (Function.update locals.heap ref progress.state other).tag = (locals.heap other).tag :=
      Heap.same_update RequestState.tag hserves.tag_eq
    have hid₁ : ∀ other, (Function.update locals.heap ref progress.state other).requestId =
        (locals.heap other).requestId := fun other ↦ congrArg Tag.requestId (htag other)
    have hstates₁ : ∀ other ∈ refs, locals.statesById.lookup
        (Function.update locals.heap ref progress.state other).requestId = some other := by
      intro other hmem
      rw [hid₁]
      exact hstates' other hmem
    obtain ⟨done, metrics, hmetrics, hsub, hfinished, hemits, hvisible⟩ :=
      ih (hids'.imp fun other _ hslice ↦ hslice.trans (hid₁ other).symm) hstates₁ hnodup' h
    -- the later slices do not reach this request
    have hkept : locals'.heap ref = progress.state := by
      refine ((apply_slices_applies h).untouched ref ?_).trans (Function.update_self ..)
      intro later hlater heq
      obtain ⟨other, hmem, hlater⟩ := forall₂_mem_right hids' hlater
      rw [hlater] at heq
      have hsame := (hstates' other hmem).symm.trans heq
      cases hsame
      exact hfresh hmem
    have hsum : (refs.map fun other ↦
        (Function.update locals.heap ref progress.state other).visible) =
          refs.map fun other ↦ (locals.heap other).visible :=
      List.map_congr_left fun other hmem ↦ congrArg RequestState.visible (hother other hmem)
    dsimp only at hmetrics hemits hvisible
    rw [hsum] at hvisible
    have hcounts := hserves.visible_eq
    have htotal : totals'.visible +
        ((ref :: refs).map fun other ↦ (locals.heap other).visible).sum =
          totals.visible + ((ref :: refs).map fun other ↦ (locals'.heap other).visible).sum := by
      simp only [List.map_cons, List.sum_cons, hkept]
      rw [← add_assoc, ← add_assoc, ← hcounts, add_right_comm, hvisible, add_right_comm]
    cases metric with
    | none =>
      have hrunning : progress.state.status ≠ .finished := by
        simp [hserves.finished_iff]
      refine ⟨done, metrics, by simpa using hmetrics, hsub.cons _, ?_, hemits, htotal⟩
      refine List.forall_mem_cons.mpr ⟨?_, hfinished⟩
      rw [hkept]
      exact iff_of_false hrunning fun hmem ↦ hfresh (hsub.subset hmem)
    | some metric =>
      have hclosed : progress.state.status = .finished := by
        simp [hserves.finished_iff]
      refine ⟨ref :: done, metric :: metrics, by simpa using hmetrics, hsub.cons_cons _, ?_, ?_,
        htotal⟩
      · refine List.forall_mem_cons.mpr ⟨by simp [hkept, hclosed], fun other hmem ↦ ?_⟩
        rw [hfinished other hmem, List.mem_cons]
        refine ⟨.inr, fun hor ↦ hor.resolve_left ?_⟩
        rintro rfl
        exact hfresh hmem
      · refine .cons ?_ hemits
        rw [hkept]
        exact hserves.emits metric rfl

end ApplySlices

end InferTwin
