import InferTwin.Tables.Tag

namespace InferTwin

open Effect

variable {C K : Type} {engine : Engine C K}

theorem set_cache_lookup_continues {state state' : RequestState} {cached miss tokens bytes : ℕ}
    (h : state.setCacheLookup cached miss tokens bytes = .ok state') : state.Continues state' := by
  unfold RequestState.setCacheLookup at h
  split_ifs at h
  cases h
  exact ⟨rfl, rfl, Iff.rfl⟩

theorem ensure_lookup_steady {nowMs : ℚ} {ref : ℕ} {request : SimulationRequest}
    {locals locals' : Locals} {world world' : World C K}
    (h : engine.ensureLookup nowMs ref request locals world = .ok locals' world') :
    locals.Steady locals' := by
  unfold Engine.ensureLookup at h
  split_ifs at h
  · cases h
    exact .refl _
  · obtain ⟨⟨state, metrics⟩, world₁, hlookup, h⟩ := bind_ok.mp h
    cases h
    simp only [Engine.lookupRequest, bind_ok, check_ok] at hlookup
    obtain ⟨_, _, -, _, _, -, _, _, -, _, _, -, _, _, ⟨hstate, -⟩, hpair⟩ := hlookup
    cases hpair
    exact ⟨rfl, rfl, rfl, rfl, rfl, rfl,
      Heap.continues_update (set_cache_lookup_continues hstate)⟩

theorem prepare_running_steady {nowMs : ℚ} {refs : List ℕ} {locals locals' : Locals}
    {world world' : World C K}
    (h : engine.prepareRunning nowMs refs locals world = .ok locals' world') :
    locals.Steady locals' := by
  induction refs generalizing locals world with
  | nil =>
    cases h
    exact .refl _
  | cons ref refs ih =>
    simp only [Engine.prepareRunning, bind_ok, check_ok] at h
    obtain ⟨request, _, ⟨-, rfl⟩, locals₁, world₁, hlookup, h⟩ := h
    exact (ensure_lookup_steady hlookup).trans (ih h)

/-- Some requests have left with a metric, and `dropped` ones without: these were finished
before. -/
structure Locals.Clears (locals locals' : Locals) (done dropped : List ℕ)
    (metrics : List BatchAwareRequestMetrics) : Prop where
  states_eq : locals'.statesById = locals.statesById
  requests_eq : locals'.requestsById = locals.requestsById
  iterations_eq : locals'.iterationMetrics = locals.iterationMetrics
  tag_eq : ∀ ref, (locals'.heap ref).tag = (locals.heap ref).tag
  visible_eq : ∀ ref, (locals'.heap ref).visible = (locals.heap ref).visible
  finished_iff : ∀ ref, (locals'.heap ref).status = .finished ↔
    (locals.heap ref).status = .finished ∨ ref ∈ done
  metrics_eq : locals'.requestMetrics = locals.requestMetrics ++ metrics
  emits : List.Forall₂ (fun ref ↦ Emits locals.requestsById (locals.heap ref)) done metrics
  unfinished : ∀ ref ∈ done, (locals.heap ref).status ≠ .finished
  dropped : ∀ ref ∈ dropped, (locals.heap ref).status = .finished

namespace Locals.Clears

variable {locals locals' locals'' : Locals} {done dropped done' dropped' : List ℕ}
  {metrics metrics' : List BatchAwareRequestMetrics}

theorem id_eq (h : locals.Clears locals' done dropped metrics) (ref : ℕ) :
    (locals'.heap ref).requestId = (locals.heap ref).requestId :=
  congrArg Tag.requestId (h.tag_eq ref)

theorem trans (h : locals.Clears locals' done dropped metrics)
    (h' : locals'.Clears locals'' done' dropped' metrics')
    (hapart : ∀ ref ∈ dropped', ref ∉ done) :
    locals.Clears locals'' (done ++ done') (dropped ++ dropped') (metrics ++ metrics') where
  states_eq := h'.states_eq.trans h.states_eq
  requests_eq := h'.requests_eq.trans h.requests_eq
  iterations_eq := h'.iterations_eq.trans h.iterations_eq
  tag_eq ref := (h'.tag_eq ref).trans (h.tag_eq ref)
  visible_eq ref := (h'.visible_eq ref).trans (h.visible_eq ref)
  finished_iff ref := by rw [h'.finished_iff, h.finished_iff, List.mem_append, or_assoc]
  metrics_eq := by rw [h'.metrics_eq, h.metrics_eq, List.append_assoc]
  emits := by
    refine List.rel_append h.emits (h'.emits.imp fun ref metric hemit ↦ ?_)
    rw [h.requests_eq] at hemit
    exact hemit.congr (h.id_eq ref) (h.visible_eq ref)
  unfinished ref href hfinished := by
    rcases List.mem_append.mp href with href | href
    · exact h.unfinished ref href hfinished
    · exact h'.unfinished ref href ((h.finished_iff ref).mpr (.inl hfinished))
  dropped ref href := by
    rcases List.mem_append.mp href with href | href
    · exact h.dropped ref href
    · exact ((h.finished_iff ref).mp (h'.dropped ref href)).resolve_right (hapart ref href)

theorem drop (h : locals.Clears locals' done dropped metrics) {ref : ℕ}
    (hfinished : (locals.heap ref).status = .finished) :
    locals.Clears locals' done (ref :: dropped) metrics :=
  { h with dropped := List.forall_mem_cons.mpr ⟨hfinished, h.dropped⟩ }

end Locals.Clears

theorem Locals.Steady.clears {locals locals' : Locals} (h : locals.Steady locals')
    (waiting : List ℕ) : locals.Clears { locals' with waiting } [] [] [] where
  states_eq := h.states_eq
  requests_eq := h.requests_eq
  iterations_eq := h.iterations_eq
  tag_eq ref := (h.heap ref).tag_eq
  visible_eq ref := (h.heap ref).visible_eq
  finished_iff ref := by simpa using (h.heap ref).finished_iff
  metrics_eq := by rw [h.metrics_eq, List.append_nil]
  emits := .nil
  unfinished := by simp
  dropped := by simp

/-- A request finishes without an iteration, unless it has finished before. -/
theorem finish_zero_miss_clears {nowMs : ℚ} {ref : ℕ} {request : SimulationRequest}
    {lookup : LookupMetrics} {locals locals' : Locals}
    (h : Engine.finishZeroMissRequest nowMs ref request lookup locals = .ok locals')
    (hrequest : locals.requestsById.lookup (locals.heap ref).requestId = some request) :
    (locals'.waiting = locals.waiting ∧ locals'.running = locals.running) ∧
    ((locals.heap ref).status = .finished ∧ locals' = locals ∨
      (locals.heap ref).status ≠ .finished ∧
        ∃ metric, locals.Clears locals' [ref] [] [metric]) := by
  unfold Engine.finishZeroMissRequest at h
  split_ifs at h with hfinished
  · cases h
    exact ⟨⟨rfl, rfl⟩, .inl ⟨hfinished, rfl⟩⟩
  · obtain ⟨metric, hmetric, h⟩ := except_bind_ok.mp h
    cases h
    refine ⟨⟨rfl, rfl⟩, .inr ⟨hfinished, metric, rfl, rfl, rfl, ?_, ?_, ?_, rfl, ?_, ?_, ?_⟩⟩
    · exact Heap.same_update RequestState.tag rfl
    · exact Heap.same_update RequestState.visible rfl
    · intro other
      rcases eq_or_ne other ref with rfl | hne
      · simp [finishZeroMiss]
      · simp [hne]
    · have hemits : Emits locals.requestsById (finishZeroMiss nowMs (locals.heap ref)) metric :=
        emits_of_build hrequest hmetric
      exact .cons (hemits.congr rfl rfl) .nil
    · simpa using hfinished
    · simp

/-- What the loop over the running requests finishes. -/
theorem finish_zero_miss_requests_clears {nowMs : ℚ} {refs : List ℕ} {locals locals' : Locals}
    (h : Engine.finishZeroMissRequests nowMs refs locals = .ok locals') :
    ∃ done metrics, locals.Clears locals' done [] metrics ∧ done.Sublist refs ∧
      locals'.waiting = locals.waiting ∧ locals'.running = locals.running := by
  induction refs generalizing locals with
  | nil =>
    cases h
    exact ⟨[], [], (Locals.Steady.refl _).clears _, .slnil, rfl, rfl⟩
  | cons ref refs ih =>
    have hskip (h : Engine.finishZeroMissRequests nowMs refs locals = .ok locals') :
        ∃ done metrics, locals.Clears locals' done [] metrics ∧ done.Sublist (ref :: refs) ∧
          locals'.waiting = locals.waiting ∧ locals'.running = locals.running := by
      obtain ⟨done, metrics, hclears, hsub, hqueues⟩ := ih h
      exact ⟨done, metrics, hclears, hsub.cons _, hqueues⟩
    unfold Engine.finishZeroMissRequests at h
    obtain ⟨remaining, -, h⟩ := except_bind_ok.mp h
    split_ifs at h with hr
    · exact hskip h
    obtain ⟨pendingKvLoad, -, h⟩ := except_bind_ok.mp h
    split_ifs at h with hload
    · exact hskip h
    obtain ⟨request, hrequest, h⟩ := except_bind_ok.mp h
    obtain ⟨lookup, -, h⟩ := except_bind_ok.mp h
    obtain ⟨locals₁, hfinish, h⟩ := except_bind_ok.mp h
    obtain ⟨⟨hwaiting, hrunning⟩, ⟨-, hsame⟩ | ⟨-, metric, hclears⟩⟩ :=
      finish_zero_miss_clears hfinish (Dict.getItem_ok hrequest)
    · rw [hsame] at h
      exact hskip h
    · obtain ⟨done, metrics, hclears', hsub, hwaiting', hrunning'⟩ := ih h
      exact ⟨ref :: done, metric :: metrics, hclears.trans hclears' (by simp), hsub.cons_cons _,
        hwaiting'.trans hwaiting, hrunning'.trans hrunning⟩

/-- What the scan of the waiting queue from `index` on finishes and drops. -/
theorem scan_waiting_clears {nowMs : ℚ} {index : ℕ} {refs front : List ℕ}
    {frontier frontier' : FrontierPlan} {locals locals' : Locals} {world world' : World C K}
    (hwaiting : locals.waiting = front ++ refs) (hindex : front.length = index)
    (hnodup : refs.Nodup)
    (h : engine.scanWaiting nowMs index refs frontier locals world =
      .ok (frontier', locals') world') :
    ∃ done dropped metrics kept, locals.Clears locals' done dropped metrics ∧
      locals'.running = locals.running ∧ locals'.waiting = front ++ kept ∧
      (done ++ dropped ++ kept).Perm refs := by
  induction refs generalizing index front frontier locals world with
  | nil =>
    unfold Engine.scanWaiting at h
    cases h
    exact ⟨[], [], [], [], (Locals.Steady.refl _).clears _, rfl, hwaiting, .refl _⟩
  | cons ref refs ih =>
    obtain ⟨hfresh, hnodup'⟩ := List.nodup_cons.mp hnodup
    -- a scan that goes no further leaves the rest of the queue as it is
    have hstop {locals' : Locals} (hsteady : locals.Steady locals') :
        ∃ done dropped metrics kept, locals.Clears locals' done dropped metrics ∧
          locals'.running = locals.running ∧ locals'.waiting = front ++ kept ∧
          (done ++ dropped ++ kept).Perm (ref :: refs) :=
      ⟨[], [], [], ref :: refs, hsteady.clears _, hsteady.running_eq,
        hsteady.waiting_eq.trans hwaiting, .refl _⟩
    -- a request that is counted stays where it is
    have hcount {locals₁ : Locals} {world₁ : World C K} {frontier₁ : FrontierPlan}
        (hsteady : locals.Steady locals₁)
        (h : engine.scanWaiting nowMs (index + 1) refs frontier₁ locals₁ world₁ =
          .ok (frontier', locals') world') :
        ∃ done dropped metrics kept, locals.Clears locals' done dropped metrics ∧
          locals'.running = locals.running ∧ locals'.waiting = front ++ kept ∧
          (done ++ dropped ++ kept).Perm (ref :: refs) := by
      have hwaiting₁ : locals₁.waiting = (front ++ [ref]) ++ refs := by
        rw [hsteady.waiting_eq, hwaiting, List.append_assoc, List.singleton_append]
      obtain ⟨done, dropped, metrics, kept, hclears, hrunning, hkept, hperm⟩ :=
        ih hwaiting₁ (by simp [hindex]) hnodup' h
      refine ⟨done, dropped, metrics, ref :: kept, ?_, hrunning.trans hsteady.running_eq, ?_, ?_⟩
      · exact (hsteady.clears _).trans hclears (by simp)
      · rw [hkept, List.append_assoc, List.singleton_append]
      · exact List.perm_middle.trans (hperm.cons ref)
    unfold Engine.scanWaiting at h
    by_cases hfull : frontier.plannedSlices ≥ engine.config.maxNumSeqs
    · rw [if_pos hfull] at h
      cases h
      exact hstop (.refl _)
    rw [if_neg hfull] at h
    simp only [bind_ok, check_ok] at h
    obtain ⟨request, _, ⟨-, rfl⟩, locals₁, world₁, hlookup, remaining, _, ⟨-, rfl⟩, h⟩ := h
    have hsteady := ensure_lookup_steady hlookup
    by_cases hr : remaining = 0
    · rw [if_pos hr] at h
      simp only [bind_ok, check_ok] at h
      obtain ⟨pendingKvLoad, _, ⟨-, rfl⟩, h⟩ := h
      split_ifs at h with hload
      · exact hcount hsteady h
      simp only [bind_ok, check_ok] at h
      obtain ⟨request', _, ⟨hrequest, rfl⟩, lookup, _, ⟨-, rfl⟩, locals₂, _, ⟨hfinish, rfl⟩, h⟩ := h
      have herase : (locals₁.waiting.eraseIdx index) = front ++ refs := by
        rw [hsteady.waiting_eq, hwaiting, ← hindex,
          List.eraseIdx_append_of_length_le (le_refl _), Nat.sub_self, List.eraseIdx_cons_zero]
      have hclears₁ := hsteady.clears (locals₁.waiting.eraseIdx index)
      obtain ⟨⟨hwaiting₂, hrunning₂⟩, hends⟩ :=
        finish_zero_miss_clears hfinish (Dict.getItem_ok hrequest)
      obtain ⟨done, dropped, metrics, kept, hclears, hrunning, hkept, hperm⟩ :=
        ih (hwaiting₂.trans herase) hindex hnodup' h
      have hrunning' := hrunning.trans (hrunning₂.trans hsteady.running_eq)
      have hother : ref ∉ done ++ dropped ++ kept := fun hmem ↦ hfresh (hperm.mem_iff.mp hmem)
      simp only [List.mem_append, not_or] at hother
      rcases hends with ⟨hfinished, rfl⟩ | ⟨-, metric, hclears₂⟩
      · refine ⟨done, ref :: dropped, metrics, kept, ?_, hrunning', hkept, ?_⟩
        · refine (hclears₁.trans hclears (by simp)).drop ?_
          exact (hsteady.heap ref).finished_iff.mp hfinished
        · simpa [List.append_assoc] using List.perm_middle.trans (by simpa using hperm.cons ref)
      · refine ⟨ref :: done, dropped, metric :: metrics, kept, ?_, hrunning', hkept, ?_⟩
        · refine hclears₁.trans (hclears₂.trans hclears ?_) (by simp)
          rintro other hmem heq
          exact hother.1.2 (List.mem_singleton.mp heq ▸ hmem)
        · exact hperm.cons ref
    rw [if_neg hr] at h
    by_cases hbudget : frontier.tokenBudget = 0
    · rw [if_pos hbudget] at h
      cases h
      exact hstop hsteady
    · rw [if_neg hbudget] at h
      simp only [bind_ok, check_ok] at h
      obtain ⟨planned, _, ⟨-, rfl⟩, h⟩ := h
      split_ifs at h
      · cases h
        exact hstop hsteady
      · exact hcount hsteady h

/-- The running requests are those that are finished now, those that were finished before, and
those that go on. -/
theorem Locals.Clears.running_perm {locals locals' : Locals} {done : List ℕ}
    {metrics : List BatchAwareRequestMetrics} (h : locals.Clears locals' done [] metrics)
    {running : List ℕ} (hnodup : running.Nodup) (hsub : done.Sublist running) :
    (done ++ running.filter (fun ref ↦ (locals.heap ref).status = .finished) ++
      running.filter fun ref ↦ (locals'.heap ref).status ≠ .finished).Perm running := by
  refine (List.perm_ext_iff_of_nodup ?_ hnodup).mpr fun ref ↦ ?_
  · refine List.Nodup.append (List.Nodup.append (hnodup.sublist hsub) (hnodup.filter _) ?_)
      (hnodup.filter _) ?_
    · intro ref hdone hdropped
      exact h.unfinished ref hdone (of_decide_eq_true (List.mem_filter.mp hdropped).2)
    · intro ref hleft hkept
      refine of_decide_eq_true (List.mem_filter.mp hkept).2 ((h.finished_iff ref).mpr ?_)
      rcases List.mem_append.mp hleft with hdone | hdropped
      · exact .inr hdone
      · exact .inl (of_decide_eq_true (List.mem_filter.mp hdropped).2)
  · rw [List.mem_append, List.mem_append, List.mem_filter, List.mem_filter, decide_eq_true_iff,
      decide_eq_true_iff, ne_eq, h.finished_iff]
    constructor
    · rintro ((hdone | ⟨hrunning, -⟩) | ⟨hrunning, -⟩)
      · exact hsub.subset hdone
      · exact hrunning
      · exact hrunning
    · intro hrunning
      by_cases hfinished : (locals.heap ref).status = .finished
      · exact .inl (.inr ⟨hrunning, hfinished⟩)
      · by_cases hdone : ref ∈ done
        · exact .inl (.inl hdone)
        · exact .inr ⟨hrunning, fun hor ↦ hor.elim hfinished hdone⟩

/-- What the preparation of a batch makes of the active requests. -/
theorem frontier_clears {nowMs : ℚ} {plan : FrontierPlan} {locals locals' : Locals}
    {world world' : World C K} (hnodup : locals.active.Nodup)
    (h : engine.prepareSchedulerFrontier nowMs locals world = .ok (plan, locals') world') :
    ∃ done dropped metrics, locals.Clears locals' done dropped metrics ∧
      (done ++ dropped ++ locals'.active).Perm locals.active := by
  simp only [Engine.prepareSchedulerFrontier, bind_ok, check_ok] at h
  obtain ⟨locals₁, world₁, hprepare, locals₂, _, ⟨hfinish, rfl⟩, ⟨plan', locals₃⟩, world₂, hwait,
    h⟩ := h
  cases h
  have hsteady := prepare_running_steady hprepare
  obtain ⟨done, metrics, hclears₂, hsub, hwaiting₂, hrunning₂⟩ :=
    finish_zero_miss_requests_clears hfinish
  rw [hsteady.running_eq] at hsub hrunning₂
  rw [hsteady.waiting_eq] at hwaiting₂
  have hclears := (hsteady.clears locals₁.waiting).trans hclears₂ (by simp)
  have hperm := hclears.running_perm (hnodup.of_append_left) hsub
  rw [List.nil_append] at hperm hclears
  have hdropped : ∀ ref ∈ locals.running.filter fun ref ↦ (locals.heap ref).status = .finished,
      (locals.heap ref).status = .finished :=
    fun ref href ↦ of_decide_eq_true (List.mem_filter.mp href).2
  have hclears' : locals.Clears locals₂ done
      (locals.running.filter fun ref ↦ (locals.heap ref).status = .finished) metrics :=
    { hclears with dropped := hdropped }
  rw [hrunning₂] at hwait ⊢
  simp only [Engine.prepareWaitingFrontier, bind_ok, check_ok] at hwait
  obtain ⟨⟨full, plan⟩, _, ⟨-, rfl⟩, hwait⟩ := hwait
  have hapart : ∀ ref ∈ locals.waiting, ref ∉ done := fun ref href hdone ↦
    hnodup.disjoint (hsub.subset hdone) href
  cases full with
  | true =>
    cases hwait
    refine ⟨done, _, metrics, { hclears' with }, ?_⟩
    show (done ++ _ ++ (List.filter _ _ ++ locals₂.waiting)).Perm _
    rw [hwaiting₂, ← List.append_assoc]
    exact hperm.append_right _
  | false =>
    have hnodup₂ : locals₂.waiting.Nodup := by
      rw [hwaiting₂]
      exact hnodup.of_append_right
    obtain ⟨done', dropped', metrics', kept, hscan, hrunning₃, hwaiting₃, hperm'⟩ :=
      scan_waiting_clears (List.nil_append _).symm rfl hnodup₂ hwait
    rw [hwaiting₂] at hperm'
    have hall := hclears'.trans hscan fun ref href ↦ hapart ref (hperm'.subset (by simp [href]))
    refine ⟨done ++ done', _, metrics ++ metrics', { hall with }, ?_⟩
    show (_ ++ (List.filter _ _ ++ locals₃.waiting)).Perm (locals.running ++ locals.waiting)
    rw [hwaiting₃, List.nil_append, List.perm_iff_count]
    intro ref
    have hcount := hperm.count_eq ref
    have hcount' := hperm'.count_eq ref
    simp only [List.count_append] at hcount hcount' ⊢
    omega

end InferTwin
