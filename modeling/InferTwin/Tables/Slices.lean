import InferTwin.Tables.Tag

namespace InferTwin

open Effect

variable {C K : Type} {engine : Engine C K}

section Scheduling

variable {config : SchedulerConfig}

/-- A slice that was built for a request: it fits into what the request lacks, and one without
tokens carries a KV load. -/
structure RequestState.Supplies (state : RequestState) (slice : ScheduledSlice) : Prop where
  id_eq : slice.requestId = state.requestId
  looked_up : state.LookedUp
  fits : slice.scheduledPrefillTokens ≤ state.remaining
  works : slice.scheduledPrefillTokens = 0 → state.pendingLoad ≠ (0, 0)

theorem RequestState.Rests.supplies {state state' : RequestState} {slice : ScheduledSlice}
    (h : state.Rests state') (hslice : state'.Supplies slice) : state.Supplies slice where
  id_eq := hslice.id_eq.trans h.id_eq
  looked_up := h.looked_up.mp hslice.looked_up
  fits := h.remaining_eq ▸ hslice.fits
  works hzero hload := hslice.works hzero (h.load_eq hload)

theorem consumed_rests (state : RequestState) :
    state.Rests state.consumed ∧ state.consumed.pendingLoad = (0, 0) := by
  unfold RequestState.consumed
  split_ifs with hload
  · exact ⟨.refl _, hload⟩
  · exact ⟨⟨⟨rfl, rfl, Iff.rfl⟩, rfl, .inr rfl⟩, rfl⟩

theorem slice_for_supplies {state state' : RequestState} {tokens : ℕ} {slice : ScheduledSlice}
    (h : sliceFor state tokens = .ok (slice, state')) :
    state.Supplies slice ∧ state.Rests state' ∧ state'.pendingLoad = (0, 0) := by
  have hlooked : state.LookedUp := by
    unfold sliceFor at h
    by_cases hcached : state.numComputedTokens < state.cachedTokens
    · rw [dif_pos hcached] at h
      cases h
    rw [dif_neg hcached] at h
    obtain ⟨_, hconsume, -⟩ := except_bind_ok.mp h
    obtain ⟨_, hpending, -⟩ := except_bind_ok.mp hconsume
    obtain ⟨_, hrequire, -⟩ := except_bind_ok.mp hpending
    exact RequestState.require_ok_iff.mp hrequire
  obtain ⟨hdescribes, rfl⟩ := slice_for_ok hlooked h
  refine ⟨⟨hdescribes.id_eq, hlooked, ?_, fun hzero hload ↦ ?_⟩, consumed_rests state⟩
  · have hafter := slice.after_le
    rw [slice.after_eq, hdescribes.before_eq, hdescribes.prompt_eq] at hafter
    unfold RequestState.remaining
    omega
  · have hpair := hdescribes.load_eq.trans hload
    exact slice.has_work ⟨hzero, congrArg Prod.fst hpair, congrArg Prod.snd hpair⟩

/-- Some requests of a queue were given slices, in its order. -/
structure Slices (heap heap' : Heap) (refs : List ℕ) (slices : List ScheduledSlice) : Prop where
  supplies : List.Forall₂ (fun ref ↦ (heap ref).Supplies) refs slices
  rests : ∀ ref, (heap ref).Rests (heap' ref)
  unfinished : ∀ ref ∈ refs, (heap ref).status ≠ .finished
  handed : ∀ ref ∈ refs, (heap' ref).pendingLoad = (0, 0)

theorem Slices.nil (heap : Heap) : Slices heap heap [] [] :=
  ⟨.nil, fun _ ↦ .refl _, by simp, by simp⟩

theorem Slices.continues {heap heap' : Heap} {refs : List ℕ} {slices : List ScheduledSlice}
    (h : Slices heap heap' refs slices) (ref : ℕ) : (heap ref).Continues (heap' ref) :=
  (h.rests ref).toContinues

theorem Slices.ids {heap heap' : Heap} {refs : List ℕ} {slices : List ScheduledSlice}
    (h : Slices heap heap' refs slices) :
    List.Forall₂ (fun ref (slice : ScheduledSlice) ↦
      slice.requestId = (heap ref).requestId) refs slices :=
  h.supplies.imp fun _ _ hslice ↦ hslice.id_eq

theorem Slices.cons {heap heap' : Heap} {ref : ℕ} {refs : List ℕ} {state : RequestState}
    {slice : ScheduledSlice} {slices : List ScheduledSlice}
    (hslice : (heap ref).Supplies slice) (hstate : (heap ref).Rests state)
    (hhanded : state.pendingLoad = (0, 0)) (hunfinished : (heap ref).status ≠ .finished)
    (h : Slices (Function.update heap ref state) heap' refs slices) :
    Slices heap heap' (ref :: refs) (slice :: slices) where
  supplies := .cons hslice (h.supplies.imp fun other _ hslice ↦
    (Heap.rests_update hstate other).supplies hslice)
  rests other := (Heap.rests_update hstate other).trans (h.rests other)
  unfinished := List.forall_mem_cons.mpr ⟨hunfinished, fun other hother hfinished ↦
    h.unfinished other hother ((Heap.rests_update hstate other).finished_iff.mpr hfinished)⟩
  handed := by
    refine List.forall_mem_cons.mpr ⟨(h.rests ref).load_eq ?_, h.handed⟩
    rw [Function.update_self]
    exact hhanded

theorem Slices.append {heap heap' heap'' : Heap} {refs refs' : List ℕ}
    {slices slices' : List ScheduledSlice} (h : Slices heap heap' refs slices)
    (h' : Slices heap' heap'' refs' slices') :
    Slices heap heap'' (refs ++ refs') (slices ++ slices') where
  supplies := List.rel_append h.supplies (h'.supplies.imp fun ref _ hslice ↦
    (h.rests ref).supplies hslice)
  rests ref := (h.rests ref).trans (h'.rests ref)
  unfinished ref href hfinished := by
    rcases List.mem_append.mp href with href | href
    · exact h.unfinished ref href hfinished
    · exact h'.unfinished ref href ((h.rests ref).finished_iff.mpr hfinished)
  handed ref href := by
    rcases List.mem_append.mp href with href | href
    · exact (h'.rests ref).load_eq (h.handed ref href)
    · exact h'.handed ref href

theorem schedule_running_slices {refs : List ℕ} {budget budget' : ℕ}
    {slices slices' : List ScheduledSlice} {heap heap' : Heap}
    (h : scheduleRunning config refs budget slices heap = .ok (budget', slices', heap')) :
    ∃ scheduled new, slices' = slices ++ new ∧ scheduled.Sublist refs ∧
      Slices heap heap' scheduled new := by
  induction refs generalizing budget slices heap with
  | nil =>
    cases h
    exact ⟨[], [], (List.append_nil _).symm, .slnil, .nil _⟩
  | cons ref refs ih =>
    have hskip {budget : ℕ} (h : scheduleRunning config refs budget slices heap =
        .ok (budget', slices', heap')) :
        ∃ scheduled new, slices' = slices ++ new ∧ scheduled.Sublist (ref :: refs) ∧
          Slices heap heap' scheduled new := by
      obtain ⟨scheduled, new, heq, hsub, hslices⟩ := ih h
      exact ⟨scheduled, new, heq, hsub.cons _, hslices⟩
    have hstop (h : (Except.ok (budget, slices, heap) :
        Except ReplayError (ℕ × List ScheduledSlice × Heap)) = .ok (budget', slices', heap')) :
        ∃ scheduled new, slices' = slices ++ new ∧ scheduled.Sublist (ref :: refs) ∧
          Slices heap heap' scheduled new := by
      cases h
      exact ⟨[], [], (List.append_nil _).symm, List.nil_sublist _, .nil _⟩
    unfold scheduleRunning at h
    by_cases hfull : slices.length ≥ config.maxNumSeqs
    · rw [if_pos hfull] at h
      exact hstop h
    rw [if_neg hfull] at h
    by_cases hstatus : (heap ref).status ≠ .running
    · rw [if_pos hstatus] at h
      exact hskip h
    rw [if_neg hstatus] at h
    obtain ⟨loadOnly, -, h⟩ := except_bind_ok.mp h
    by_cases hspent : budget = 0 ∧ loadOnly = false
    · rw [if_pos hspent] at h
      exact hstop h
    rw [if_neg hspent] at h
    obtain ⟨planned, -, h⟩ := except_bind_ok.mp h
    by_cases hnone : planned = 0 ∧ loadOnly = false
    · rw [if_pos hnone] at h
      exact hskip h
    rw [if_neg hnone] at h
    obtain ⟨⟨slice, state⟩, hslice, h⟩ := except_bind_ok.mp h
    obtain ⟨hsupplies, hstate, hhanded⟩ := slice_for_supplies hslice
    obtain ⟨scheduled, new, heq, hsub, hslices⟩ := ih h
    refine ⟨ref :: scheduled, slice :: new, ?_, hsub.cons_cons _,
      hslices.cons hsupplies hstate hhanded ?_⟩
    · rw [heq, List.append_assoc, List.singleton_append]
    · rw [not_not.mp hstatus]
      decide

theorem schedule_waiting_slices {startTimeMs : ℚ} {refs running : List ℕ} {budget : ℕ}
    {slices slices' : List ScheduledSlice} {heap : Heap} {admission : Admission}
    (h : scheduleWaiting config startTimeMs refs running budget slices heap =
      .ok (slices', admission)) :
    ∃ scheduled new, slices' = slices ++ new ∧ refs = scheduled ++ admission.waiting ∧
      admission.running = running ++ scheduled ∧ Slices heap admission.heap scheduled new := by
  induction refs generalizing running budget slices heap with
  | nil =>
    cases h
    exact ⟨[], [], (List.append_nil _).symm, rfl, (List.append_nil _).symm, .nil _⟩
  | cons ref refs ih =>
    have hstop (h : (Except.ok (slices, ⟨ref :: refs, running, heap⟩) :
        Except ReplayError (List ScheduledSlice × Admission)) = .ok (slices', admission)) :
        ∃ scheduled new, slices' = slices ++ new ∧ ref :: refs = scheduled ++ admission.waiting ∧
          admission.running = running ++ scheduled ∧
            Slices heap admission.heap scheduled new := by
      cases h
      exact ⟨[], [], (List.append_nil _).symm, rfl, (List.append_nil _).symm, .nil _⟩
    unfold scheduleWaiting at h
    by_cases hfull : slices.length ≥ config.maxNumSeqs
    · rw [if_pos hfull] at h
      exact hstop h
    rw [if_neg hfull] at h
    by_cases hstatus : (heap ref).status ≠ .waiting
    · rw [if_pos hstatus] at h
      cases h
    rw [if_neg hstatus] at h
    by_cases hunseen : budget = 0 ∧ (heap ref).cacheLookupDone = false
    · rw [if_pos hunseen] at h
      exact hstop h
    rw [if_neg hunseen] at h
    obtain ⟨loadOnly, -, h⟩ := except_bind_ok.mp h
    by_cases hspent : budget = 0 ∧ loadOnly = false
    · rw [if_pos hspent] at h
      exact hstop h
    rw [if_neg hspent] at h
    obtain ⟨planned, -, h⟩ := except_bind_ok.mp h
    by_cases hnone : planned = 0 ∧ loadOnly = false
    · rw [if_pos hnone] at h
      exact hstop h
    rw [if_neg hnone] at h
    obtain ⟨⟨slice, state⟩, hslice, h⟩ := except_bind_ok.mp h
    obtain ⟨hsupplies, hstate, hhanded⟩ := slice_for_supplies hslice
    have hunfinished : (heap ref).status ≠ .finished := by
      rw [not_not.mp hstatus]
      decide
    have hadmitted : (heap ref).Rests { heap ref with
        status := .running
        firstScheduledTimeMs := some ((heap ref).firstScheduledTimeMs.getD startTimeMs) } :=
      ⟨⟨rfl, rfl, iff_of_false (by simp) hunfinished⟩, rfl, .inl rfl⟩
    obtain ⟨scheduled, new, heq, hrefs, hrunning, hslices⟩ := ih h
    refine ⟨ref :: scheduled, slice :: new, ?_, ?_, ?_,
      hslices.cons (hadmitted.supplies hsupplies) (hadmitted.trans hstate) hhanded hunfinished⟩
    · rw [heq, List.append_assoc, List.singleton_append]
    · rw [hrefs, List.cons_append]
    · rw [hrunning, List.append_assoc, List.singleton_append]

/-- A call of the scheduler moves requests from the waiting queue to the running ones, and
gives slices to some of these. -/
theorem schedule_slices {instanceUuid : String} {iterationId : ℕ} {startTimeMs : ℚ}
    {waiting running : List ℕ} {heap : Heap} {shape : BatchShape} {admission : Admission}
    (h : schedule config instanceUuid iterationId startTimeMs waiting running heap =
      .ok (shape, admission)) :
    ∃ scheduled, Slices heap admission.heap scheduled shape.requestSlices ∧
      scheduled.Sublist (running ++ waiting) ∧ scheduled ⊆ admission.running ∧
      admission.running ⊆ running ++ scheduled ∧ admission.waiting ⊆ waiting ∧
      admission.running ++ admission.waiting = running ++ waiting := by
  unfold schedule at h
  obtain ⟨⟨budget, slices, heap₁⟩, hrunning, h⟩ := except_bind_ok.mp h
  obtain ⟨⟨slices', admission'⟩, hwaiting, h⟩ := except_bind_ok.mp h
  dsimp only at h
  split_ifs at h
  cases h
  obtain ⟨scheduled, new, heq, hsub, hslices⟩ := schedule_running_slices hrunning
  obtain ⟨scheduled', new', heq', hrefs, hadmitted, hslices'⟩ := schedule_waiting_slices hwaiting
  rw [List.nil_append] at heq
  subst heq heq'
  refine ⟨scheduled ++ scheduled', hslices.append hslices', ?_, ?_, ?_, ?_, ?_⟩
  · rw [hrefs]
    exact hsub.append (List.sublist_append_left _ _)
  · rw [hadmitted]
    exact List.append_subset.mpr ⟨List.Subset.trans hsub.subset (List.subset_append_left _ _),
      List.subset_append_right _ _⟩
  · rw [hadmitted, ← List.append_assoc]
    exact List.append_subset.mpr ⟨List.Subset.trans (List.subset_append_left _ _)
      (List.subset_append_left _ _), List.subset_append_right _ _⟩
  · rw [hrefs]
    exact List.subset_append_right _ _
  · rw [hadmitted, hrefs, List.append_assoc]

end Scheduling

theorem compute_wait_loop_rests {scheduledRequestIds seen : List String} {durationMs : ℚ}
    {refs : List ℕ} {wait wait' : ComputeWaitAccounting} {heap heap' : Heap}
    (h : computeWaitLoop scheduledRequestIds durationMs refs seen wait heap =
      .ok (wait', heap')) (ref : ℕ) : (heap ref).Rests (heap' ref) := by
  induction refs generalizing seen wait heap with
  | nil =>
    cases h
    exact .refl _
  | cons other refs ih =>
    unfold computeWaitLoop at h
    dsimp only at h
    split_ifs at h
    · exact ih h
    · exact ih h
    · obtain ⟨state, hstate, h⟩ := except_bind_ok.mp h
      have hrests : (heap other).Rests state := by
        unfold RequestState.recordComputeWait at hstate
        split_ifs at hstate
        cases hstate
        exact ⟨⟨rfl, rfl, Iff.rfl⟩, rfl, .inl rfl⟩
      exact (Heap.rests_update hrests ref).trans (ih h)

theorem compute_wait_rests {waiting running : List ℕ} {scheduledRequestIds : List String}
    {durationMs : ℚ} {timelineMode : TimelineMode} {wait : ComputeWaitAccounting}
    {heap heap' : Heap}
    (h : recordIterationComputeWait waiting running scheduledRequestIds durationMs timelineMode
      heap = .ok (wait, heap')) (ref : ℕ) : (heap ref).Rests (heap' ref) := by
  cases timelineMode with
  | legacy =>
    cases h
    exact .refl _
  | progressive => exact compute_wait_loop_rests h ref

end InferTwin
