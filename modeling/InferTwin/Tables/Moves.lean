import InferTwin.Server.Slice
import InferTwin.Tables.Iteration

namespace InferTwin

open Effect

variable {C K : Type} {engine : Engine C K}

namespace RequestState

/-- A request goes on under its tag with the lookup it had, and does not come back once it has
finished; its KV load may have been handed to a slice. -/
structure Moves (state state' : RequestState) : Prop where
  tag_eq : state'.tag = state.tag
  blocks_eq : state'.promptBlocks = state.promptBlocks
  done_eq : state'.cacheLookupDone = state.cacheLookupDone
  miss_eq : state'.missTokens = state.missTokens
  load : state'.pendingLoad = state.pendingLoad ∨ state'.pendingLoad = (0, 0)
  finished : state.status = .finished → state'.status = .finished

namespace Moves

variable {state state' state'' : RequestState}

theorem refl (state : RequestState) : state.Moves state := ⟨rfl, rfl, rfl, rfl, .inl rfl, id⟩

theorem trans (h : state.Moves state') (h' : state'.Moves state'') : state.Moves state'' where
  tag_eq := h'.tag_eq.trans h.tag_eq
  blocks_eq := h'.blocks_eq.trans h.blocks_eq
  done_eq := h'.done_eq.trans h.done_eq
  miss_eq := h'.miss_eq.trans h.miss_eq
  load := by
    rcases h'.load with hload | hload
    · rw [hload]
      exact h.load
    · exact .inr hload
  finished hf := h'.finished (h.finished hf)

theorem id_eq (h : state.Moves state') : state'.requestId = state.requestId :=
  congrArg Tag.requestId h.tag_eq

theorem prompt_eq (h : state.Moves state') : state'.promptTokens = state.promptTokens :=
  congrArg Tag.promptTokens h.tag_eq

theorem looked_up (h : state.Moves state') : state'.LookedUp ↔ state.LookedUp := by
  constructor
  · intro hlooked
    exact ⟨h.done_eq ▸ hlooked.done, h.miss_eq ▸ hlooked.miss⟩
  · intro hlooked
    exact ⟨h.done_eq.trans hlooked.done, (congrArg Option.isSome h.miss_eq).trans hlooked.miss⟩

theorem load_eq (h : state.Moves state') (hload : state.pendingLoad = (0, 0)) :
    state'.pendingLoad = (0, 0) := by
  rcases h.load with heq | heq
  · rw [heq, hload]
  · exact heq

/-- Labels and materialized blocks do not matter. -/
theorem of_unlabelled (h : state'.unlabelled = state.unlabelled) : state.Moves state' where
  tag_eq := (congrArg tag h :)
  blocks_eq := (congrArg promptBlocks h :)
  done_eq := (congrArg cacheLookupDone h :)
  miss_eq := (congrArg missTokens h :)
  load := .inl (congrArg pendingLoad h :)
  finished hf := ((congrArg status h :) : state'.status = state.status).trans hf

end Moves

theorem Rests.moves {state state' : RequestState} (h : state.Rests state') : state.Moves state' :=
  ⟨h.tag_eq, congrArg Prospect.promptBlocks h.prospect_eq, h.done_eq, h.miss_eq, h.load,
    h.finished_iff.mpr⟩

/-- A slice without tokens has found nothing left to compute, and has made nothing visible
unless there was something to materialize. -/
structure Idles (lookup : LookupMetrics) (state state' : RequestState) : Prop where
  remaining_eq : state.remaining = 0
  computed_eq : state'.numComputedTokens = state.numComputedTokens
  visible_eq : lookup.materializationBlocks = [] → state'.visible = state.visible

theorem apply_load_only_ok {state state' : RequestState} {finishMs : ℚ}
    (h : state.applyLoadOnlyIteration finishMs = .ok state') :
    state.LookedUp ∧ state.remaining = 0 ∧ state' = { state with
      scheduledIterationCount := state.scheduledIterationCount + 1
      status := .finished
      timelineState := .finished
      finishTimeMs := some finishMs } := by
  have hlooked : state.LookedUp := by
    unfold applyLoadOnlyIteration at h
    obtain ⟨_, hrequire, -⟩ := except_bind_ok.mp h
    exact require_ok_iff.mp hrequire
  rw [hlooked.apply_load_only_eq] at h
  split_ifs at h with _ hleft
  cases h
  exact ⟨hlooked, not_not.mp hleft, rfl⟩

theorem apply_scheduled_moves {state state' : RequestState} {tokens : ℕ} {finishMs : ℚ}
    (h : state.applyScheduledTokens tokens finishMs = .ok state') :
    state.LookedUp ∧ state.Moves state' := by
  have hlooked : state.LookedUp := by
    unfold applyScheduledTokens at h
    obtain ⟨_, hrequire, -⟩ := except_bind_ok.mp h
    exact require_ok_iff.mp hrequire
  rw [hlooked.apply_scheduled_eq] at h
  split_ifs at h
  cases h
  refine ⟨hlooked, rfl, rfl, rfl, rfl, .inl rfl, fun hf ↦ ?_⟩
  unfold scheduled
  dsimp only
  split_ifs
  · rfl
  · exact hf

end RequestState

theorem advance_slice_moves {slice : ScheduledSlice} {lookup : LookupMetrics} {finishMs : ℚ}
    {progress progress' : SliceProgress} {world world' : World C K}
    (h : engine.advanceSlice slice lookup finishMs progress world = .ok progress' world') :
    progress.state.LookedUp ∧ progress.state.Moves progress'.state ∧
      (slice.scheduledPrefillTokens = 0 → progress'.state.status = .finished ∧
        progress.state.remaining = 0 ∧
        progress'.state.numComputedTokens = progress.state.numComputedTokens ∧
        progress'.state.visible = progress.state.visible) := by
  unfold Engine.advanceSlice at h
  split_ifs at h with hidle
  · simp only [bind_ok, check_ok] at h
    obtain ⟨state, _, ⟨hstate, rfl⟩, h⟩ := h
    cases h
    obtain ⟨hlooked, hleft, rfl⟩ := RequestState.apply_load_only_ok hstate
    exact ⟨hlooked, ⟨rfl, rfl, rfl, rfl, .inl rfl, fun _ ↦ rfl⟩, fun _ ↦ ⟨rfl, hleft, rfl, rfl⟩⟩
  · simp only [bind_ok, check_ok] at h
    obtain ⟨state, _, ⟨hstate, rfl⟩, h⟩ := h
    obtain ⟨hlooked, hmoves⟩ := RequestState.apply_scheduled_moves hstate
    have hstarted : progress.state.LookedUp ∧ progress.state.Moves state := by
      cases hmode : engine.timelineMode with
      | legacy =>
        rw [hmode] at hlooked hmoves
        exact ⟨hlooked, hmoves⟩
      | progressive =>
        rw [hmode] at hlooked hmoves
        exact ⟨⟨hlooked.done, hlooked.miss⟩, hmoves.tag_eq, hmoves.blocks_eq, hmoves.done_eq,
          hmoves.miss_eq, hmoves.load, hmoves.finished⟩
    refine ⟨hstarted.1, ?_, fun hzero ↦ absurd hzero hidle⟩
    cases hmode : engine.timelineMode with
    | legacy =>
      simp only [Engine.materializeScheduledChunk, hmode] at h
      cases h
      exact hstarted.2
    | progressive =>
      simp only [Engine.materializeScheduledChunk, hmode, bind_ok] at h
      obtain ⟨blocks, _, -, h⟩ := h
      cases h
      exact hstarted.2.trans (.of_unlabelled (RequestState.record_progressive_unlabelled _ _))

theorem apply_slice_moves {startTimeMs finishMs : ℚ} {slice : ScheduledSlice}
    {contribution : IterationLatencyBreakdown} {state : RequestState} {lookup : LookupMetrics}
    {request : Except ReplayError SimulationRequest} {queue : SharedLinkFIFOTransferQueue}
    {totals : IterationTotals} {progress : SliceProgress}
    {metric : Option BatchAwareRequestMetrics} {world world' : World C K}
    (h : engine.applySlice startTimeMs finishMs slice contribution state lookup request queue
      totals world = .ok (progress, metric) world') :
    state.LookedUp ∧ state.Moves progress.state ∧
      (slice.scheduledPrefillTokens = 0 → state.Idles lookup progress.state) := by
  unfold Engine.applySlice at h
  simp only [bind_ok, check_ok] at h
  obtain ⟨charged, _, ⟨hcharge, rfl⟩, advanced, world₁, hadvance, hcomplete⟩ := h
  have hcharged := (charge_slice_ok hcharge).state_eq
  have hstart : state.Moves charged.state := by
    rw [hcharged]
    exact ⟨rfl, rfl, rfl, rfl, .inl rfl, id⟩
  obtain ⟨hlooked, hmoves, hidle⟩ := advance_slice_moves hadvance
  have hend := (complete_slice_ok
    (show advanced.state.status = .finished → state.promptTokens = state.promptTokens from
      fun _ ↦ rfl) hcomplete).1
  refine ⟨hstart.looked_up.mp hlooked, (hstart.trans hmoves).trans (.of_unlabelled hend), ?_⟩
  intro hzero
  obtain ⟨hfinished, hleft, hcomputed, hvisible⟩ := hidle hzero
  refine ⟨?_, ?_, fun hnone ↦ ?_⟩
  · rw [hcharged] at hleft
    exact hleft
  · have hsame : progress.state.numComputedTokens = advanced.state.numComputedTokens :=
      (congrArg RequestState.numComputedTokens hend :)
    rw [hsame, hcomputed, hcharged]
  · unfold Engine.completeSlice at hcomplete
    rw [if_pos hfinished, if_pos hnone] at hcomplete
    simp only [pure_bind, bind_ok, check_ok] at hcomplete
    obtain ⟨_, _, -, _, _, -, hcomplete⟩ := hcomplete
    cases hcomplete
    rw [hvisible, hcharged]
    rfl

end InferTwin
