import InferTwin.Cache.Repository
import InferTwin.Request.Tiling
import InferTwin.Tables.Balance
import InferTwin.Tables.Moves
import InferTwin.Tables.Turns

namespace InferTwin

open Effect

variable {C K : Type} {engine : Engine C K}

/-- A prompt that is cut into blocks, none of them empty. -/
structure MadeOf (promptTokens : ℕ) (promptBlocks : List PrefixBlock) : Prop where
  tokens_eq : promptTokens = blockTokens promptBlocks
  count_pos : ∀ block ∈ promptBlocks, 0 < block.tokenCount

/-- Without tokens there are no blocks. -/
theorem MadeOf.suffix_nil {promptTokens : ℕ} {hits misses : List PrefixBlock}
    (h : MadeOf promptTokens (hits ++ misses)) (hle : promptTokens ≤ blockTokens hits) :
    misses = [] := by
  have htokens := h.tokens_eq
  rw [blockTokens_append] at htokens
  cases misses with
  | nil => rfl
  | cons block misses =>
    have hpos := h.count_pos block (by simp)
    rw [blockTokens_cons] at htokens
    omega

theorem Tiled.count_pos {size : ℕ} {blocks : List PrefixBlock} (hpos : 0 < size)
    (h : Tiled size blocks) : ∀ block ∈ blocks, 0 < block.tokenCount := by
  induction h with
  | nil => simp
  | tail hcount _ => simpa using hcount
  | full hcount _ ih => exact List.forall_mem_cons.mpr ⟨hcount ▸ hpos, ih⟩

namespace RequestState

/-- A request that no slice with tokens has reached: nothing has become visible for it, and
what its lookup missed is still to be computed. -/
structure Unserved (state : RequestState) : Prop where
  visible_eq : state.visible = 0
  miss_eq : ∀ missTokens ∈ state.missTokens,
    state.numComputedTokens + missTokens = state.promptTokens

/-- A request that was not looked up. -/
structure Unlooked (state : RequestState) : Prop where
  done_eq : state.cacheLookupDone = false
  miss_eq : state.missTokens = none

theorem Moves.unlooked {state state' : RequestState} (h : state.Moves state')
    (hstate : state.Unlooked) : state'.Unlooked :=
  ⟨h.done_eq.trans hstate.done_eq, h.miss_eq.trans hstate.miss_eq⟩

theorem Moves.unserved {state state' : RequestState} (h : state.Moves state')
    (hvisible : state'.visible = state.visible)
    (hcomputed : state'.numComputedTokens = state.numComputedTokens)
    (hstate : state.Unserved) : state'.Unserved where
  visible_eq := hvisible.trans hstate.visible_eq
  miss_eq missTokens hmiss := by
    rw [hcomputed, h.prompt_eq]
    exact hstate.miss_eq missTokens (h.miss_eq ▸ hmiss)

theorem Rests.unserved {state state' : RequestState} (h : state.Rests state')
    (hstate : state.Unserved) : state'.Unserved :=
  h.moves.unserved h.visible_eq (congrArg Prospect.numComputedTokens h.prospect_eq) hstate

/-- An unserved request with nothing left to compute was missed nowhere. -/
theorem Unserved.miss_zero {state : RequestState} (h : state.Unserved) (hlooked : state.LookedUp)
    (hleft : state.remaining = 0) : state.missTokens = some 0 := by
  obtain ⟨missTokens, hmiss⟩ := Option.isSome_iff_exists.mp hlooked.miss
  have hsum := h.miss_eq missTokens hmiss
  unfold remaining at hleft
  rw [hmiss, Option.some.injEq]
  omega

end RequestState

/-- The active requests stand in the order of their arrival: running ones, which were looked
up and have handed over their KV load, before waiting ones, with nobody served from the first
of these on. The tables lead from an id to what arrived last under it, and everybody outside
the queues has finished. -/
structure Locals.Queued (locals : Locals) (count : ℕ) : Prop where
  sorted : locals.active.Pairwise (· < ·)
  active_lt : ∀ ref ∈ locals.active, ref < count
  newest : ∀ id ref, locals.statesById.lookup id = some ref → ref < count ∧
    (locals.heap ref).requestId = id ∧
    ∀ other ∈ locals.active, (locals.heap other).requestId = id → other ≤ ref
  present : ∀ ref < count, (locals.heap ref).status ≠ .finished → ref ∈ locals.active
  running : ∀ ref ∈ locals.running,
    (locals.heap ref).LookedUp ∧ (locals.heap ref).pendingLoad = (0, 0)
  unserved : ∀ first ∈ locals.waiting, ∀ ref, first ≤ ref → ref < count →
    (locals.heap ref).Unserved
  unlooked : ∀ first ∈ locals.waiting, (locals.heap first).cacheLookupDone = false →
    ∀ ref, first ≤ ref → ref < count → (locals.heap ref).Unlooked
  settled : ∀ id ref, locals.statesById.lookup id = some ref →
    (locals.heap ref).missTokens = some 0 →
      ∀ lookup ∈ locals.lookupById.lookup id, lookup.materializationBlocks = []
  made : ∀ ref < count, MadeOf (locals.heap ref).promptTokens (locals.heap ref).promptBlocks

namespace Locals.Queued

variable {locals locals' : Locals} {count : ℕ}

theorem nodup (h : locals.Queued count) : locals.active.Nodup :=
  h.sorted.imp fun hlt ↦ hlt.ne

theorem numbered (h : locals.Queued count) : locals.Numbered count where
  nodup := h.nodup
  active_lt := h.active_lt
  keys id ref hlookup := ⟨(h.newest id ref hlookup).1, (h.newest id ref hlookup).2.1⟩

/-- Requests go on, some of them away from the queues. -/
theorem moves (h : locals.Queued count) (hactive : locals'.active.Sublist locals.active)
    (hwaiting : locals'.waiting ⊆ locals.waiting)
    (hstates : locals'.statesById = locals.statesById)
    (hlookups : locals'.lookupById = locals.lookupById)
    (hheap : ∀ ref, (locals.heap ref).Moves (locals'.heap ref))
    (hpresent : ∀ ref ∈ locals.active, (locals'.heap ref).status ≠ .finished →
      ref ∈ locals'.active)
    (hrunning : ∀ ref ∈ locals'.running,
      (locals'.heap ref).LookedUp ∧ (locals'.heap ref).pendingLoad = (0, 0))
    (hunserved : ∀ first ∈ locals'.waiting, ∀ ref, first ≤ ref → ref < count →
      (locals.heap ref).Unserved → (locals'.heap ref).Unserved) : locals'.Queued count where
  sorted := h.sorted.sublist hactive
  active_lt ref href := h.active_lt ref (hactive.subset href)
  newest id ref hlookup := by
    rw [hstates] at hlookup
    obtain ⟨hlt, hid, hlast⟩ := h.newest id ref hlookup
    refine ⟨hlt, (hheap ref).id_eq.trans hid, fun other hother hsame ↦ ?_⟩
    exact hlast other (hactive.subset hother) ((hheap other).id_eq.symm.trans hsame)
  present ref href hunfinished :=
    hpresent ref (h.present ref href fun hf ↦ hunfinished ((hheap ref).finished hf)) hunfinished
  running := hrunning
  unserved first hfirst ref hle hlt :=
    hunserved first hfirst ref hle hlt (h.unserved first (hwaiting hfirst) ref hle hlt)
  unlooked first hfirst hnot ref hle hlt :=
    (hheap ref).unlooked (h.unlooked first (hwaiting hfirst)
      ((hheap first).done_eq.symm.trans hnot) ref hle hlt)
  settled id ref hlookup hmiss := by
    rw [hstates] at hlookup
    rw [hlookups]
    exact h.settled id ref hlookup ((hheap ref).miss_eq.symm.trans hmiss)
  made ref href := by
    rw [(hheap ref).prompt_eq, (hheap ref).blocks_eq]
    exact h.made ref href

/-- Somebody arrives. -/
theorem admits (h : locals.Queued count) {request : SimulationRequest}
    (hmade : MadeOf request.promptTokens request.promptBlocks)
    (hadmits : locals.Admits locals' request count) : locals'.Queued (count + 1) := by
  obtain ⟨state, htag, hstatus, hvisible, hheap⟩ := hadmits.state
  have hself : locals'.heap count = state := by rw [hheap, Function.update_self]
  have hprospect := hadmits.prospect_eq
  rw [hself] at hprospect
  have hdone : state.cacheLookupDone = false :=
    congrArg RequestState.Prospect.cacheLookupDone hprospect
  have hmiss : state.missTokens = none := congrArg RequestState.Prospect.missTokens hprospect
  have hlast {ref : ℕ} (href : ref < count + 1) : ref < count ∨ ref = count := by omega
  refine ⟨?_, ?_, ?_, ?_, ?_, ?_, ?_, ?_, ?_⟩
  · rw [hadmits.active_eq, List.pairwise_append]
    refine ⟨h.sorted, List.pairwise_singleton _ _, fun ref href other hother ↦ ?_⟩
    rw [List.mem_singleton.mp hother]
    exact h.active_lt ref href
  · exact (hadmits.numbered h.numbered).active_lt
  · intro id ref hlookup
    rw [hadmits.active_eq]
    rw [hadmits.states_eq] at hlookup
    by_cases hid : id = request.requestId
    · rw [hid, Finmap.lookup_insert] at hlookup
      cases hlookup
      refine ⟨Nat.lt_succ_self _, ?_, fun other hother _ ↦ ?_⟩
      · rw [hself, hid]
        exact congrArg Tag.requestId htag
      · rcases List.mem_append.mp hother with hother | hother
        · exact (h.active_lt other hother).le
        · exact (List.mem_singleton.mp hother).le
    · rw [Finmap.lookup_insert_of_ne _ hid] at hlookup
      obtain ⟨hlt, hkey, hbefore⟩ := h.newest id ref hlookup
      rw [hadmits.heap_eq hlt]
      refine ⟨Nat.lt_succ_of_lt hlt, hkey, fun other hother hsame ↦ ?_⟩
      rcases List.mem_append.mp hother with hother | hother
      · rw [hadmits.heap_eq (h.active_lt other hother)] at hsame
        exact hbefore other hother hsame
      · rw [List.mem_singleton.mp hother, hself] at hsame
        exact absurd (hsame.symm.trans (congrArg Tag.requestId htag)) hid
  · intro ref href hunfinished
    rw [hadmits.active_eq]
    rcases hlast href with href | rfl
    · rw [hadmits.heap_eq href] at hunfinished
      exact List.mem_append_left _ (h.present ref href hunfinished)
    · exact List.mem_append_right _ (List.mem_singleton_self _)
  · intro ref href
    rw [hadmits.running_eq] at href
    rw [hadmits.heap_eq (h.active_lt ref (List.mem_append_left _ href))]
    exact h.running ref href
  · intro first hfirst ref hle href
    rw [hadmits.waiting_eq] at hfirst
    rcases hlast href with href | rfl
    · rw [hadmits.heap_eq href]
      rcases List.mem_append.mp hfirst with hfirst | hfirst
      · exact h.unserved first hfirst ref hle href
      · rw [List.mem_singleton.mp hfirst] at hle
        omega
    · rw [hself]
      exact ⟨hvisible, by simp [hmiss]⟩
  · intro first hfirst hnot ref hle href
    rw [hadmits.waiting_eq] at hfirst
    rcases hlast href with href | rfl
    · rw [hadmits.heap_eq href]
      rcases List.mem_append.mp hfirst with hfirst | hfirst
      · rw [hadmits.heap_eq (hle.trans_lt href)] at hnot
        exact h.unlooked first hfirst hnot ref hle href
      · rw [List.mem_singleton.mp hfirst] at hle
        omega
    · rw [hself]
      exact ⟨hdone, hmiss⟩
  · intro id ref hlookup hzero
    rw [hadmits.states_eq] at hlookup
    rw [hadmits.lookups_eq]
    by_cases hid : id = request.requestId
    · rw [hid, Finmap.lookup_insert] at hlookup
      cases hlookup
      rw [hself, hmiss] at hzero
      cases hzero
    · rw [Finmap.lookup_insert_of_ne _ hid] at hlookup
      rw [hadmits.heap_eq (h.newest id ref hlookup).1] at hzero
      exact h.settled id ref hlookup hzero
  · intro ref href
    rcases hlast href with href | rfl
    · rw [hadmits.heap_eq href]
      exact h.made ref href
    · rw [hself, show state.promptTokens = request.promptTokens from congrArg Tag.promptTokens htag,
        show state.promptBlocks = request.promptBlocks from
          congrArg RequestState.Prospect.promptBlocks hprospect]
      exact hmade

end Locals.Queued

section Frontier

variable {nowMs : ℚ} {count ref : ℕ} {front refs : List ℕ} {request : SimulationRequest}
  {locals locals' : Locals} {world world' : World C K}

theorem from_result_ok {lookup : PrefixLookupResult} {request : SimulationRequest}
    {metrics : LookupMetrics} (h : LookupMetrics.fromResult lookup request = .ok metrics) :
    metrics.materializationBlocks = lookup.missBlocks ∧
      metrics.effectiveHitTokens ≤ blockTokens lookup.hitBlocks := by
  unfold LookupMetrics.fromResult at h
  obtain ⟨accounted, haccount, h⟩ := except_bind_ok.mp h
  cases h
  obtain ⟨-, hddr, hhbm, hhbmBlocks, hddrBlocks, hmiss⟩ := account_spec haccount
  refine ⟨hmiss, ?_⟩
  obtain ⟨rest, hrest⟩ := hhbmBlocks
  obtain ⟨rest', hrest'⟩ := hddrBlocks
  have hhits : blockTokens lookup.hitBlocks = accounted.hbmHitTokens + blockTokens rest +
      (accounted.ddrHitTokens + blockTokens rest') := by
    rw [PrefixLookupResult.hitBlocks, ← hrest, ← hrest', blockTokens_append, blockTokens_append,
      blockTokens_append, hhbm, hddr]
  rw [hhits]
  dsimp only [LookupMetrics.effectiveHitTokens]
  omega

/-- What a lookup finds out about a request. -/
structure RequestState.Finds (state state' : RequestState) (metrics : LookupMetrics) : Prop
    extends Continues state state' where
  blocks_eq : state'.promptBlocks = state.promptBlocks
  looked_up : state'.LookedUp
  miss_eq : state'.missTokens = some metrics.missTokens
  computed_eq : state'.numComputedTokens + metrics.missTokens = state'.promptTokens
  nothing : MadeOf state.promptTokens state.promptBlocks → metrics.missTokens = 0 →
    metrics.materializationBlocks = []

theorem lookup_request_finds (hsplits : engine.cache.Splits) {state state' : RequestState}
    {metrics : LookupMetrics}
    (h : engine.lookupRequest nowMs state request world = .ok (state', metrics) world') :
    state.Finds state' metrics := by
  simp only [Engine.lookupRequest, bind_ok, check_ok] at h
  obtain ⟨lookup, _, hask, _, _, -, metrics', _, ⟨hmetrics, -⟩, _, _, -, state₁, _,
    ⟨hstate, -⟩, h⟩ := h
  cases h
  obtain ⟨_, hask, -⟩ := zoom_ok.mp hask
  have hsplit := hsplits _ _ _ _ _ _ _ hask
  have hcontinues := set_cache_lookup_continues hstate
  unfold RequestState.setCacheLookup at hstate
  split_ifs at hstate with _ hsum
  cases hstate
  refine ⟨hcontinues, rfl, ⟨rfl, rfl⟩, rfl, not_not.mp hsum, fun hmade hzero ↦ ?_⟩
  obtain ⟨hstore, hle⟩ := from_result_ok hmetrics
  rw [hstore]
  have hmade' : MadeOf state.promptTokens (lookup.hitBlocks ++ lookup.missBlocks) := by
    rw [PrefixLookupResult.hitBlocks, hsplit]
    exact hmade
  apply hmade'.suffix_nil
  omega

/-- The lookup at somebody's turn in the queue, when all before him were looked up. -/
theorem ensure_lookup_queued (hsplits : engine.cache.Splits) (hq : locals.Queued count)
    (hwaiting : locals.waiting = front ++ ref :: refs)
    (hfront : ∀ other ∈ front, (locals.heap other).cacheLookupDone = true)
    (h : engine.ensureLookup nowMs ref request locals world = .ok locals' world') :
    locals'.Queued count ∧ (locals'.heap ref).cacheLookupDone = true := by
  unfold Engine.ensureLookup at h
  split_ifs at h with hdone
  · cases h
    exact ⟨hq, hdone⟩
  obtain ⟨⟨state, metrics⟩, world₁, hlookup, h⟩ := bind_ok.mp h
  cases h
  have hfinds := lookup_request_finds hsplits hlookup
  have hmem : ref ∈ locals.waiting := by
    rw [hwaiting]
    exact List.mem_append_right _ (List.mem_cons_self ..)
  have hnot : (locals.heap ref).cacheLookupDone = false := Bool.eq_false_of_not_eq_true hdone
  have hunlooked := hq.unlooked ref hmem hnot
  have hlt : ref < count := hq.active_lt ref (List.mem_append_right _ hmem)
  have hother {other : ℕ} (hne : other ≠ ref) :
      Function.update locals.heap ref state other = locals.heap other :=
    Function.update_of_ne hne _ _
  have hself : Function.update locals.heap ref state ref = state := Function.update_self ..
  have hcontinues : ∀ other, (locals.heap other).Continues
      (Function.update locals.heap ref state other) := Heap.continues_update hfinds.toContinues
  refine ⟨⟨hq.sorted, hq.active_lt, ?_, ?_, ?_, ?_, ?_, ?_, ?_⟩, ?_⟩
  · intro id last hlast
    obtain ⟨hlt, hid, hbefore⟩ := hq.newest id last hlast
    refine ⟨hlt, (hcontinues last).id_eq.trans hid, fun other hactive hsame ↦ ?_⟩
    exact hbefore other hactive ((hcontinues other).id_eq.symm.trans hsame)
  · intro other hlt hunfinished
    exact hq.present other hlt fun hf ↦ hunfinished ((hcontinues other).finished_iff.mpr hf)
  · intro other hrunning
    have hne : other ≠ ref := by
      rintro rfl
      exact hq.nodup.disjoint hrunning hmem
    dsimp only
    rw [hother hne]
    exact hq.running other hrunning
  · intro first hfirst other hle hlt
    have hbefore := hq.unserved first hfirst other hle hlt
    dsimp only
    by_cases hne : other = ref
    · subst hne
      rw [hself]
      refine ⟨hfinds.visible_eq.trans hbefore.visible_eq, fun missTokens hmiss ↦ ?_⟩
      rw [hfinds.miss_eq] at hmiss
      cases hmiss
      exact hfinds.computed_eq
    · rw [hother hne]
      exact hbefore
  · intro first hfirst hnot' other hle hlt
    dsimp only at hfirst hnot' ⊢
    have hne : first ≠ ref := by
      rintro rfl
      rw [hself, hfinds.looked_up.done] at hnot'
      cases hnot'
    rw [hother hne] at hnot'
    -- whoever was not looked up stands behind
    have hbehind : ref < first := by
      have hsorted := (List.pairwise_append.mp hq.sorted).2.1
      rw [hwaiting] at hsorted hfirst
      rcases List.mem_append.mp hfirst with hahead | hbehind
      · rw [hfront first hahead] at hnot'
        cases hnot'
      · have hrest := (List.mem_cons.mp hbehind).resolve_left hne
        exact (List.pairwise_cons.mp (List.pairwise_append.mp hsorted).2.1).1 first hrest
    rw [hother (hbehind.trans_le hle).ne']
    exact hq.unlooked first hfirst hnot' other hle hlt
  · intro id last hlast hzero lookup hlookup
    dsimp only at hlast hzero hlookup
    obtain ⟨hlt', hid, hbefore⟩ := hq.newest id last hlast
    by_cases hsame : id = (locals.heap ref).requestId
    · rw [hsame, Finmap.lookup_insert] at hlookup
      cases hlookup
      -- what is registered under the id is this request or comes after it
      by_cases hne : last = ref
      · rw [hne, hself, hfinds.miss_eq, Option.some.injEq] at hzero
        exact hfinds.nothing (hq.made ref hlt) hzero
      · have hle := hbefore ref (List.mem_append_right _ hmem) hsame.symm
        rw [hother hne, (hunlooked last hle hlt').miss_eq] at hzero
        cases hzero
    · have hne : last ≠ ref := by
        rintro rfl
        exact hsame hid.symm
      rw [Finmap.lookup_insert_of_ne _ hsame] at hlookup
      rw [hother hne] at hzero
      exact hq.settled id last hlast hzero lookup hlookup
  · intro other hlt
    have hmade := hq.made other hlt
    dsimp only
    by_cases hne : other = ref
    · subst hne
      rw [hself, hfinds.blocks_eq, show state.promptTokens = (locals.heap other).promptTokens from
        congrArg Tag.promptTokens hfinds.tag_eq]
      exact hmade
    · rw [hother hne]
      exact hmade
  · dsimp only
    rw [hself]
    exact hfinds.looked_up.done

/-- Somebody finishes, with all else about him as it was. -/
structure RequestState.Closes (state state' : RequestState) : Prop extends Moves state state' where
  visible_eq : state'.visible = state.visible
  computed_eq : state'.numComputedTokens = state.numComputedTokens

theorem RequestState.Closes.refl (state : RequestState) : state.Closes state :=
  ⟨.refl _, rfl, rfl⟩

theorem RequestState.Closes.trans {state state' state'' : RequestState} (h : state.Closes state')
    (h' : state'.Closes state'') : state.Closes state'' :=
  ⟨h.toMoves.trans h'.toMoves, h'.visible_eq.trans h.visible_eq,
    h'.computed_eq.trans h.computed_eq⟩

/-- Queues and tables are as before, and some requests may have finished. -/
structure Locals.Closes (locals locals' : Locals) : Prop where
  waiting_eq : locals'.waiting = locals.waiting
  running_eq : locals'.running = locals.running
  states_eq : locals'.statesById = locals.statesById
  lookups_eq : locals'.lookupById = locals.lookupById
  heap : ∀ ref, (locals.heap ref).Closes (locals'.heap ref)

theorem Locals.Closes.refl (locals : Locals) : locals.Closes locals :=
  ⟨rfl, rfl, rfl, rfl, fun _ ↦ .refl _⟩

theorem Locals.Closes.trans {locals locals' locals'' : Locals} (h : locals.Closes locals')
    (h' : locals'.Closes locals'') : locals.Closes locals'' :=
  ⟨h'.waiting_eq.trans h.waiting_eq, h'.running_eq.trans h.running_eq,
    h'.states_eq.trans h.states_eq, h'.lookups_eq.trans h.lookups_eq,
    fun ref ↦ (h.heap ref).trans (h'.heap ref)⟩

theorem finish_zero_miss_closes {lookup : LookupMetrics}
    (h : Engine.finishZeroMissRequest nowMs ref request lookup locals = .ok locals') :
    locals.Closes locals' := by
  unfold Engine.finishZeroMissRequest at h
  split_ifs at h
  · cases h
    exact .refl _
  · obtain ⟨metric, -, h⟩ := except_bind_ok.mp h
    cases h
    refine ⟨rfl, rfl, rfl, rfl, fun other ↦ ?_⟩
    dsimp only
    by_cases hne : other = ref
    · subst hne
      rw [Function.update_self]
      exact ⟨⟨rfl, rfl, rfl, rfl, .inl rfl, fun _ ↦ rfl⟩, rfl, rfl⟩
    · rw [Function.update_of_ne hne]
      exact .refl _

theorem finish_zero_miss_requests_closes
    (h : Engine.finishZeroMissRequests nowMs refs locals = .ok locals') :
    locals.Closes locals' := by
  induction refs generalizing locals with
  | nil =>
    cases h
    exact .refl _
  | cons ref refs ih =>
    unfold Engine.finishZeroMissRequests at h
    obtain ⟨remaining, -, h⟩ := except_bind_ok.mp h
    split_ifs at h
    · exact ih h
    obtain ⟨pendingKvLoad, -, h⟩ := except_bind_ok.mp h
    split_ifs at h
    · exact ih h
    obtain ⟨request, -, h⟩ := except_bind_ok.mp h
    obtain ⟨lookup, -, h⟩ := except_bind_ok.mp h
    obtain ⟨closed, hfinish, h⟩ := except_bind_ok.mp h
    exact (finish_zero_miss_closes hfinish).trans (ih h)

/-- Some of those who have finished leave the queues. -/
theorem Locals.Queued.closes (hq : locals.Queued count)
    (hheap : ∀ ref, (locals.heap ref).Closes (locals'.heap ref))
    (hrunning : locals'.running.Sublist locals.running)
    (hwaiting : locals'.waiting.Sublist locals.waiting)
    (hstates : locals'.statesById = locals.statesById)
    (hlookups : locals'.lookupById = locals.lookupById)
    (hpresent : ∀ ref ∈ locals.active, (locals'.heap ref).status ≠ .finished →
      ref ∈ locals'.active) : locals'.Queued count := by
  refine hq.moves (hrunning.append hwaiting) hwaiting.subset hstates hlookups
    (fun other ↦ (hheap other).toMoves) hpresent ?_ ?_
  · intro other href
    obtain ⟨hlooked, hload⟩ := hq.running other (hrunning.subset href)
    exact ⟨(hheap other).looked_up.mpr hlooked, (hheap other).load_eq hload⟩
  · intro _ _ other _ _ hunserved
    exact (hheap other).unserved (hheap other).visible_eq (hheap other).computed_eq hunserved

theorem prepare_running_unchanged
    (hlooked : ∀ ref ∈ refs, (locals.heap ref).cacheLookupDone = true)
    (h : engine.prepareRunning nowMs refs locals world = .ok locals' world') :
    locals' = locals := by
  induction refs generalizing world with
  | nil =>
    cases h
    rfl
  | cons ref refs ih =>
    obtain ⟨hself, hrest⟩ := List.forall_mem_cons.mp hlooked
    simp only [Engine.prepareRunning, bind_ok, check_ok] at h
    obtain ⟨request, _, ⟨-, rfl⟩, locals₁, world₁, hlookup, h⟩ := h
    unfold Engine.ensureLookup at hlookup
    rw [if_pos hself] at hlookup
    cases hlookup
    exact ih hrest h

theorem scan_waiting_queued (hsplits : engine.cache.Splits) {index : ℕ}
    {frontier frontier' : FrontierPlan} (hq : locals.Queued count)
    (hwaiting : locals.waiting = front ++ refs) (hindex : front.length = index)
    (hfront : ∀ other ∈ front, (locals.heap other).cacheLookupDone = true)
    (h : engine.scanWaiting nowMs index refs frontier locals world =
      .ok (frontier', locals') world') : locals'.Queued count := by
  induction refs generalizing index front frontier locals world with
  | nil =>
    unfold Engine.scanWaiting at h
    cases h
    exact hq
  | cons ref refs ih =>
    unfold Engine.scanWaiting at h
    by_cases hfull : frontier.plannedSlices ≥ engine.config.maxNumSeqs
    · rw [if_pos hfull] at h
      cases h
      exact hq
    rw [if_neg hfull] at h
    simp only [bind_ok, check_ok] at h
    obtain ⟨request, _, ⟨-, rfl⟩, looked, _, hlookup, remaining, world₁, ⟨-, rfl⟩, h⟩ := h
    obtain ⟨hq₁, hdone⟩ := ensure_lookup_queued hsplits hq hwaiting hfront hlookup
    have hsteady := ensure_lookup_steady hlookup
    have hwaiting₁ : looked.waiting = front ++ ref :: refs := hsteady.waiting_eq.trans hwaiting
    have hfront₁ : ∀ other ∈ front, (looked.heap other).cacheLookupDone = true := by
      intro other hother
      by_cases hne : other = ref
      · rw [hne]
        exact hdone
      · rw [ensure_lookup_heap hlookup other hne]
        exact hfront other hother
    -- a scan that goes on behind the request has it in front
    have hcount {frontier₁ : FrontierPlan}
        (h : engine.scanWaiting nowMs (index + 1) refs frontier₁ looked world₁ =
          .ok (frontier', locals') world') : locals'.Queued count := by
      apply ih hq₁ _ _ _ h
      · exact front ++ [ref]
      · rw [hwaiting₁, List.append_assoc, List.singleton_append]
      · simp [hindex]
      · intro other hother
        rcases List.mem_append.mp hother with hother | hother
        · exact hfront₁ other hother
        · rw [List.mem_singleton.mp hother]
          exact hdone
    by_cases hr : remaining = 0
    · rw [if_pos hr] at h
      simp only [bind_ok, check_ok] at h
      obtain ⟨pendingKvLoad, _, ⟨-, rfl⟩, h⟩ := h
      split_ifs at h
      · exact hcount h
      simp only [bind_ok, check_ok] at h
      obtain ⟨_, _, ⟨-, rfl⟩, _, _, ⟨-, rfl⟩, closed, _, ⟨hfinish, rfl⟩, h⟩ := h
      have herase : looked.waiting.eraseIdx index = front ++ refs := by
        rw [hwaiting₁, ← hindex, List.eraseIdx_append_of_length_le (le_refl _), Nat.sub_self,
          List.eraseIdx_cons_zero]
      have hcloses := finish_zero_miss_closes hfinish
      have hwaiting₂ : closed.waiting = front ++ refs := hcloses.waiting_eq.trans herase
      apply ih _ hwaiting₂ hindex _ h
      · refine hq₁.closes hcloses.heap ?_ ?_ hcloses.states_eq hcloses.lookups_eq ?_
        · rw [hcloses.running_eq]
        · rw [hwaiting₂, hwaiting₁]
          exact (List.sublist_cons_self ref refs).append_left front
        · intro other hother hunfinished
          have hne : other ≠ ref := by
            rintro rfl
            exact hunfinished (finish_zero_miss_heap hfinish).2.1
          rw [Locals.active, hcloses.running_eq, hwaiting₂]
          rw [Locals.active, hwaiting₁] at hother
          simp only [List.mem_append, List.mem_cons] at hother ⊢
          tauto
      · intro other hother
        rw [(hcloses.heap other).done_eq]
        exact hfront₁ other hother
    rw [if_neg hr] at h
    by_cases hbudget : frontier.tokenBudget = 0
    · rw [if_pos hbudget] at h
      cases h
      exact hq₁
    rw [if_neg hbudget] at h
    simp only [bind_ok, check_ok] at h
    obtain ⟨planned, _, ⟨-, rfl⟩, h⟩ := h
    split_ifs at h
    · cases h
      exact hq₁
    · exact hcount h

/-- The queues after the preparation of a batch. -/
theorem frontier_queued (hsplits : engine.cache.Splits) {plan : FrontierPlan}
    (hq : locals.Queued count)
    (h : engine.prepareSchedulerFrontier nowMs locals world = .ok (plan, locals') world') :
    locals'.Queued count := by
  simp only [Engine.prepareSchedulerFrontier, bind_ok, check_ok] at h
  obtain ⟨looked, world₁, hprepare, closed, _, ⟨hfinish, rfl⟩, ⟨plan', scanned⟩, world₂, hwait,
    h⟩ := h
  cases h
  have hsame := prepare_running_unchanged (fun ref href ↦ (hq.running ref href).1.done) hprepare
  subst hsame
  have hcloses := finish_zero_miss_requests_closes hfinish
  have hq₁ : closed.Queued count := by
    refine hq.closes hcloses.heap ?_ ?_ hcloses.states_eq hcloses.lookups_eq ?_
    · rw [hcloses.running_eq]
    · rw [hcloses.waiting_eq]
    · intro ref href _
      rwa [Locals.active, hcloses.running_eq, hcloses.waiting_eq]
  -- those who have finished by then leave the running ones once the queue is scanned
  have hleave {scanned : Locals} (hq₂ : scanned.Queued count)
      (hrunning : scanned.running = closed.running)
      (hfinished : ∀ ref, (closed.heap ref).status = .finished →
        (scanned.heap ref).status = .finished) :
      Locals.Queued { scanned with running := closed.running.filter fun ref ↦
        (closed.heap ref).status ≠ .finished } count := by
    refine hq₂.closes (fun _ ↦ .refl _) ?_ (List.Sublist.refl _) rfl rfl ?_
    · rw [hrunning]
      exact List.filter_sublist
    · intro ref href hunfinished
      rw [Locals.active, hrunning] at href
      rcases List.mem_append.mp href with href | href
      · refine List.mem_append_left _ (List.mem_filter.mpr ⟨href, decide_eq_true fun hf ↦ ?_⟩)
        exact hunfinished (hfinished ref hf)
      · exact List.mem_append_right _ href
  simp only [Engine.prepareWaitingFrontier, bind_ok, check_ok] at hwait
  obtain ⟨⟨full, frontier⟩, _, ⟨-, rfl⟩, hwait⟩ := hwait
  cases full with
  | true =>
    cases hwait
    exact hleave hq₁ rfl fun _ hf ↦ hf
  | false =>
    have hscanned := scan_waiting_queued hsplits hq₁ (List.nil_append _).symm rfl (by simp) hwait
    obtain ⟨_, _, _, _, hclears, hrunning, -, -⟩ := scan_waiting_clears
      (List.nil_append _).symm rfl hq₁.nodup.of_append_right hwait
    exact hleave hscanned hrunning fun ref hf ↦ (hclears.finished_iff ref).mpr (.inl hf)

end Frontier

end InferTwin
