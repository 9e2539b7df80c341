import InferTwin.Cache.Serving
import InferTwin.Request.BlockKeys
import InferTwin.Request.Tiling
import InferTwin.Sample
import InferTwin.Tables.ListBooks

namespace InferTwin

open Effect

variable {C K : Type}

section Selection

variable {promptBlocks blocks : List PrefixBlock} {size : ℕ} {before after : ℤ}
  {already selected : List String}

/-- Where a block of the prompt ends. -/
def blockEnd (promptBlocks : List PrefixBlock) (block : PrefixBlock) : ℕ :=
  (blockEndToken promptBlocks block.blockKey).getD 0

/-- The blocks that a chunk completes. -/
abbrev Completes (promptBlocks : List PrefixBlock) (size : ℕ) (before after : ℤ)
    (block : PrefixBlock) : Prop :=
  block.tokenCount = size ∧ before < blockEnd promptBlocks block ∧
    (blockEnd promptBlocks block : ℤ) ≤ after

/-- Over distinct keys the selection loop is a filter. -/
theorem select_loop_eq (hnodup : (blocks.map PrefixBlock.blockKey).Nodup)
    (hends : ∀ block ∈ blocks, (blockEndToken promptBlocks block.blockKey).isSome)
    (hnew : ∀ block ∈ blocks, block.blockKey ∉ selected) :
    selectLoop promptBlocks size before after already selected blocks =
      .ok (blocks.filter fun block ↦
        block.blockKey ∉ already ∧ Completes promptBlocks size before after block) := by
  induction blocks generalizing selected with
  | nil => rfl
  | cons block blocks ih =>
    obtain ⟨hfresh, hrest⟩ := List.nodup_cons.mp hnodup
    have hends' := fun b hb ↦ hends b (List.mem_cons_of_mem _ hb)
    have hnew' := fun b hb ↦ hnew b (List.mem_cons_of_mem _ hb)
    have hskip := ih hrest hends' hnew'
    obtain ⟨endToken, hend⟩ := Option.isSome_iff_exists.mp (hends block (List.mem_cons_self ..))
    have hblockEnd : blockEnd promptBlocks block = endToken := by
      rw [blockEnd, hend, Option.getD_some]
    unfold selectLoop
    dsimp only
    rw [hskip, if_neg (hnew block (List.mem_cons_self ..)), hend]
    by_cases hold : block.blockKey ∈ already
    · rw [if_pos hold, List.filter_cons_of_neg (by simp [hold])]
    rw [if_neg hold]
    by_cases hsize : block.tokenCount = size
    · rw [if_neg (not_not.mpr hsize)]
      dsimp only
      by_cases hin : before < endToken ∧ endToken ≤ after
      · have htake : ∀ b ∈ blocks, b.blockKey ∉ selected ++ [block.blockKey] := by
          intro b hb hmem
          rcases List.mem_append.mp hmem with hmem | hmem
          · exact hnew' b hb hmem
          · rw [List.mem_singleton] at hmem
            exact hfresh (hmem ▸ List.mem_map_of_mem hb)
        rw [if_pos hin, ih hrest hends' htake, List.filter_cons_of_pos]
        · rfl
        · simpa [hold, hsize, hblockEnd] using hin
      · rw [if_neg hin, List.filter_cons_of_neg]
        simpa [hold, hsize, hblockEnd] using hin
    · rw [if_pos hsize, List.filter_cons_of_neg (by simp [hsize])]

end Selection

section Life

/-- What the engine tells the policy of a request. -/
def RequestState.materializationCall (state : RequestState) (lookup : LookupMetrics)
    (finishTimeMs : ℚ) : MaterializationCall where
  blocks := lookup.materializationBlocks
  finishTimeMs
  requestId := state.requestId
  instanceUuid := state.instanceUuid
  promptBlocks := state.promptBlocks
  effectiveBlockSize := state.effectiveBlockSize
  alreadyMaterializedBlockKeys := state.progressiveMaterializedBlockKeys

/-- One chunk of a request: up to where it computes the prompt, when it ends, and what other
requests have done to the cache since the chunk before it. -/
structure ChunkTurn (C : Type) where
  computedTokensAfter : ℕ
  finishTimeMs : ℚ
  meanwhile : C → C

/-- The calls that a policy receives for a request that has computed `before` tokens: one
after each of its chunks, and the last one when it has finished. -/
def materializeOverLife (policy : MaterializationPolicy C) (cache : PrefixCache C)
    (lookup : LookupMetrics) (finishTimeMs : ℚ) : RequestState → ℕ → List (ChunkTurn C) →
      EStateM MaterializationError C (List (List PrefixBlock) × List PrefixBlock)
  | state, _, [] => do
    if lookup.materializationBlocks = [] then return ([], [])
    else
      let blocks ← policy.materializeFinishedRequest cache
        (state.materializationCall lookup finishTimeMs)
      return ([], blocks)
  | state, before, turn :: turns => do
    modify turn.meanwhile
    let blocks ← policy.materializeScheduledChunk cache
      (state.materializationCall lookup turn.finishTimeMs) before turn.computedTokensAfter
    let rest ← materializeOverLife policy cache lookup finishTimeMs
      (state.recordProgressiveMaterialization blocks).1 turn.computedTokensAfter turns
    return (blocks :: rest.1, rest.2)

/-- Slices of a request that follow one another, each with its turn. -/
def FollowOn : ℕ → List (ScheduledSlice × ChunkTurn C) → Prop
  | _, [] => True
  | before, (slice, turn) :: turns =>
    slice.computedTokensBefore = before ∧
      slice.computedTokensAfter = turn.computedTokensAfter ∧
      FollowOn turn.computedTokensAfter turns

/-- The steps with which the engine serves the slices of a request and closes it. -/
def Engine.materializeLife (engine : Engine C K) (lookup : LookupMetrics) (finishTimeMs : ℚ) :
    SliceProgress → List (ScheduledSlice × ChunkTurn C) → Replay C K SliceProgress
  | progress, [] =>
    if lookup.materializationBlocks = [] then pure progress
    else engine.materializeFinishedRequest lookup finishTimeMs progress
  | progress, (slice, turn) :: turns => do
    onMaterialization (modify turn.meanwhile)
    let progress ← engine.materializeScheduledChunk slice lookup turn.finishTimeMs progress
    engine.materializeLife lookup finishTimeMs progress turns

/-- The policy's calls over the life of a request are those of the engine's steps: these answer
where it does, and record what it selects. -/
theorem materialize_life_records {engine : Engine C K} (hmode : engine.timelineMode = .progressive)
    {lookup : LookupMetrics} {finishMs : ℚ} {turns : List (ScheduledSlice × ChunkTurn C)}
    {before : ℕ} (hturns : FollowOn before turns) {progress : SliceProgress} {world : World C K}
    {selections : List (List PrefixBlock)} {last : List PrefixBlock} {c' : C}
    (h : materializeOverLife engine.materializationPolicy engine.cache lookup finishMs
      progress.state before (turns.map Prod.snd) world.cache = .ok (selections, last) c') :
    ∃ progress', engine.materializeLife lookup finishMs progress turns world =
        .ok progress' { world with cache := c' } ∧
      progress'.record.materialized =
        progress.record.materialized ++ (selections.flatten ++ last) := by
  induction turns generalizing before progress world selections with
  | nil =>
    simp only [List.map_nil, materializeOverLife] at h
    unfold Engine.materializeLife
    split_ifs at h ⊢ with hnone
    · cases h
      exact ⟨progress, rfl, by simp⟩
    · obtain ⟨blocks, c₁, hfinish, h⟩ := bind_ok.mp h
      cases h
      refine ⟨progress.materialized last, ?_, rfl⟩
      unfold Engine.materializeFinishedRequest
      rw [hmode]
      exact bind_ok.mpr ⟨last, _, zoom_ok.mpr ⟨_, hfinish, rfl⟩, rfl⟩
  | cons first turns ih =>
    obtain ⟨slice, turn⟩ := first
    obtain ⟨hbefore, hafter, hturns⟩ := hturns
    simp only [List.map_cons, materializeOverLife, bind_ok, modify_apply] at h
    obtain ⟨_, c₁, hmeanwhile, blocks, c₂, hchunk, ⟨rest, last'⟩, c₃, hrest, h⟩ := h
    cases h
    cases hmeanwhile
    have hlater : materializeOverLife engine.materializationPolicy engine.cache lookup finishMs
        (progress.materialized blocks).state turn.computedTokensAfter (turns.map Prod.snd)
        { world with cache := c₂ }.cache = .ok (rest, last') c' := hrest
    obtain ⟨progress', hlife, hrecord⟩ := ih hturns hlater
    refine ⟨progress', ?_, ?_⟩
    · unfold Engine.materializeLife
      refine bind_ok.mpr ⟨(), _, zoom_ok.mpr ⟨_, rfl, rfl⟩, ?_⟩
      refine bind_ok.mpr ⟨progress.materialized blocks, { world with cache := c₂ }, ?_, hlife⟩
      unfold Engine.materializeScheduledChunk
      rw [hmode, hbefore, hafter]
      exact bind_ok.mpr ⟨blocks, _, zoom_ok.mpr ⟨_, hchunk, rfl⟩, rfl⟩
    · rw [hrecord, List.flatten_cons, SliceProgress.materialized, List.append_assoc,
        List.append_assoc]

theorem record_progressive_keys (state : RequestState) (blocks : List PrefixBlock) (key : String) :
    key ∈ (state.recordProgressiveMaterialization blocks).1.progressiveMaterializedBlockKeys ↔
      key ∈ state.progressiveMaterializedBlockKeys ∨ key ∈ blocks.map PrefixBlock.blockKey := by
  induction blocks generalizing state with
  | nil => simp [RequestState.recordProgressiveMaterialization]
  | cons block blocks ih =>
    unfold RequestState.recordProgressiveMaterialization
    split_ifs with hold
    · rw [ih, List.map_cons, List.mem_cons]
      constructor
      · rintro (h | h)
        · exact .inl h
        · exact .inr (.inr h)
      · rintro (h | rfl | h)
        · exact .inl h
        · exact .inl hold
        · exact .inr h
    · rw [ih, List.map_cons, List.mem_cons, List.mem_append, List.mem_singleton, or_assoc]

theorem record_progressive_prompt (state : RequestState) (blocks : List PrefixBlock) :
    (state.recordProgressiveMaterialization blocks).1.promptBlocks = state.promptBlocks ∧
      (state.recordProgressiveMaterialization blocks).1.effectiveBlockSize =
        state.effectiveBlockSize := by
  induction blocks generalizing state with
  | nil => exact ⟨rfl, rfl⟩
  | cons block blocks ih =>
    unfold RequestState.recordProgressiveMaterialization
    split_ifs
    · exact ih state
    · exact ih _

/-- The blocks that each of some chunks in a row completes. -/
def completedBy (promptBlocks misses : List PrefixBlock) (size : ℕ) :
    ℕ → List ℕ → List (List PrefixBlock)
  | _, [] => []
  | before, cut :: cuts =>
    misses.filter (fun block ↦ Completes promptBlocks size before cut block) ::
      completedBy promptBlocks misses size cut cuts

/-- A prompt whose blocks were found up to some point, and not from there on. -/
structure Missed (promptBlocks misses : List PrefixBlock) (size cached : ℕ) : Prop where
  size_pos : 0 < size
  nodup : (promptBlocks.map PrefixBlock.blockKey).Nodup
  split : ∃ hits, promptBlocks = hits ++ misses ∧ cached ≤ blockTokens hits

section Answers

variable {cache : PrefixCache C} {good : C → Prop} {call : MaterializationCall}
  {blocks : List PrefixBlock} {c : C}

/-- What is selected for a chunk is made visible and returned. -/
theorem chunk_answers (hcache : cache.Serves good) (hc : good c) {before after : ℕ}
    (h : selectNewlyCompletedFullBlocks call before after = .ok blocks) :
    ∃ c', ProgressiveFullBlockMaterializationPolicy.materializeScheduledChunk cache call before
      after c = .ok blocks c' ∧ good c' := by
  obtain ⟨c', hwrite, hc'⟩ := hcache.materialize_blocks hc call blocks
    "progressive_chunk_materialization"
  refine ⟨c', ?_, hc'⟩
  simp only [ProgressiveFullBlockMaterializationPolicy, h, check_ok_bind]
  exact bind_ok.mpr ⟨(), c', hwrite, rfl⟩

theorem finish_answers (hcache : cache.Serves good) (hc : good c) (hne : call.blocks ≠ [])
    (h : selectNewlyCompletedFullBlocks call (-1) (blockTokens call.promptBlocks) = .ok blocks) :
    ∃ c', ProgressiveFullBlockMaterializationPolicy.materializeFinishedRequest cache call c =
      .ok blocks c' ∧ good c' := by
  obtain ⟨c', hwrite, hc'⟩ := hcache.materialize_blocks hc call blocks
    "progressive_chunk_materialization"
  refine ⟨c', ?_, hc'⟩
  simp only [ProgressiveFullBlockMaterializationPolicy, h, check_ok_bind, if_neg hne]
  exact bind_ok.mpr ⟨(), c', hwrite, rfl⟩

end Answers

namespace Missed

variable {promptBlocks misses : List PrefixBlock} {size cached : ℕ}

theorem misses_nodup (h : Missed promptBlocks misses size cached) :
    (misses.map PrefixBlock.blockKey).Nodup := by
  obtain ⟨hits, hsplit, -⟩ := h.split
  have hnodup := h.nodup
  rw [hsplit, List.map_append] at hnodup
  exact hnodup.of_append_right

/-- Where a missed block ends. -/
theorem ends (h : Missed promptBlocks misses size cached) {block : PrefixBlock}
    (hblock : block ∈ misses) :
    (blockEndToken promptBlocks block.blockKey).isSome ∧
      (block.tokenCount = size → cached < blockEnd promptBlocks block) ∧
      blockEnd promptBlocks block ≤ blockTokens promptBlocks := by
  obtain ⟨hits, hsplit, hcached⟩ := h.split
  obtain ⟨bs, cs, rfl⟩ := List.append_of_mem hblock
  have hnodup := h.nodup
  rw [hsplit, ← List.append_assoc, List.map_append, List.map_cons] at hnodup
  have hlast : block.blockKey ∉ cs.map PrefixBlock.blockKey :=
    (List.nodup_cons.mp hnodup.of_append_right).1
  have hend := block_end_token_eq (hits ++ bs) hlast
  rw [List.append_assoc, ← hsplit] at hend
  have htokens : blockTokens promptBlocks =
      blockTokens (hits ++ bs) + (block.tokenCount + blockTokens cs) := by
    rw [hsplit, ← List.append_assoc, blockTokens_append, blockTokens_cons]
  have hpos := h.size_pos
  rw [blockEnd, hend, Option.isSome_some, Option.getD_some, htokens, blockTokens_append]
  refine ⟨rfl, fun hsize ↦ ?_, ?_⟩ <;> omega

theorem select_ok (h : Missed promptBlocks misses size cached) (call : MaterializationCall)
    (hblocks : call.blocks = misses) (hprompt : call.promptBlocks = promptBlocks)
    (hsize : call.effectiveBlockSize = size) {before after : ℤ} (hle : before ≤ after) :
    selectNewlyCompletedFullBlocks call before after =
      .ok (misses.filter fun block ↦ block.blockKey ∉ call.alreadyMaterializedBlockKeys ∧
        Completes promptBlocks size before after block) := by
  have hpos := h.size_pos
  unfold selectNewlyCompletedFullBlocks
  rw [hblocks, hprompt, hsize]
  split_ifs with hnone hzero hlt
  · rw [hnone]
    rfl
  · omega
  · omega
  · exact select_loop_eq h.misses_nodup (fun block hblock ↦ (h.ends hblock).1) (by simp)

/-- What is recorded of a request that has computed its prompt up to `before`. -/
structure Recorded (promptBlocks misses : List PrefixBlock) (size before : ℕ)
    (state : RequestState) : Prop where
  prompt_eq : state.promptBlocks = promptBlocks
  size_eq : state.effectiveBlockSize = size
  keys_iff : ∀ block ∈ misses, block.blockKey ∈ state.progressiveMaterializedBlockKeys ↔
    block.tokenCount = size ∧ blockEnd promptBlocks block ≤ before

/-- A chunk completes nothing that was recorded before it, and what it completes is recorded
after it. -/
theorem Recorded.chunk {state : RequestState} {before after : ℕ}
    (h : Missed promptBlocks misses size cached)
    (hstate : Recorded promptBlocks misses size before state) (hle : before ≤ after) :
    (misses.filter fun block ↦ block.blockKey ∉ state.progressiveMaterializedBlockKeys ∧
        Completes promptBlocks size before after block) =
      misses.filter (fun block ↦ Completes promptBlocks size before after block) ∧
    Recorded promptBlocks misses size after (state.recordProgressiveMaterialization
      (misses.filter fun block ↦ Completes promptBlocks size before after block)).1 := by
  refine ⟨?_, ?_, ?_, ?_⟩
  · refine List.filter_congr fun block hblock ↦ decide_eq_decide.mpr ?_
    rw [hstate.keys_iff block hblock]
    refine ⟨fun hin ↦ hin.2, fun hin ↦ ⟨fun hold ↦ ?_, hin⟩⟩
    have hafter := hin.2.1
    omega
  · exact (record_progressive_prompt _ _).1.trans hstate.prompt_eq
  · exact (record_progressive_prompt _ _).2.trans hstate.size_eq
  · intro block hblock
    rw [record_progressive_keys, hstate.keys_iff block hblock, List.mem_map]
    constructor
    · rintro (⟨hsize, hend⟩ | ⟨other, hother, hkey⟩)
      · exact ⟨hsize, hend.trans hle⟩
      · obtain ⟨hother, hin⟩ := List.mem_filter.mp hother
        obtain rfl : other = block := List.inj_on_of_nodup_map h.misses_nodup hother hblock hkey
        obtain ⟨hsize, -, hend⟩ := of_decide_eq_true hin
        exact ⟨hsize, by omega⟩
    · rintro ⟨hsize, hend⟩
      rcases Nat.lt_or_ge before (blockEnd promptBlocks block) with hlt | hge
      · refine .inr ⟨block, List.mem_filter.mpr ⟨hblock, decide_eq_true ⟨hsize, ?_, ?_⟩⟩, rfl⟩ <;>
          omega
      · exact .inl ⟨hsize, hge⟩

/-- The call at the finish finds every full block recorded. -/
theorem Recorded.finish {state : RequestState} (h : Missed promptBlocks misses size cached)
    (hstate : Recorded promptBlocks misses size (blockTokens promptBlocks) state) :
    (misses.filter fun block ↦ block.blockKey ∉ state.progressiveMaterializedBlockKeys ∧
      Completes promptBlocks size (-1) (blockTokens promptBlocks) block) = [] := by
  refine List.filter_eq_nil_iff.mpr fun block hblock hin ↦ ?_
  obtain ⟨hnew, hsize, -, -⟩ := of_decide_eq_true hin
  exact hnew ((hstate.keys_iff block hblock).mpr ⟨hsize, (h.ends hblock).2.2⟩)

/-- The policy's own checks never fail, and each chunk makes visible what it completes. -/
theorem over_life (h : Missed promptBlocks misses size cached) {cache : PrefixCache C}
    {good : C → Prop} (hcache : cache.Serves good) {lookup : LookupMetrics}
    (hlookup : lookup.materializationBlocks = misses) (finishMs : ℚ)
    {turns : List (ChunkTurn C)}
    (hturns : ∀ turn ∈ turns, ∀ c, good c → good (turn.meanwhile c)) {before : ℕ}
    {state : RequestState} (hstate : Recorded promptBlocks misses size before state)
    (hchain : (before :: turns.map ChunkTurn.computedTokensAfter).IsChain (· < ·))
    (hlast : (before :: turns.map ChunkTurn.computedTokensAfter).getLast (by simp) =
      blockTokens promptBlocks) {c : C} (hc : good c) :
    ∃ c', materializeOverLife ProgressiveFullBlockMaterializationPolicy cache lookup finishMs
        state before turns c =
      .ok (completedBy promptBlocks misses size before
        (turns.map ChunkTurn.computedTokensAfter), []) c' := by
  induction turns generalizing before state c with
  | nil =>
    obtain rfl : before = blockTokens promptBlocks := hlast
    unfold materializeOverLife
    by_cases hnone : misses = []
    · rw [hlookup, if_pos hnone]
      exact ⟨c, rfl⟩
    have hselect := h.select_ok (state.materializationCall lookup finishMs) hlookup
      hstate.prompt_eq hstate.size_eq (show (-1 : ℤ) ≤ blockTokens promptBlocks by omega)
    have hnothing := hstate.finish h
    rw [show (state.materializationCall lookup finishMs).alreadyMaterializedBlockKeys =
      state.progressiveMaterializedBlockKeys from rfl, hnothing, ← hstate.prompt_eq] at hselect
    obtain ⟨c', hfinish, -⟩ := finish_answers hcache hc
      (fun hnil ↦ hnone (hlookup.symm.trans hnil)) hselect
    rw [hlookup, if_neg hnone]
    exact ⟨c', bind_ok.mpr ⟨[], c', hfinish, rfl⟩⟩
  | cons turn turns ih =>
    obtain ⟨hlt, hchain'⟩ := List.isChain_cons_cons.mp hchain
    obtain ⟨hturn, hturns⟩ := List.forall_mem_cons.mp hturns
    obtain ⟨hselected, hstate'⟩ := hstate.chunk h hlt.le
    have hselect := h.select_ok (state.materializationCall lookup turn.finishTimeMs) hlookup
      hstate.prompt_eq hstate.size_eq (show (before : ℤ) ≤ turn.computedTokensAfter by omega)
    rw [show (state.materializationCall lookup turn.finishTimeMs).alreadyMaterializedBlockKeys =
      state.progressiveMaterializedBlockKeys from rfl, hselected] at hselect
    obtain ⟨c₁, hchunk, hc₁⟩ := chunk_answers hcache (hturn c hc) hselect
    obtain ⟨c', hrest⟩ := ih hturns hstate' hchain' hlast hc₁
    unfold materializeOverLife
    rw [bind_apply, modify_apply]
    exact ⟨c', bind_ok.mpr ⟨_, c₁, hchunk, bind_ok.mpr ⟨_, c', hrest, rfl⟩⟩⟩

end Missed

theorem completed_by_length (promptBlocks misses : List PrefixBlock) (size before : ℕ)
    (cuts : List ℕ) :
    (completedBy promptBlocks misses size before cuts).length = cuts.length := by
  induction cuts generalizing before with
  | nil => rfl
  | cons cut cuts ih => simp [completedBy, ih]

section Completed

variable {promptBlocks misses : List PrefixBlock} {size before : ℕ} {cuts : List ℕ}

/-- Chunks in a row complete what the one chunk of all of them would. -/
theorem completed_by_perm (hchain : (before :: cuts).IsChain (· < ·)) :
    (completedBy promptBlocks misses size before cuts).flatten.Perm
      (misses.filter fun block ↦ Completes promptBlocks size before
        (((before :: cuts).getLast (by simp) : ℕ) : ℤ) block) := by
  induction cuts generalizing before with
  | nil =>
    rw [List.filter_eq_nil_iff.mpr]
    · exact .refl _
    · intro block _ hin
      obtain ⟨-, hlt, hle⟩ := of_decide_eq_true hin
      exact absurd hlt (not_lt.mpr hle)
  | cons cut cuts ih =>
    obtain ⟨hlt, hchain'⟩ := List.isChain_cons_cons.mp hchain
    have hreach : cut ≤ (cut :: cuts).getLast (by simp) := by
      rcases List.mem_cons.mp (List.getLast_mem (List.cons_ne_nil cut cuts)) with heq | hmem
      · exact heq.ge
      · exact (List.rel_of_pairwise_cons (List.isChain_iff_pairwise.mp hchain') hmem).le
    rw [List.getLast_cons (List.cons_ne_nil cut cuts)]
    refine List.Perm.trans ((ih hchain').append_left _) ?_
    refine List.Perm.trans ?_ (List.filter_append_perm
      (fun block ↦ decide (blockEnd promptBlocks block ≤ cut)) _)
    rw [List.filter_filter, List.filter_filter]
    refine List.Perm.of_eq (congrArg₂ _ ?_ ?_)
    · refine List.filter_congr fun block _ ↦ ?_
      rw [← Bool.decide_and, decide_eq_decide]
      omega
    · refine List.filter_congr fun block _ ↦ ?_
      rw [← decide_not, ← Bool.decide_and, decide_eq_decide]
      omega

/-- What a chunk completes ends within it, and not before the first of the chunks. -/
theorem completed_by_ends (hchain : (before :: cuts).IsChain (· < ·)) {i : ℕ}
    {selected : List PrefixBlock}
    (hi : (completedBy promptBlocks misses size before cuts)[i]? = some selected)
    {block : PrefixBlock} (hblock : block ∈ selected) :
    before < blockEnd promptBlocks block ∧
      cuts.find? (blockEnd promptBlocks block ≤ ·) = cuts[i]? := by
  induction cuts generalizing before i with
  | nil => simp [completedBy] at hi
  | cons cut cuts ih =>
    obtain ⟨hlt, hchain'⟩ := List.isChain_cons_cons.mp hchain
    cases i with
    | zero =>
      obtain rfl : _ = selected := Option.some.inj hi
      obtain ⟨-, hafter, hle⟩ := of_decide_eq_true (List.mem_filter.mp hblock).2
      refine ⟨by omega, ?_⟩
      rw [List.find?_cons_of_pos (by simpa using hle)]
      rfl
    | succ i =>
      obtain ⟨hafter, hfind⟩ := ih hchain' hi
      refine ⟨hlt.trans hafter, ?_⟩
      rw [List.find?_cons_of_neg (by simpa using hafter), hfind]
      rfl

end Completed

/-- What is selected over the life of a request, chunk by chunk: every full block that was
missed at its lookup once, after the first chunk that reaches the end of the block, and
nothing else. -/
structure SelectsOnce (lookup : PrefixLookupResult) (size : ℕ) (cuts : List ℕ)
    (selections : List (List PrefixBlock)) : Prop where
  once : selections.flatten.Perm (lookup.missBlocks.filter fun block ↦ block.tokenCount = size)
  nodup : selections.flatten.Nodup
  not_hit : ∀ block ∈ lookup.hitBlocks, block ∉ selections.flatten
  chunks : selections.length = cuts.length
  at_first : ∀ (i : ℕ) (selected : List PrefixBlock) (block : PrefixBlock)
    (bs cs : List PrefixBlock), selections[i]? = some selected → block ∈ selected →
    lookup.hitBlocks ++ lookup.missBlocks = bs ++ block :: cs →
      cuts.find? (blockTokens bs + block.tokenCount ≤ ·) = cuts[i]?

theorem Missed.selects_once {lookup : PrefixLookupResult} {size cached : ℕ} {cuts : List ℕ}
    (h : Missed (lookup.hitBlocks ++ lookup.missBlocks) lookup.missBlocks size cached)
    (hchain : (cached :: cuts).IsChain (· < ·))
    (hlast : (cached :: cuts).getLast (by simp) =
      blockTokens (lookup.hitBlocks ++ lookup.missBlocks)) :
    SelectsOnce lookup size cuts
      (completedBy (lookup.hitBlocks ++ lookup.missBlocks) lookup.missBlocks size cached cuts) := by
  have hnodup := h.nodup
  have honce : (completedBy (lookup.hitBlocks ++ lookup.missBlocks) lookup.missBlocks size cached
      cuts).flatten.Perm (lookup.missBlocks.filter fun block ↦ block.tokenCount = size) := by
    refine (completed_by_perm hchain).trans (List.Perm.of_eq ?_)
    refine List.filter_congr fun block hblock ↦ decide_eq_decide.mpr ?_
    obtain ⟨-, hafter, hle⟩ := h.ends hblock
    rw [hlast]
    refine ⟨fun hin ↦ hin.1, fun hsize ↦ ⟨hsize, ?_, ?_⟩⟩
    · exact_mod_cast hafter hsize
    · exact_mod_cast hle
  refine ⟨honce, ?_, ?_, completed_by_length .., ?_⟩
  · exact honce.nodup_iff.mpr ((List.Nodup.of_map _ h.misses_nodup).filter _)
  · intro block hhit hmem
    have hmiss := (List.mem_filter.mp (honce.mem_iff.mp hmem)).1
    exact (List.Nodup.of_map _ hnodup).disjoint hhit hmiss
  · intro i selected block bs cs hi hblock hsplit
    have hend := (completed_by_ends hchain hi hblock).2
    have hlastKey : block.blockKey ∉ cs.map PrefixBlock.blockKey := by
      rw [hsplit, List.map_append, List.map_cons] at hnodup
      exact (List.nodup_cons.mp hnodup.of_append_right).1
    rwa [hsplit, blockEnd, block_end_token_eq bs hlastKey] at hend

/-- However a request's misses are cut into chunks, and whatever happens to a cache that serves
between them. -/
theorem over_life_once {sha256 : List UInt8 → List UInt8} {tokenIds : List ℕ}
    {settings : BlockSettings} {lookup : PrefixLookupResult} {request : SimulationRequest}
    {metrics : LookupMetrics} {state : RequestState}
    (hbuild : buildPrefixBlocks sha256 tokenIds settings =
      .ok (lookup.hitBlocks ++ lookup.missBlocks))
    (hhash : CollisionFree sha256 settings (lookup.hitBlocks ++ lookup.missBlocks))
    (hlookup : LookupMetrics.fromResult lookup request = .ok metrics)
    (hblocks : state.promptBlocks = lookup.hitBlocks ++ lookup.missBlocks)
    (hsize : state.effectiveBlockSize = settings.blockSizeTokens)
    (hnew : state.progressiveMaterializedBlockKeys = []) {cache : PrefixCache C}
    {good : C → Prop} (hcache : cache.Serves good) {turns : List (ChunkTurn C)}
    (hturns : ∀ turn ∈ turns, ∀ c, good c → good (turn.meanwhile c))
    (hchain : (metrics.effectiveHitTokens ::
      turns.map ChunkTurn.computedTokensAfter).IsChain (· < ·))
    (hlast : (metrics.effectiveHitTokens ::
      turns.map ChunkTurn.computedTokensAfter).getLast (by simp) = tokenIds.length)
    (finishMs : ℚ) {c : C} (hc : good c) :
    ∃ selections c', materializeOverLife ProgressiveFullBlockMaterializationPolicy cache metrics
        finishMs state metrics.effectiveHitTokens turns c = .ok (selections, []) c' ∧
      SelectsOnce lookup settings.blockSizeTokens (turns.map ChunkTurn.computedTokensAfter)
        selections := by
  obtain ⟨hpos, -, htokens⟩ := build_prefix_blocks_tiled hbuild
  obtain ⟨hmisses, hcached⟩ := from_result_ok hlookup
  have hmissed : Missed (lookup.hitBlocks ++ lookup.missBlocks) lookup.missBlocks
      settings.blockSizeTokens metrics.effectiveHitTokens :=
    ⟨hpos, block_keys_nodup hbuild hhash, lookup.hitBlocks, rfl, hcached⟩
  have hstate : Missed.Recorded (lookup.hitBlocks ++ lookup.missBlocks) lookup.missBlocks
      settings.blockSizeTokens metrics.effectiveHitTokens state := by
    refine ⟨hblocks, hsize, fun block hblock ↦ ?_⟩
    rw [hnew]
    refine ⟨fun hmem ↦ absurd hmem (List.not_mem_nil), fun hend ↦ ?_⟩
    have hafter := (hmissed.ends hblock).2.1 hend.1
    omega
  have hall := hlast.trans htokens.symm
  obtain ⟨c', hlife⟩ := hmissed.over_life hcache hmisses finishMs hturns hstate hchain hall hc
  exact ⟨_, c', hlife, hmissed.selects_once hchain hall⟩

end Life

theorem made_of_build {sha256 : List UInt8 → List UInt8} {tokenIds : List ℕ}
    {settings : BlockSettings} {blocks : List PrefixBlock}
    (h : buildPrefixBlocks sha256 tokenIds settings = .ok blocks) :
    MadeOf tokenIds.length blocks := by
  obtain ⟨hpos, htiled, htokens⟩ := build_prefix_blocks_tiled h
  exact ⟨htokens.symm, htiled.count_pos hpos⟩

/-- Progressive materialization over the life of a request, however its misses are cut into
chunks and whatever happens to the cache between them: each full block that was missed at its
lookup is made visible once, after the first chunk that reaches its end. What the requests of
a run say about it adds up to what its iterations say, whether or not ids come again. -/
theorem progressive_blocks_once {sha256 : List UInt8 → List UInt8} {tokenIds : List ℕ}
    {settings : BlockSettings} {lookup : PrefixLookupResult} {request : SimulationRequest}
    {metrics : LookupMetrics} {state : RequestState}
    (hbuild : buildPrefixBlocks sha256 tokenIds settings =
      .ok (lookup.hitBlocks ++ lookup.missBlocks))
    (hhash : CollisionFree sha256 settings (lookup.hitBlocks ++ lookup.missBlocks))
    (hlookup : LookupMetrics.fromResult lookup request = .ok metrics)
    (hblocks : state.promptBlocks = lookup.hitBlocks ++ lookup.missBlocks)
    (hsize : state.effectiveBlockSize = settings.blockSizeTokens)
    (hnew : state.progressiveMaterializedBlockKeys = []) {D : Type} {cache : PrefixCache D}
    {good : D → Prop} (hcache : cache.Serves good)
    (engine : BatchAwareReplayEngine C K) (fuel : ℕ) :
    (∀ turns : List (ChunkTurn D), (∀ turn ∈ turns, ∀ c, good c → good (turn.meanwhile c)) →
      (metrics.effectiveHitTokens :: turns.map ChunkTurn.computedTokensAfter).IsChain (· < ·) →
      (metrics.effectiveHitTokens :: turns.map ChunkTurn.computedTokensAfter).getLast (by simp) =
        tokenIds.length →
      ∀ (finishMs : ℚ) (c : D), good c →
        ∃ selections c', materializeOverLife ProgressiveFullBlockMaterializationPolicy cache
            metrics finishMs state metrics.effectiveHitTokens turns c = .ok (selections, []) c' ∧
          SelectsOnce lookup settings.blockSizeTokens (turns.map ChunkTurn.computedTokensAfter)
            selections) ∧
    ((∀ instanceUuid, (engine.cacheFactory instanceUuid).1.Splits) →
      ∀ requests : List SimulationRequest, (∀ request ∈ requests, ∃ tokenIds settings,
        buildPrefixBlocks sha256 tokenIds settings = .ok request.promptBlocks ∧
          request.promptTokens = tokenIds.length) →
        ∀ shared result shared', engine.run fuel requests shared = .ok result shared' →
          (result.requestMetrics.map BatchAwareRequestMetrics.visible).sum =
            (result.iterationMetrics.map IterationMetrics.visible).sum) ∧
    ∀ (instanceUuid : String) (σ : Type) (source : RequestSource σ) (s : σ) (turns : ℕ)
      (requests : List SimulationRequest), source.Yields s requests →
        ∀ world result world',
          (engine.forInstance instanceUuid).runInstanceStream source instanceUuid turns fuel s
            world = .ok result world' →
          (result.requestMetrics.map BatchAwareRequestMetrics.visible).sum =
            (result.iterationMetrics.map IterationMetrics.visible).sum := by
  refine ⟨fun turns hturns hchain hlast finishMs c hc ↦ ?_, ?_, ?_⟩
  · exact over_life_once hbuild hhash hlookup hblocks hsize hnew hcache hturns hchain hlast
      finishMs hc
  · intro hsplits requests hbuilt shared result shared' h
    refine BatchAwareReplayEngine.run_books hsplits (fun request hrequest ↦ ?_) h
    obtain ⟨tokenIds', settings', hbuild', htokens'⟩ := hbuilt request hrequest
    exact htokens' ▸ made_of_build hbuild'
  · intro instanceUuid σ source s turns requests hyields world result world' h
    exact (run_instance_stream_accounted hyields h).visible

namespace Sample

theorem hashed_collision_free : CollisionFree Sha256.digest tokens hashed where
  digest_length := Sha256.length_digest
  distinct messages hmessages := by
    have hall : ∀ messages ∈
        (keyMessages Sha256.digest tokens (noneHash Sha256.digest) hashed).toOption,
        ((noneMessage :: messages).map Sha256.digest).Nodup := by decide +kernel
    exact fun message hmessage message' hmessage' heq ↦ List.inj_on_of_nodup_map
      (hall messages (by rw [hmessages]; rfl)) hmessage hmessage' heq

def missed : PrefixLookupResult where
  hbmHitBlocks := []
  ddrHitBlocks := []
  missBlocks := hashed

def missedMetrics : LookupMetrics where
  hbmHitTokens := 0
  ddrHitTokens := 0
  ddrHitBytes := 0
  missTokens := 5
  missBlocks := hashed
  materializationBlocks := hashed
  rawHbmHitTokens := 0
  rawDdrHitTokens := 0
  rawMissTokens := 5
  cachedTokenCap := 0

def hashedState : RequestState where
  requestId := "a"
  tenantId := "tenant"
  instanceUuid := "instance"
  arrivalTimeMs := 0
  promptTokens := 5
  promptBlocks := hashed
  effectiveBlockSize := 2

/-- A cache of one block. -/
abbrev tiny : PrefixCache TierState := HBMCache 1 one_pos

/-- Another request takes the place of whatever is in the cache. -/
def displace (c : TierState) : TierState :=
  after (tiny.materialize [block "z" 0 2] 3 "b" "instance" "finish_time_materialization" c)

theorem displace_sound {c : TierState} (hc : (HBMCache.tier 1 one_pos).Sound c) :
    (HBMCache.tier 1 one_pos).Sound (displace c) := by
  obtain ⟨c', hwrite, hc'⟩ := (hbm_cache_serves 1 one_pos).materialize hc [block "z" 0 2] 3 "b"
    "instance" "finish_time_materialization"
  rwa [displace, hwrite]

/-- A request for the tokens 1 to 5, and two without tokens that have one id. -/
def crowd : List SimulationRequest :=
  [request "b" 0 hashed, request "a" 1 [], { request "a" 1 [] with tenantId := "other" }]

theorem crowd_built : ∀ request ∈ crowd, ∃ tokenIds settings,
    buildPrefixBlocks Sha256.digest tokenIds settings = .ok request.promptBlocks ∧
      request.promptTokens = tokenIds.length := by
  have hempty : buildPrefixBlocks Sha256.digest [] tokens = .ok [] := by decide +kernel
  refine List.forall_mem_cons.mpr ⟨⟨[1, 2, 3, 4, 5], tokens, build_hashed, rfl⟩, ?_⟩
  exact List.forall_mem_cons.mpr ⟨⟨[], tokens, hempty, rfl⟩,
    List.forall_mem_singleton.mpr ⟨[], tokens, hempty, rfl⟩⟩

end Sample

/-- The blocks that are evicted between the chunks are not selected again; and a run in which an
id comes again says of two blocks, with four tokens, that they became visible. -/
theorem progressive_blocks_once_hashed :
    (∃ selections c', materializeOverLife ProgressiveFullBlockMaterializationPolicy Sample.tiny
      Sample.missedMetrics 2 Sample.hashedState 0 [⟨1, 1, id⟩, ⟨4, 2, id⟩, ⟨5, 3, Sample.displace⟩]
      {} = .ok (selections, []) c' ∧ SelectsOnce Sample.missed 2 [1, 4, 5] selections) ∧
    ∃ result shared', (Sample.fleet Sample.config .progressive).run 6 Sample.crowd
        { sink := (), memo := ∅ } = .ok result shared' ∧
      (result.requestMetrics.map BatchAwareRequestMetrics.visible).sum = (2, 4) ∧
      (result.requestMetrics.map BatchAwareRequestMetrics.visible).sum =
        (result.iterationMetrics.map IterationMetrics.visible).sum := by
  have hlookup : LookupMetrics.fromResult Sample.missed (Sample.request "a" 0 Sample.hashed) =
      .ok Sample.missedMetrics := by decide +kernel
  have hturns : ∀ turn ∈ [⟨1, 1, id⟩, ⟨4, 2, id⟩, ⟨5, 3, Sample.displace⟩],
      ∀ c, (HBMCache.tier 1 one_pos).Sound c →
        (HBMCache.tier 1 one_pos).Sound (ChunkTurn.meanwhile turn c) :=
    List.forall_mem_cons.mpr ⟨fun _ hc ↦ hc, List.forall_mem_cons.mpr ⟨fun _ hc ↦ hc,
      List.forall_mem_singleton.mpr fun _ ↦ Sample.displace_sound⟩⟩
  have hbuild : buildPrefixBlocks Sha256.digest [1, 2, 3, 4, 5] Sample.tokens =
      .ok (Sample.missed.hitBlocks ++ Sample.missed.missBlocks) := Sample.build_hashed
  have hblocks : Sample.hashedState.promptBlocks =
      Sample.missed.hitBlocks ++ Sample.missed.missBlocks := rfl
  have hall := progressive_blocks_once hbuild Sample.hashed_collision_free hlookup hblocks rfl rfl
    (hbm_cache_serves 1 one_pos) (Sample.fleet Sample.config .progressive) 6
  refine ⟨hall.1 _ hturns (by decide) (by decide) 2 {} ⟨[], .fresh _⟩, ?_⟩
  have hsaid : (match (Sample.fleet Sample.config .progressive).run 6 Sample.crowd
      { sink := (), memo := ∅ } with
      | .ok result _ => (result.requestMetrics.map BatchAwareRequestMetrics.visible).sum
      | .error _ _ => 0) = (2, 4) := by decide +kernel
  cases hrun : (Sample.fleet Sample.config .progressive).run 6 Sample.crowd
      { sink := (), memo := ∅ } with
  | error e shared' =>
    rw [hrun] at hsaid
    cases hsaid
  | ok result shared' =>
    rw [hrun] at hsaid
    exact ⟨result, shared', rfl, hsaid, hall.2.1 (fun _ ↦ infinite_cache_splits) Sample.crowd
      Sample.crowd_built _ result shared' hrun⟩

end InferTwin
