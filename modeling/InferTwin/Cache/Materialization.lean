import InferTwin.Cache.Interface
import InferTwin.Foundation.Effect
import InferTwin.Scheduler.RequestState

namespace InferTwin

open Effect

/-- What a materialization policy is told about the request it serves. -/
structure MaterializationCall where
  blocks : List PrefixBlock
  finishTimeMs : ℚ
  requestId : String
  instanceUuid : String
  promptBlocks : List PrefixBlock := []
  effectiveBlockSize : ℕ := 0
  alreadyMaterializedBlockKeys : List String := []

/-- When computed miss blocks become visible to prefix lookup. Both methods return the
blocks they made visible. -/
structure MaterializationPolicy (C : Type) where
  supportsProgressiveChunks : Bool
  materializeScheduledChunk (cache : PrefixCache C) (call : MaterializationCall)
    (computedTokensBefore computedTokensAfter : ℕ) :
    EStateM MaterializationError C (List PrefixBlock)
  materializeFinishedRequest (cache : PrefixCache C) (call : MaterializationCall) :
    EStateM MaterializationError C (List PrefixBlock)

variable {C : Type}

/-- `cache.materialize` as a policy calls it. -/
def materializeBlocks (cache : PrefixCache C) (call : MaterializationCall)
    (blocks : List PrefixBlock) (reason : String) : EStateM MaterializationError C Unit :=
  zoom .cache id (fun c _ ↦ c)
    (cache.materialize blocks call.finishTimeMs call.requestId call.instanceUuid reason)

def FinishTimeMaterializationPolicy : MaterializationPolicy C where
  supportsProgressiveChunks := false
  materializeScheduledChunk _ _ _ _ := pure []
  materializeFinishedRequest cache call := do
    materializeBlocks cache call call.blocks "finish_time_materialization"
    return call.blocks

/-- Where each block ends, counted in tokens of the prompt. -/
def blockEndTokensByKey : ℕ → List PrefixBlock → List (String × ℕ)
  | _, [] => []
  | cursor, block :: blocks =>
    (block.blockKey, cursor + block.tokenCount) ::
      blockEndTokensByKey (cursor + block.tokenCount) blocks

/-- `block_end_tokens.get(key)`: of two blocks under one key the last one counts. -/
def blockEndToken (promptBlocks : List PrefixBlock) (key : String) : Option ℕ :=
  List.lookup key (blockEndTokensByKey 0 promptBlocks).reverse

/-- The selection loop; `selectedKeys` are the keys selected so far. -/
def selectLoop (promptBlocks : List PrefixBlock) (effectiveBlockSize : ℕ)
    (computedTokensBefore computedTokensAfter : ℤ) (alreadyMaterialized : List String) :
    List String → List PrefixBlock → Except MaterializationError (List PrefixBlock)
  | _, [] => .ok []
  | selectedKeys, block :: blocks =>
    let skip := selectLoop promptBlocks effectiveBlockSize computedTokensBefore
      computedTokensAfter alreadyMaterialized selectedKeys blocks
    if block.blockKey ∈ alreadyMaterialized then skip
    else if block.blockKey ∈ selectedKeys then skip
    else if block.tokenCount ≠ effectiveBlockSize then skip
    else match blockEndToken promptBlocks block.blockKey with
      | none => .error (.unknownBlock block.blockKey)
      | some endToken =>
        if computedTokensBefore < endToken ∧ endToken ≤ computedTokensAfter then do
          let rest ← selectLoop promptBlocks effectiveBlockSize computedTokensBefore
            computedTokensAfter alreadyMaterialized (selectedKeys ++ [block.blockKey]) blocks
          return block :: rest
        else skip

def selectNewlyCompletedFullBlocks (call : MaterializationCall)
    (computedTokensBefore computedTokensAfter : ℤ) :
    Except MaterializationError (List PrefixBlock) :=
  if call.blocks = [] then .ok []
  else if call.effectiveBlockSize = 0 then .error .nonPositiveBlockSize
  else if computedTokensAfter < computedTokensBefore then .error .computedTokensReversed
  else selectLoop call.promptBlocks call.effectiveBlockSize computedTokensBefore
    computedTokensAfter call.alreadyMaterializedBlockKeys [] call.blocks

def ProgressiveFullBlockMaterializationPolicy : MaterializationPolicy C where
  supportsProgressiveChunks := true
  materializeScheduledChunk cache call computedTokensBefore computedTokensAfter := do
    let selected ← check
      (selectNewlyCompletedFullBlocks call computedTokensBefore computedTokensAfter)
    materializeBlocks cache call selected "progressive_chunk_materialization"
    return selected
  materializeFinishedRequest cache call :=
    if call.blocks = [] then pure []
    else do
      let selected ← check
        (selectNewlyCompletedFullBlocks call (-1) (blockTokens call.promptBlocks))
      materializeBlocks cache call selected "progressive_chunk_materialization"
      return selected

/-- The policy an engine uses when none is given. -/
def defaultMaterializationPolicy : TimelineMode → MaterializationPolicy C
  | .legacy => FinishTimeMaterializationPolicy
  | .progressive => ProgressiveFullBlockMaterializationPolicy

section Ends

theorem block_end_tokens_append (cursor : ℕ) (bs cs : List PrefixBlock) :
    blockEndTokensByKey cursor (bs ++ cs) =
      blockEndTokensByKey cursor bs ++ blockEndTokensByKey (cursor + blockTokens bs) cs := by
  induction bs generalizing cursor with
  | nil => simp [blockEndTokensByKey]
  | cons block bs ih => simp [blockEndTokensByKey, ih, Nat.add_assoc]

theorem block_end_tokens_keys (cursor : ℕ) (blocks : List PrefixBlock) :
    (blockEndTokensByKey cursor blocks).map Prod.fst = blocks.map PrefixBlock.blockKey := by
  induction blocks generalizing cursor with
  | nil => rfl
  | cons block blocks ih => simp [blockEndTokensByKey, ih]

/-- A block ends after the tokens of those before it and its own, if its key does not come
again. -/
theorem block_end_token_eq (bs : List PrefixBlock) {cs : List PrefixBlock} {block : PrefixBlock}
    (hlast : block.blockKey ∉ cs.map PrefixBlock.blockKey) :
    blockEndToken (bs ++ block :: cs) block.blockKey =
      some (blockTokens bs + block.tokenCount) := by
  refine List.lookup_eq_some_iff.mpr
    ⟨(blockEndTokensByKey (blockTokens bs + block.tokenCount) cs).reverse,
      (blockEndTokensByKey 0 bs).reverse, ?_, ?_⟩
  · rw [block_end_tokens_append]
    simp [blockEndTokensByKey]
  · intro pair hpair
    rw [List.mem_reverse] at hpair
    have hkey := List.mem_map_of_mem (f := Prod.fst) hpair
    rw [block_end_tokens_keys] at hkey
    refine bne_iff_ne.mpr fun heq ↦ hlast ?_
    rw [heq]
    exact hkey

end Ends

end InferTwin
