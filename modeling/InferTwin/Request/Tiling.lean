import InferTwin.Foundation.Effect
import InferTwin.Request.BlockHasher

namespace InferTwin

open Effect

/-- Full blocks of `size` tokens, and after them at most one shorter block. -/
inductive Tiled (size : ℕ) : List PrefixBlock → Prop
  | nil : Tiled size []
  | tail {block : PrefixBlock} : 0 < block.tokenCount → block.tokenCount < size →
      Tiled size [block]
  | full {block : PrefixBlock} {blocks : List PrefixBlock} : block.tokenCount = size →
      Tiled size blocks → Tiled size (block :: blocks)

/-- How many blocks hold exactly `size` tokens. -/
def fullBlocks (size : ℕ) (blocks : List PrefixBlock) : ℕ :=
  blocks.countP fun block ↦ block.tokenCount = size

@[simp] theorem fullBlocks_nil (size : ℕ) : fullBlocks size [] = 0 := rfl

@[simp] theorem fullBlocks_append (size : ℕ) (bs cs : List PrefixBlock) :
    fullBlocks size (bs ++ cs) = fullBlocks size bs + fullBlocks size cs :=
  List.countP_append

theorem fullBlocks_cons_full {size : ℕ} {block : PrefixBlock} (h : block.tokenCount = size)
    (blocks : List PrefixBlock) : fullBlocks size (block :: blocks) = fullBlocks size blocks + 1 :=
  List.countP_cons_of_pos (by simpa using h)

theorem fullBlocks_singleton_ne {size : ℕ} {block : PrefixBlock} (h : block.tokenCount ≠ size) :
    fullBlocks size [block] = 0 := by
  simp [fullBlocks, h]

namespace Tiled

variable {size : ℕ} {blocks : List PrefixBlock}

theorem of_prefix {bs : List PrefixBlock} (h : Tiled size blocks) (hp : bs <+: blocks) :
    Tiled size bs := by
  induction h generalizing bs with
  | nil =>
    rw [List.prefix_nil.mp hp]
    exact .nil
  | tail hpos hlt =>
    rcases List.prefix_cons_iff.mp hp with rfl | ⟨rest, rfl, hrest⟩
    · exact .nil
    · rw [List.prefix_nil.mp hrest]
      exact .tail hpos hlt
  | full hfull _ ih =>
    rcases List.prefix_cons_iff.mp hp with rfl | ⟨rest, rfl, hrest⟩
    · exact .nil
    · exact .full hfull (ih hrest)

theorem of_append {bs cs : List PrefixBlock} (h : Tiled size (bs ++ cs)) : Tiled size bs :=
  h.of_prefix (List.prefix_append bs cs)

theorem of_append_right {bs cs : List PrefixBlock} (h : Tiled size (bs ++ cs)) :
    Tiled size cs := by
  generalize hall : bs ++ cs = all at h
  induction h generalizing bs with
  | nil =>
    obtain ⟨-, rfl⟩ := List.append_eq_nil_iff.mp hall
    exact .nil
  | tail hpos hlt =>
    rcases List.append_eq_singleton_iff.mp hall with ⟨-, rfl⟩ | ⟨-, rfl⟩
    · exact .tail hpos hlt
    · exact .nil
  | full hfull h ih =>
    cases bs with
    | nil =>
      obtain rfl : cs = _ := hall
      exact .full hfull h
    | cons block bs => exact ih (List.cons.inj hall).2

/-- Only the last of tiled blocks can be a short one. -/
theorem full_of_append {bs cs : List PrefixBlock} (h : Tiled size (bs ++ cs)) (hcs : cs ≠ []) :
    ∀ block ∈ bs, block.tokenCount = size := by
  generalize hall : bs ++ cs = all at h
  induction h generalizing bs with
  | nil => simp_all
  | tail hpos hlt =>
    cases bs with
    | nil => simp
    | cons block bs => simp_all
  | full hfull _ ih =>
    cases bs with
    | nil => simp
    | cons block bs =>
      obtain ⟨rfl, hrest⟩ := List.cons.inj hall
      exact List.forall_mem_cons.mpr ⟨hfull, ih hrest⟩

theorem take_tokens (h : Tiled size blocks) {k : ℕ} (hk : k ≤ fullBlocks size blocks) :
    blockTokens (blocks.take k) = k * size := by
  induction h generalizing k with
  | nil =>
    obtain rfl : k = 0 := by simpa using hk
    simp
  | tail hpos hlt =>
    rw [fullBlocks_singleton_ne hlt.ne] at hk
    obtain rfl : k = 0 := by omega
    simp
  | full hfull _ ih =>
    rw [fullBlocks_cons_full hfull] at hk
    cases k with
    | zero => simp
    | succ k =>
      rw [List.take_succ_cons, blockTokens_cons, hfull, ih (by omega), Nat.succ_mul,
        Nat.add_comm]

theorem full_tokens_le (h : Tiled size blocks) :
    fullBlocks size blocks * size ≤ blockTokens blocks := by
  induction h with
  | nil => simp
  | tail hpos hlt => simp [fullBlocks_singleton_ne hlt.ne]
  | full hfull _ ih =>
    rw [fullBlocks_cons_full hfull, blockTokens_cons, hfull, Nat.succ_mul]
    omega

theorem count_le (h : Tiled size blocks) {block : PrefixBlock} (hblock : block ∈ blocks) :
    block.tokenCount ≤ size := by
  induction h with
  | nil => simp at hblock
  | tail _ hlt =>
    rw [List.mem_singleton.mp hblock]
    exact hlt.le
  | full hfull _ ih =>
    rcases List.mem_cons.mp hblock with rfl | hblock
    · exact hfull.le
    · exact ih hblock

theorem eq_nil_of_no_tokens (h : Tiled size blocks) (hpos : 0 < size)
    (hnone : blockTokens blocks = 0) : blocks = [] := by
  cases h with
  | nil => rfl
  | tail htail _ => simp at hnone; omega
  | full hfull _ => simp at hnone; omega

/-- With no full block there is at most the short one. -/
theorem length_le_one (h : Tiled size blocks) (hnone : fullBlocks size blocks = 0) :
    blocks = [] ∨ ∃ block, blocks = [block] ∧ 0 < block.tokenCount ∧ block.tokenCount < size := by
  cases h with
  | nil => exact .inl rfl
  | tail hpos hlt => exact .inr ⟨_, rfl, hpos, hlt⟩
  | full hfull _ => simp [fullBlocks_cons_full hfull] at hnone

end Tiled

section Hashing

variable {sha256 : List UInt8 → List UInt8} {settings : BlockSettings} {tokenIds : List ℕ}
  {blocks : List PrefixBlock}

theorem chain_blocks_tiled {hpos : 0 < settings.blockSizeTokens} {parent : List UInt8}
    {blockIndex : ℕ} (h : chainBlocks sha256 settings hpos parent blockIndex tokenIds = .ok blocks) :
    Tiled settings.blockSizeTokens blocks ∧ blockTokens blocks = tokenIds.length := by
  induction hn : tokenIds.length using Nat.strong_induction_on
    generalizing tokenIds blocks parent blockIndex with
  | _ n ih =>
    subst hn
    cases tokenIds with
    | nil =>
      unfold chainBlocks at h
      cases h
      exact ⟨.nil, rfl⟩
    | cons token tokens =>
      unfold chainBlocks at h
      obtain ⟨content, -, h⟩ := except_bind_ok.mp h
      obtain ⟨key, -, h⟩ := except_bind_ok.mp h
      obtain ⟨rest, hrest, h⟩ := except_bind_ok.mp h
      cases h
      have hlt : ((token :: tokens).drop settings.blockSizeTokens).length <
          (token :: tokens).length := by
        rw [List.length_drop, List.length_cons]
        omega
      obtain ⟨htiled, hsum⟩ := ih _ hlt hrest rfl
      rw [List.length_drop] at hsum
      refine ⟨?_, ?_⟩
      swap
      · rw [blockTokens_cons, hsum]
        dsimp only
        rw [List.length_take]
        omega
      rcases le_or_gt settings.blockSizeTokens (token :: tokens).length with hle | hgt
      · exact .full ((List.length_take ..).trans (min_eq_left hle)) htiled
      · -- the prompt ends within this block
        obtain rfl : rest = [] := htiled.eq_nil_of_no_tokens hpos (by omega)
        have hwhole : ((token :: tokens).take settings.blockSizeTokens).length =
            (token :: tokens).length := by rw [List.length_take, min_eq_right hgt.le]
        exact .tail (hwhole ▸ Nat.succ_pos _) (hwhole ▸ hgt)

/-- What a prompt is cut into. -/
theorem build_prefix_blocks_tiled (h : buildPrefixBlocks sha256 tokenIds settings = .ok blocks) :
    0 < settings.blockSizeTokens ∧ Tiled settings.blockSizeTokens blocks ∧
      blockTokens blocks = tokenIds.length := by
  unfold buildPrefixBlocks at h
  split_ifs at h with hpos
  exact ⟨hpos, chain_blocks_tiled h⟩

end Hashing

end InferTwin
