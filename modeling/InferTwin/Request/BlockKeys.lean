import InferTwin.Foundation.Bytes
import InferTwin.Foundation.Effect
import InferTwin.Request.BlockHasher
import Mathlib.Data.List.Nodup

namespace InferTwin

open Effect

theorem hex_digit_inj {n m : ℕ} (hn : n < 16) (hm : m < 16) (h : hexDigit n = hexDigit m) :
    n = m := by
  have hall : ∀ n m : Fin 16, hexDigit n = hexDigit m → n = m := by decide
  exact congrArg Fin.val (hall ⟨n, hn⟩ ⟨m, hm⟩ h)

theorem hex_injective : Function.Injective hex := by
  intro bytes bytes' h
  have hchars := String.ofList_injective h
  induction bytes generalizing bytes' with
  | nil =>
    cases bytes' with
    | nil => rfl
    | cons byte' bytes' => simp at hchars
  | cons byte bytes ih =>
    cases bytes' with
    | nil => simp at hchars
    | cons byte' bytes' =>
      simp only [List.flatMap_cons, List.cons_append, List.nil_append, List.cons.injEq] at hchars
      obtain ⟨hhigh, hlow, hrest⟩ := hchars
      have hbyte := byte.toNat_lt
      have hbyte' := byte'.toNat_lt
      have hdiv := hex_digit_inj (by omega) (by omega) hhigh
      have hmod := hex_digit_inj (Nat.mod_lt _ (by decide)) (Nat.mod_lt _ (by decide)) hlow
      have heq : byte = byte' := UInt8.toNat_inj.mp (by omega)
      rw [heq, ih (congrArg String.ofList hrest) hrest]

section Hashing

variable {sha256 : List UInt8 → List UInt8} {settings : BlockSettings}

/-- What is fed to the hash for the key of a block. -/
def chainMessage (settings : BlockSettings) (parent : List UInt8) (contentHash : String) :
    Except BlockHasherError (List UInt8) := do
  let model ← encodeField settings.model
  let tenant ← match settings.cacheScope with
    | .tenantIsolated => encodeField settings.tenantId
    | .modelShared => .ok []
    | .other text => .error (.unsupportedCacheScope text)
  let content ← encodeField contentHash
  return parent ++ model ++ tenant ++ content

/-- All that is fed to the hash for the keys of a prompt's blocks. -/
def keyMessages (sha256 : List UInt8 → List UInt8) (settings : BlockSettings) :
    List UInt8 → List PrefixBlock → Except BlockHasherError (List (List UInt8))
  | _, [] => .ok []
  | parent, block :: blocks => do
    let message ← chainMessage settings parent block.contentHash
    let messages ← keyMessages sha256 settings (sha256 message) blocks
    return message :: messages

/-- The text whose digest stands in for the parent of the first block. -/
def noneMessage : List UInt8 := "infertwin:none_hash:v1".toUTF8.toList

/-- What is relied on of the hash: digests of 32 bytes, and no collision among the messages
hashed into the keys of these blocks. -/
structure CollisionFree (sha256 : List UInt8 → List UInt8) (settings : BlockSettings)
    (blocks : List PrefixBlock) : Prop where
  digest_length : ∀ message, (sha256 message).length = 32
  distinct : ∀ messages, keyMessages sha256 settings (noneHash sha256) blocks = .ok messages →
    ∀ message ∈ noneMessage :: messages, ∀ message' ∈ noneMessage :: messages,
      sha256 message = sha256 message' → message = message'

/-- Every message begins with the digest of the one before it. -/
inductive Chained (sha256 : List UInt8 → List UInt8) : List UInt8 → List (List UInt8) → Prop
  | nil {parent} : Chained sha256 parent []
  | cons {parent suffix messages} : Chained sha256 (sha256 (parent ++ suffix)) messages →
      Chained sha256 parent ((parent ++ suffix) :: messages)

theorem chain_message_ok {parent message : List UInt8} {contentHash : String}
    (h : chainMessage settings parent contentHash = .ok message) :
    ∃ suffix, message = parent ++ suffix := by
  unfold chainMessage at h
  cases hscope : settings.cacheScope with
  | tenantIsolated =>
    simp only [hscope, except_bind_ok] at h
    obtain ⟨model, -, tenant, -, content, -, h⟩ := h
    cases h
    exact ⟨model ++ (tenant ++ content), by simp only [List.append_assoc]⟩
  | modelShared =>
    simp only [hscope, except_bind_ok] at h
    obtain ⟨model, -, tenant, -, content, -, h⟩ := h
    cases h
    exact ⟨model ++ (tenant ++ content), by simp only [List.append_assoc]⟩
  | other text =>
    simp only [hscope, except_bind_ok] at h
    obtain ⟨model, -, tenant, htenant, -⟩ := h
    cases htenant

theorem chain_hash_eq (parent : List UInt8) (contentHash : String) :
    chainHash sha256 parent settings.model settings.tenantId settings.cacheScope contentHash =
      (chainMessage settings parent contentHash).map sha256 := by
  unfold chainHash chainMessage
  cases settings.cacheScope <;> simp only [except_bind_map] <;> rfl

theorem key_messages_chained {parent : List UInt8} {blocks : List PrefixBlock}
    {messages : List (List UInt8)} (h : keyMessages sha256 settings parent blocks = .ok messages) :
    Chained sha256 parent messages := by
  induction blocks generalizing parent messages with
  | nil =>
    cases h
    exact .nil
  | cons block blocks ih =>
    unfold keyMessages at h
    obtain ⟨message, hmessage, h⟩ := except_bind_ok.mp h
    obtain ⟨rest, hrest, h⟩ := except_bind_ok.mp h
    cases h
    obtain ⟨suffix, rfl⟩ := chain_message_ok hmessage
    exact .cons (ih hrest)

/-- The keys of a prompt are digests of its messages. -/
theorem chain_blocks_keys {hpos : 0 < settings.blockSizeTokens} {parent : List UInt8}
    {blockIndex : ℕ} {tokenIds : List ℕ} {blocks : List PrefixBlock}
    (h : chainBlocks sha256 settings hpos parent blockIndex tokenIds = .ok blocks) :
    ∃ messages, keyMessages sha256 settings parent blocks = .ok messages ∧
      blocks.map PrefixBlock.blockKey = messages.map fun message ↦ hex (sha256 message) := by
  induction hn : tokenIds.length using Nat.strong_induction_on
    generalizing tokenIds blocks parent blockIndex with
  | _ n ih =>
    subst hn
    cases tokenIds with
    | nil =>
      unfold chainBlocks at h
      cases h
      exact ⟨[], rfl, rfl⟩
    | cons token tokens =>
      unfold chainBlocks at h
      obtain ⟨content, -, h⟩ := except_bind_ok.mp h
      obtain ⟨key, hkey, h⟩ := except_bind_ok.mp h
      obtain ⟨rest, hrest, h⟩ := except_bind_ok.mp h
      cases h
      rw [chain_hash_eq] at hkey
      obtain ⟨message, hmessage, rfl⟩ := except_map_ok.mp hkey
      have hlt : ((token :: tokens).drop settings.blockSizeTokens).length <
          (token :: tokens).length := by
        rw [List.length_drop, List.length_cons]
        omega
      obtain ⟨messages, hmessages, hkeys⟩ := ih _ hlt hrest rfl
      refine ⟨message :: messages, ?_, ?_⟩
      · unfold keyMessages
        rw [hmessage, except_ok_bind, hmessages]
        rfl
      · rw [List.map_cons, List.map_cons, hkeys]

theorem Chained.link {start : List UInt8} {messages : List (List UInt8)}
    (h : Chained sha256 (sha256 start) messages) (k : ℕ) (hk : k < messages.length) :
    ∃ suffix, messages[k] =
      sha256 ((start :: messages).get ⟨k, Nat.lt_succ_of_lt hk⟩) ++ suffix := by
  induction k generalizing start messages with
  | zero =>
    cases h with
    | nil => simp at hk
    | cons h => exact ⟨_, rfl⟩
  | succ k ih =>
    cases h with
    | nil => simp at hk
    | cons h => exact ih h (Nat.lt_of_succ_lt_succ hk)

/-- The digests of chained messages do not repeat, where no two of them collide: going back
from two equal digests ends at the start of the chain, whose message is a short one. -/
theorem Chained.nodup {start : List UInt8} {messages : List (List UInt8)}
    (h : Chained sha256 (sha256 start) messages) (hshort : start.length < 32)
    (hlength : ∀ message, (sha256 message).length = 32)
    (hdistinct : ∀ message ∈ start :: messages, ∀ message' ∈ start :: messages,
      sha256 message = sha256 message' → message = message') :
    ((start :: messages).map sha256).Nodup := by
  have hall : ∀ i j (hj : j < (start :: messages).length) (hij : i < j),
      sha256 ((start :: messages).get ⟨i, hij.trans hj⟩) ≠ sha256 (start :: messages)[j] := by
    intro i
    induction i with
    | zero =>
      intro j hj hij heq
      obtain ⟨k, rfl⟩ : ∃ k, j = k + 1 := ⟨j - 1, by omega⟩
      obtain ⟨suffix, hlink⟩ := h.link k (Nat.lt_of_succ_lt_succ hj)
      have hsame := hdistinct _ (List.getElem_mem _) _ (List.getElem_mem _) heq
      rw [List.getElem_cons_zero, List.getElem_cons_succ, hlink] at hsame
      have hlong := congrArg List.length hsame
      rw [List.length_append, hlength] at hlong
      omega
    | succ i ih =>
      intro j hj hij heq
      obtain ⟨k, rfl⟩ : ∃ k, j = k + 1 := ⟨j - 1, by omega⟩
      obtain ⟨suffix, hlink⟩ := h.link i (by rw [List.length_cons] at hj; omega)
      obtain ⟨suffix', hlink'⟩ := h.link k (Nat.lt_of_succ_lt_succ hj)
      have hsame := hdistinct _ (List.getElem_mem _) _ (List.getElem_mem _) heq
      rw [List.getElem_cons_succ, List.getElem_cons_succ, hlink, hlink'] at hsame
      refine ih k (Nat.lt_of_succ_lt hj) (by omega) ?_
      exact (List.append_inj hsame (by rw [hlength, hlength])).1
  refine List.pairwise_iff_getElem.mpr fun i j hi hj hij ↦ ?_
  rw [List.getElem_map, List.getElem_map]
  exact hall i j (by simpa using hj) hij

theorem none_message_short : noneMessage.length < 32 := by
  rw [noneMessage, byte_array_toList]
  decide

/-- No two blocks of a prompt share a key. -/
theorem block_keys_nodup {tokenIds : List ℕ} {blocks : List PrefixBlock}
    (h : buildPrefixBlocks sha256 tokenIds settings = .ok blocks)
    (hhash : CollisionFree sha256 settings blocks) : (blocks.map PrefixBlock.blockKey).Nodup := by
  unfold buildPrefixBlocks at h
  split_ifs at h with hpos
  obtain ⟨messages, hmessages, hkeys⟩ := chain_blocks_keys h
  have hdigests := (key_messages_chained hmessages).nodup none_message_short hhash.digest_length
    (hhash.distinct messages hmessages)
  have hhex := (List.nodup_cons.mp hdigests).2.map hex_injective
  rw [hkeys]
  rwa [List.map_map] at hhex

end Hashing

end InferTwin
