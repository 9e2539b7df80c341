import Mathlib.Data.List.Basic
import Mathlib.Data.List.Induction
import Mathlib.Data.Set.Function

/-! Lists that are hashed item by item, every item together with the digest of those before
it. -/

namespace InferTwin.HashChain

variable {δ μ β : Type} (hash : μ → δ) (link : δ → β → μ)

/-- The digest after some items, from that of their parent. -/
def digestFrom (parent : δ) (items : List β) : δ :=
  items.foldl (fun parent item ↦ hash (link parent item)) parent

/-- All that is hashed on the way. -/
def inputsFrom : δ → List β → List μ
  | _, [] => []
  | parent, item :: items => link parent item :: inputsFrom (hash (link parent item)) items

theorem digest_concat (parent : δ) (items : List β) (item : β) :
    digestFrom hash link parent (items ++ [item]) =
      hash (link (digestFrom hash link parent items) item) := by
  rw [digestFrom, List.foldl_concat, digestFrom]

theorem inputs_append (parent : δ) (items items' : List β) :
    inputsFrom hash link parent (items ++ items') = inputsFrom hash link parent items ++
      inputsFrom hash link (digestFrom hash link parent items) items' := by
  induction items generalizing parent with
  | nil => rfl
  | cons item items ih =>
    rw [List.cons_append, inputsFrom, ih, inputsFrom, List.cons_append]
    rfl

theorem inputs_prefix {items items' : List β} (h : items <+: items') (parent : δ) :
    inputsFrom hash link parent items ⊆ inputsFrom hash link parent items' := by
  obtain ⟨rest, rfl⟩ := h
  rw [inputs_append]
  exact List.subset_append_left _ _

/-- Every digest along the chain is one of the hash. -/
theorem digest_from_hash (root : μ) (items : List β) :
    ∃ message, digestFrom hash link (hash root) items = hash message := by
  cases items using List.reverseRecOn with
  | nil => exact ⟨root, rfl⟩
  | append_singleton items item => exact ⟨_, digest_concat hash link (hash root) items item⟩

/-- What is hashed tells the parent's digest and the item, for the items `valid`, and is never
the root. -/
structure Unambiguous (root : μ) (valid : Set β) : Prop where
  parts : ∀ message message', ∀ item ∈ valid, ∀ item' ∈ valid,
    link (hash message) item = link (hash message') item' →
      hash message = hash message' ∧ item = item'
  root_ne : ∀ message, ∀ item ∈ valid, link (hash message) item ≠ root

variable {hash link}

/-- Without a collision among what is hashed, the digest identifies the whole list. -/
theorem digest_injective {root : μ} {valid : Set β} (hlink : Unambiguous hash link root valid)
    {items items' : List β} (hitems : ∀ item ∈ items, item ∈ valid)
    (hitems' : ∀ item ∈ items', item ∈ valid)
    (hinj : Set.InjOn hash {message | message = root ∨
      message ∈ inputsFrom hash link (hash root) items ∨
      message ∈ inputsFrom hash link (hash root) items'})
    (h : digestFrom hash link (hash root) items = digestFrom hash link (hash root) items') :
    items = items' := by
  induction items using List.reverseRecOn generalizing items' with
  | nil =>
    cases items' using List.reverseRecOn with
    | nil => rfl
    | append_singleton items' item' =>
      rw [digest_concat] at h
      rw [inputs_append] at hinj
      have hroot := hinj (.inl rfl) (.inr (.inr (List.mem_append_right _ List.mem_cons_self))) h
      obtain ⟨message, hmessage⟩ := digest_from_hash hash link root items'
      rw [hmessage] at hroot
      exact absurd hroot.symm (hlink.root_ne message item' (hitems' item' (by simp)))
  | append_singleton items item ih =>
    cases items' using List.reverseRecOn with
    | nil =>
      rw [digest_concat] at h
      rw [inputs_append] at hinj
      have hroot := hinj (.inr (.inl (List.mem_append_right _ List.mem_cons_self))) (.inl rfl) h
      obtain ⟨message, hmessage⟩ := digest_from_hash hash link root items
      rw [hmessage] at hroot
      exact absurd hroot (hlink.root_ne message item (hitems item (by simp)))
    | append_singleton items' item' =>
      rw [digest_concat, digest_concat] at h
      rw [inputs_append, inputs_append] at hinj
      have hsame := hinj (.inr (.inl (List.mem_append_right _ List.mem_cons_self)))
        (.inr (.inr (List.mem_append_right _ List.mem_cons_self))) h
      obtain ⟨message, hmessage⟩ := digest_from_hash hash link root items
      obtain ⟨message', hmessage'⟩ := digest_from_hash hash link root items'
      rw [hmessage, hmessage'] at hsame
      obtain ⟨hparent, rfl⟩ := hlink.parts message message' item (hitems item (by simp)) item'
        (hitems' item' (by simp)) hsame
      rw [← hmessage, ← hmessage'] at hparent
      have hinj' : Set.InjOn hash {message | message = root ∨
          message ∈ inputsFrom hash link (hash root) items ∨
          message ∈ inputsFrom hash link (hash root) items'} := by
        refine hinj.mono ?_
        rintro other (hother | hother | hother)
        · exact .inl hother
        · exact .inr (.inl (List.mem_append_left _ hother))
        · exact .inr (.inr (List.mem_append_left _ hother))
      rw [ih (fun other hother ↦ hitems other (List.mem_append_left _ hother))
        (fun other hother ↦ hitems' other (List.mem_append_left _ hother)) hinj' hparent]

end InferTwin.HashChain
