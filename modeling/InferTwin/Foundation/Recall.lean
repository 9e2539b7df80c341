import InferTwin.Foundation.Dict
import InferTwin.Foundation.Effect

namespace InferTwin

open Effect

variable {ε σ κ ν α β ι : Type}

/-- A computation that answers what `answer` says in every state with `P`, and leaves `P` true. -/
def Effect.Resolves (P : σ → Prop) (x : EStateM ε σ α) (answer : Except ε α) : Prop :=
  ∀ s, P s → outcome (x s) = answer ∧ P (after (x s))

namespace Effect.Resolves

variable {P : σ → Prop} {x : EStateM ε σ α} {answer : Except ε α}

theorem pure (a : α) : Resolves P (Pure.pure a : EStateM ε σ α) (.ok a) := fun _ h ↦ ⟨rfl, h⟩

theorem check (answer : Except ε α) : Resolves P (Effect.check answer) answer := by
  intro s h
  cases answer <;> exact ⟨rfl, h⟩

theorem bind {f : α → EStateM ε σ β} {g : α → Except ε β} (h : Resolves P x answer)
    (hf : ∀ a, answer = .ok a → Resolves P (f a) (g a)) : Resolves P (x >>= f) (answer >>= g) := by
  intro s hs
  obtain ⟨hx, hafter⟩ := h s hs
  rw [bind_apply]
  cases hrun : x s with
  | ok a t =>
    rw [hrun] at hx hafter
    subst hx
    exact hf a rfl t hafter
  | error e t =>
    rw [hrun] at hx hafter
    subst hx
    exact ⟨rfl, hafter⟩

theorem returns {a : α} (h : Resolves P x (.ok a)) {s : σ} (hs : P s) :
    ∃ t, x s = .ok a t ∧ P t := by
  obtain ⟨hx, hafter⟩ := h s hs
  cases hrun : x s with
  | ok b t =>
    rw [hrun] at hx hafter
    cases hx
    exact ⟨t, rfl, hafter⟩
  | error e t =>
    rw [hrun] at hx
    cases hx

end Effect.Resolves

/-- A dictionary in front of a computation that may fail: what it does not hold is computed and
kept. A failure is not kept. -/
def remember [DecidableEq κ] (key : κ) (compute : Except ε ν) : EStateM ε (Dict κ ν) ν := fun table ↦
  match Finmap.lookup key table with
  | some value => .ok value table
  | none =>
    match compute with
    | .ok value => .ok value (Finmap.insert key value table)
    | .error e => .error e table

/-- The dictionary holds nothing that would not be computed again for its key. -/
def Recalls [DecidableEq κ] (answer : κ → Except ε ν) (table : Dict κ ν) : Prop :=
  ∀ key value, Finmap.lookup key table = some value → answer key = .ok value

theorem recalls_empty [DecidableEq κ] (answer : κ → Except ε ν) : Recalls answer ∅ := by
  intro key value h
  simp at h

/-- A dictionary of what has been computed does not show. -/
theorem remember_resolves [DecidableEq κ] (answer : κ → Except ε ν) (key : κ) :
    Resolves (Recalls answer) (remember key (answer key)) (answer key) := by
  intro table h
  unfold remember
  cases hlookup : Finmap.lookup key table with
  | some value =>
    rw [h key value hlookup]
    exact ⟨rfl, h⟩
  | none =>
    cases hanswer : answer key with
    | error e => exact ⟨rfl, h⟩
    | ok value =>
      refine ⟨rfl, fun other found hfound ↦ ?_⟩
      rw [after_ok] at hfound
      rcases eq_or_ne other key with rfl | hne
      · rw [Finmap.lookup_insert] at hfound
        cases hfound
        exact hanswer
      · rw [Finmap.lookup_insert_of_ne _ hne] at hfound
        exact h other found hfound

end InferTwin
