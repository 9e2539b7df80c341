import Mathlib.Data.List.Sort
import Mathlib.Order.Bounds.Basic

/-! The rank of a value in a list, and the value that a rank of the sorted list stands for. -/

namespace InferTwin

variable {α : Type} [LinearOrder α]

/-- The number of items up to a value. -/
def rankOf (items : List α) (value : α) : ℕ := items.countP (· ≤ value)

theorem rankOf_perm {items items' : List α} (h : items.Perm items') (value : α) :
    rankOf items value = rankOf items' value := h.countP_eq _

/-- No value gains rank when an item of the list grows. -/
theorem rankOf_replace_le (before after : List α) {item item' : α} (h : item ≤ item') (value : α) :
    rankOf (before ++ item' :: after) value ≤ rankOf (before ++ item :: after) value := by
  unfold rankOf
  rw [List.countP_append, List.countP_append, List.countP_cons, List.countP_cons]
  by_cases hvalue : item' ≤ value
  · have hitem := h.trans hvalue
    simp [hvalue, hitem]
  · simp [hvalue]

theorem rankOf_cons (item : α) (items : List α) (value : α) :
    rankOf (item :: items) value = rankOf items value + if item ≤ value then 1 else 0 := by
  rw [rankOf, List.countP_cons, rankOf]
  simp only [decide_eq_true_eq]

/-- A value below every item has no rank. -/
theorem rankOf_eq_zero {items : List α} {value : α} (h : ∀ item ∈ items, value < item) :
    rankOf items value = 0 := by
  apply List.countP_eq_zero.mpr
  intro item hitem hle
  exact absurd (of_decide_eq_true hle) (h item hitem).not_ge

/-- An item of a sorted list is up to the values whose rank goes past its position. -/
theorem sorted_item_le_iff {items : List α} {item : α} {i : ℕ}
    (hsorted : items.Pairwise (· ≤ ·)) (hitem : items[i]? = some item) (value : α) :
    item ≤ value ↔ i < rankOf items value := by
  induction items generalizing i with
  | nil => cases hitem
  | cons first items ih =>
    obtain ⟨hfirst, hsorted⟩ := List.pairwise_cons.mp hsorted
    rw [rankOf_cons]
    by_cases hle : first ≤ value
    · rw [if_pos hle]
      cases i with
      | zero =>
        cases hitem
        constructor
        · intro _
          omega
        · exact fun _ ↦ hle
      | succ i =>
        rw [ih hsorted hitem]
        omega
    · -- nothing in the list is up to the value
      have hitems : ∀ other ∈ items, value < other :=
        fun other hother ↦ (not_le.mp hle).trans_le (hfirst other hother)
      have habove : value < item := by
        cases i with
        | zero =>
          cases hitem
          exact not_le.mp hle
        | succ i => exact hitems item (List.mem_of_getElem? hitem)
      rw [if_neg hle, rankOf_eq_zero hitems]
      constructor
      · intro hvalue
        exact absurd hvalue habove.not_ge
      · intro hlt
        omega

end InferTwin
