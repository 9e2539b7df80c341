import Mathlib.Data.List.Sort

namespace InferTwin.StableSort

variable {α : Type} (r : α → α → Prop) [DecidableRel r]

/-- An item that precedes a whole list is put at its head. -/
theorem orderedInsert_eq_cons {item : α} {items : List α} (h : ∀ other ∈ items, r item other) :
    items.orderedInsert r item = item :: items := by
  cases items with
  | nil => rfl
  | cons first items => exact List.orderedInsert_cons_of_le r items (h first List.mem_cons_self)

theorem filter_orderedInsert [IsTrans α r] (p : α → Bool) (item : α) {items : List α}
    (h : items.Pairwise r) :
    (items.orderedInsert r item).filter p =
      if p item then (items.filter p).orderedInsert r item else items.filter p := by
  induction items with
  | nil => cases hp : p item <;> simp [hp]
  | cons first items ih =>
    obtain ⟨hfirst, hitems⟩ := List.pairwise_cons.mp h
    by_cases hr : r item first
    · have hall : ∀ other ∈ (first :: items).filter p, r item other := by
        intro other hother
        rcases List.mem_cons.mp (List.mem_of_mem_filter hother) with rfl | hother
        · exact hr
        · exact IsTrans.trans _ _ _ hr (hfirst other hother)
      rw [List.orderedInsert_cons_of_le r items hr, List.filter_cons, orderedInsert_eq_cons r hall]
    · rw [List.orderedInsert_of_not_le r items hr, List.filter_cons, ih hitems]
      cases hp : p first with
      | true =>
        simp only [List.filter_cons, hp, if_true, List.orderedInsert_of_not_le r _ hr]
        split <;> rfl
      | false => simp only [List.filter_cons, hp, Bool.false_eq_true, if_false]

/-- Sorting keeps the order of equal items, so that it commutes with a selection. -/
theorem filter_insertionSort [Std.Total r] [IsTrans α r] (p : α → Bool) (items : List α) :
    (items.insertionSort r).filter p = (items.filter p).insertionSort r := by
  induction items with
  | nil => rfl
  | cons item items ih =>
    rw [List.insertionSort_cons, filter_orderedInsert r p item (List.pairwise_insertionSort r items),
      ih, List.filter_cons]
    split
    · rfl
    · rfl

section Key

variable {β : Type} [LinearOrder β] (key : α → β)

theorem total_key : Std.Total fun a b ↦ key a ≤ key b := ⟨fun _ _ ↦ le_total _ _⟩

theorem trans_key : IsTrans α fun a b ↦ key a ≤ key b := ⟨fun _ _ _ ↦ le_trans⟩

theorem pairwise_sort_key (items : List α) :
    (items.insertionSort fun a b ↦ key a ≤ key b).Pairwise fun a b ↦ key a ≤ key b := by
  have htotal := total_key key
  have htrans := trans_key key
  exact List.pairwise_insertionSort _ items

theorem filter_sort_key (p : α → Bool) (items : List α) :
    (items.insertionSort fun a b ↦ key a ≤ key b).filter p =
      (items.filter p).insertionSort fun a b ↦ key a ≤ key b := by
  have htotal := total_key key
  have htrans := trans_key key
  exact filter_insertionSort _ p items

end Key

end InferTwin.StableSort
