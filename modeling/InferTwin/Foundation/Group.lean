import InferTwin.Foundation.Dict
import Mathlib.Algebra.BigOperators.Group.List.Basic
import Mathlib.Algebra.Order.Ring.Nat

namespace InferTwin

variable {α : Type} (keyOf : α → String)

/-- Append each item to the list of its key, on a dictionary of lists that are empty at
first. -/
def groupItems (items : List α) : Dict String (List α) :=
  items.foldl (fun grouped item ↦ Finmap.insert (keyOf item)
    ((Finmap.lookup (keyOf item) grouped).getD [] ++ [item]) grouped) ∅

/-- The items of one key. -/
def itemsOf (items : List α) (key : String) : List α :=
  items.filter fun item ↦ keyOf item = key

theorem itemsOf_concat (items : List α) (item : α) (key : String) :
    itemsOf keyOf (items ++ [item]) key =
      itemsOf keyOf items key ++
        if keyOf item = key then [item] else [] := by
  unfold itemsOf
  rw [List.filter_append, List.filter_singleton]
  simp

theorem group_items_concat (items : List α) (item : α) :
    groupItems keyOf (items ++ [item]) = Finmap.insert (keyOf item)
      ((Finmap.lookup (keyOf item) (groupItems keyOf items)).getD [] ++ [item])
        (groupItems keyOf items) := by
  unfold groupItems
  rw [List.foldl_concat]

/-- The group of a key, empty where it has none. -/
theorem group_items_getD (items : List α) (key : String) :
    (Finmap.lookup key (groupItems keyOf items)).getD [] =
      itemsOf keyOf items key := by
  induction items using List.reverseRecOn with
  | nil => rfl
  | append_singleton items item ih =>
    rw [group_items_concat, itemsOf_concat]
    rcases eq_or_ne key (keyOf item) with rfl | hne
    · rw [Finmap.lookup_insert, Option.getD_some, ih, if_pos rfl]
    · rw [Finmap.lookup_insert_of_ne _ hne, ih, if_neg hne.symm, List.append_nil]

theorem group_items_keys (items : List α) :
    Finmap.keys (groupItems keyOf items) = (items.map keyOf).toFinset := by
  induction items using List.reverseRecOn with
  | nil => rfl
  | append_singleton items item ih =>
    rw [group_items_concat, Dict.keys_insert, ih]
    ext key
    simp [eq_comm]

theorem itemsOf_sublist (items : List α) (key : String) :
    (itemsOf keyOf items key).Sublist items := List.filter_sublist

section Sums

variable {M : Type} [AddCommMonoid M]

/-- A key of a list without repetitions is counted once. -/
theorem sum_map_ite_eq {keys : List String} (hd : keys.Nodup) (wanted : String) (value : M) :
    (keys.map fun key ↦ if wanted = key then value else 0).sum =
      if wanted ∈ keys then value else 0 := by
  induction keys with
  | nil => simp
  | cons key keys ih =>
    obtain ⟨hnotin, hd⟩ := List.nodup_cons.mp hd
    rw [List.map_cons, List.sum_cons, ih hd]
    rcases eq_or_ne wanted key with rfl | hne
    · simp [hnotin]
    · simp [hne]

/-- What the groups come to is what all the items come to. -/
theorem sum_map_itemsOf {items : List α} {keys : List String} (hd : keys.Nodup)
    (hkeys : ∀ item ∈ items, keyOf item ∈ keys) (f : α → M) :
    (keys.map fun key ↦ ((itemsOf keyOf items key).map f).sum).sum = (items.map f).sum := by
  induction items with
  | nil => simp [itemsOf]
  | cons item items ih =>
    obtain ⟨hitem, hitems⟩ := List.forall_mem_cons.mp hkeys
    have hsum (key : String) : ((itemsOf keyOf (item :: items) key).map f).sum =
        (if keyOf item = key then f item else 0) + ((itemsOf keyOf items key).map f).sum := by
      unfold itemsOf
      rw [List.filter_cons]
      by_cases heq : keyOf item = key
      · rw [if_pos (decide_eq_true heq), if_pos heq, List.map_cons, List.sum_cons]
      · rw [if_neg (by simpa using heq), if_neg heq, zero_add]
    have hone : (keys.map fun key ↦ if keyOf item = key then f item else 0).sum = f item := by
      rw [sum_map_ite_eq hd, if_pos hitem]
    simp only [hsum, List.sum_map_add, hone, ih hitems, List.map_cons, List.sum_cons]

end Sums

/-- The groups have all the items together. -/
theorem sum_length_itemsOf {items : List α} {keys : List String} (hd : keys.Nodup)
    (hkeys : ∀ item ∈ items, keyOf item ∈ keys) :
    (keys.map fun key ↦ (itemsOf keyOf items key).length).sum = items.length := by
  have hlength (own : List α) : own.length = (own.map fun _ ↦ 1).sum := by
    rw [List.map_const', List.sum_replicate_nat, Nat.mul_one]
  simp only [hlength]
  exact sum_map_itemsOf keyOf hd hkeys fun _ ↦ 1

end InferTwin
