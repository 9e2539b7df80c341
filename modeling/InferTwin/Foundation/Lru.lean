import Mathlib.Data.List.Dedup
import Mathlib.Data.List.DropRight

/-! Least recently used: a list of keys without duplicates, the most recent one last. -/

namespace InferTwin.Lru

variable {κ : Type*} [DecidableEq κ]

/-- `key` becomes the most recent one. -/
def touch (order : List κ) (key : κ) : List κ := order.erase key ++ [key]

/-- A key that is there moves to the back; a new one is appended after the front was dropped,
if the list is full. -/
def store (capacity : ℕ) (order : List κ) (key : κ) : List κ :=
  if key ∈ order then touch order key
  else (if order.length < capacity then order else order.tail) ++ [key]

@[simp] theorem mem_touch {order : List κ} {key other : κ} :
    other ∈ touch order key ↔ other ∈ order ∨ other = key := by
  rw [touch, List.mem_append, List.mem_singleton]
  rcases eq_or_ne other key with rfl | hne
  · simp
  · rw [List.mem_erase_of_ne hne]

theorem touch_of_not_mem {order : List κ} {key : κ} (h : key ∉ order) :
    touch order key = order ++ [key] := by
  rw [touch, List.erase_of_not_mem h]

theorem length_touch_of_mem {order : List κ} {key : κ} (h : key ∈ order) :
    (touch order key).length = order.length := by
  rw [touch, List.length_append, List.length_erase_of_mem h, List.length_singleton]
  exact Nat.sub_add_cancel (List.length_pos_of_mem h)

theorem Nodup.touch {order : List κ} (h : order.Nodup) (key : κ) : (touch order key).Nodup := by
  refine List.Nodup.append (h.erase key) (List.nodup_singleton key) ?_
  rw [List.disjoint_singleton]
  exact h.not_mem_erase

/-- Touching a key that is there does not change who is there. -/
theorem mem_touch_of_mem {order : List κ} {key : κ} (h : key ∈ order) (other : κ) :
    other ∈ touch order key ↔ other ∈ order := by
  rw [mem_touch]
  exact or_iff_left_of_imp fun he ↦ he ▸ h

omit [DecidableEq κ] in
/-- What is left when there has to be room for one more key. -/
theorem length_tail_lt {capacity : ℕ} {order : List κ} (hpos : 0 < capacity)
    (h : order.length ≤ capacity) :
    (if order.length < capacity then order else order.tail).length < capacity := by
  split_ifs with hroom
  · exact hroom
  · rw [List.length_tail]
    omega

section Items

variable {β : Type*} (key : β → κ)

/-- The leading items whose keys are there. -/
def hits (order : List κ) (items : List β) : List β := items.takeWhile (key · ∈ order)

/-- The items after the hits. -/
def misses (order : List κ) (items : List β) : List β := items.dropWhile (key · ∈ order)

/-- Use the keys of the hits, in their order. -/
def lookup (order : List κ) (items : List β) : List κ :=
  (hits key order items).foldl (fun order item ↦ touch order (key item)) order

/-- Store the keys of all items, in their order. -/
def write (capacity : ℕ) (order : List κ) (items : List β) : List κ :=
  items.foldl (fun order item ↦ store capacity order (key item)) order

variable {key} {order : List κ} {item : β}

theorem hits_append_misses (items : List β) : hits key order items ++ misses key order items = items :=
  List.takeWhile_append_dropWhile

theorem hits_cons_of_mem (h : key item ∈ order) (items : List β) :
    hits key order (item :: items) = item :: hits key order items := by
  simp [hits, h]

theorem hits_cons_of_not_mem (h : key item ∉ order) (items : List β) :
    hits key order (item :: items) = [] := by
  simp [hits, h]

theorem misses_cons_of_mem (h : key item ∈ order) (items : List β) :
    misses key order (item :: items) = misses key order items := by
  simp [misses, h]

theorem misses_cons_of_not_mem (h : key item ∉ order) (items : List β) :
    misses key order (item :: items) = item :: items := by
  simp [misses, h]

/-- A hit leaves the set of keys alone, so that it does not decide over the next one. -/
theorem hits_touch {used : κ} (h : used ∈ order) (items : List β) :
    hits key (touch order used) items = hits key order items := by
  unfold hits
  simp only [mem_touch_of_mem h]

theorem misses_touch {used : κ} (h : used ∈ order) (items : List β) :
    misses key (touch order used) items = misses key order items := by
  unfold misses
  simp only [mem_touch_of_mem h]

theorem write_cons (capacity : ℕ) (items : List β) :
    write key capacity order (item :: items) =
      write key capacity (store capacity order (key item)) items := rfl

theorem lookup_cons_of_mem (h : key item ∈ order) (items : List β) :
    lookup key order (item :: items) = lookup key (touch order (key item)) items := by
  rw [lookup, hits_cons_of_mem h, List.foldl_cons, lookup, hits_touch h]

theorem lookup_cons_of_not_mem (h : key item ∉ order) (items : List β) :
    lookup key order (item :: items) = order := by
  rw [lookup, hits_cons_of_not_mem h, List.foldl_nil]

/-- Storing what a lookup missed uses all the items that were looked up, in their order. -/
theorem write_misses (capacity : ℕ) (items : List β) :
    write key capacity (lookup key order items) (misses key order items) =
      write key capacity order items := by
  induction items generalizing order with
  | nil => rfl
  | cons item items ih =>
    by_cases hmem : key item ∈ order
    · have hstore : store capacity order (key item) = touch order (key item) := if_pos hmem
      rw [lookup_cons_of_mem hmem, misses_cons_of_mem hmem, write_cons, hstore,
        ← misses_touch hmem, ih]
    · rw [lookup_cons_of_not_mem hmem, misses_cons_of_not_mem hmem]

/-- Where more keys are there, more of the items are hits. -/
theorem hits_mono {larger : List κ} (h : order ⊆ larger) (items : List β) :
    hits key order items <+: hits key larger items := by
  induction items with
  | nil => exact List.prefix_rfl
  | cons item items ih =>
    by_cases hmem : key item ∈ order
    · rw [hits_cons_of_mem hmem, hits_cons_of_mem (h hmem)]
      exact (List.prefix_cons_inj item).mpr ih
    · rw [hits_cons_of_not_mem hmem]
      exact List.nil_prefix

theorem misses_eq_drop (items : List β) :
    misses key order items = items.drop (hits key order items).length := by
  calc misses key order items
      = (hits key order items ++ misses key order items).drop (hits key order items).length :=
        List.drop_left.symm
    _ = items.drop (hits key order items).length := by rw [hits_append_misses]

theorem misses_eq_nil_iff {items : List β} :
    misses key order items = [] ↔ ∀ item ∈ items, key item ∈ order := by
  simp [misses, List.dropWhile_eq_nil_iff]

omit [DecidableEq κ] in
/-- What ends with a key is not empty. -/
theorem foldl_eq_nil_iff {f : List κ → β → List κ} (h : ∀ order item, f order item ≠ [])
    (items : List β) : items.foldl f order = [] ↔ order = [] ∧ items = [] := by
  induction items generalizing order with
  | nil => simp
  | cons item items ih =>
    rw [List.foldl_cons, ih]
    simp [h]

theorem write_eq_nil_iff {capacity : ℕ} {items : List β} :
    write key capacity order items = [] ↔ order = [] ∧ items = [] := by
  refine foldl_eq_nil_iff (fun order item ↦ ?_) items
  unfold store touch
  split_ifs <;> exact List.append_ne_nil_of_right_ne_nil _ (List.cons_ne_nil _ _)

theorem lookup_eq_nil_iff {items : List β} : lookup key order items = [] ↔ order = [] := by
  have htouch (order : List κ) (item : β) : touch order (key item) ≠ [] :=
    List.append_ne_nil_of_right_ne_nil _ (List.cons_ne_nil _ _)
  rw [lookup, foldl_eq_nil_iff htouch]
  refine and_iff_left_of_imp ?_
  rintro rfl
  cases items <;> simp [hits]

end Items

section Stack

/-- The distinct keys of a history of accesses, in the order of their last access, are kept up
to date by touching each accessed key. -/
theorem dedup_concat (history : List κ) (key : κ) :
    (history ++ [key]).dedup = touch history.dedup key := by
  induction history with
  | nil => simp [touch]
  | cons first history ih =>
    rw [List.cons_append]
    by_cases hmem : first ∈ history
    · rw [List.dedup_cons_of_mem (List.mem_append_left _ hmem), List.dedup_cons_of_mem hmem, ih]
    · rw [List.dedup_cons_of_notMem hmem]
      rcases eq_or_ne first key with rfl | hne
      · rw [List.dedup_cons_of_mem (List.mem_append_right _ (List.mem_singleton_self _)), ih,
          touch_of_not_mem (by simpa using hmem), touch, List.erase_cons_head]
      · rw [List.dedup_cons_of_notMem (by simp [hmem, hne]), ih, touch, touch,
          List.erase_cons_tail (by simpa using hne), List.cons_append]

omit [DecidableEq κ] in
/-- The last keys of a list, so many as there is room for. -/
theorem rtake_spec (capacity : ℕ) (all : List κ) :
    ∃ front, all = front ++ all.rtake capacity ∧ (all.rtake capacity).length ≤ capacity ∧
      (front = [] ∨ (all.rtake capacity).length = capacity) := by
  refine ⟨all.rdrop capacity, (List.take_append_drop _ _).symm, ?_, ?_⟩
  · rw [List.rtake, List.length_drop]
    omega
  · rw [List.rtake, List.rdrop, List.length_drop, List.take_eq_nil_iff]
    omega

omit [DecidableEq κ] in
theorem rtake_append_of_length {front order : List κ} {capacity : ℕ}
    (h : order.length ≤ capacity) (hfull : front = [] ∨ order.length = capacity) :
    (front ++ order).rtake capacity = order := by
  rw [List.rtake, List.length_append]
  rcases hfull with rfl | rfl
  · rw [List.length_nil, Nat.zero_add, Nat.sub_eq_zero_of_le h]
    rfl
  · rw [Nat.add_sub_cancel, List.drop_left]

/-- The stack property: what is kept under a capacity is the end of what is kept without one. -/
theorem store_rtake {capacity : ℕ} (hpos : 0 < capacity) {all : List κ} (h : all.Nodup)
    (key : κ) : store capacity (all.rtake capacity) key = (touch all key).rtake capacity := by
  obtain ⟨front, hall, hlength, hfull⟩ := rtake_spec capacity all
  generalize all.rtake capacity = order at hall hlength hfull ⊢
  subst hall
  unfold store
  split_ifs with hmem hroom
  · have hfront : key ∉ front := fun hf ↦ (List.disjoint_of_nodup_append h) hf hmem
    have htouch : touch (front ++ order) key = front ++ touch order key := by
      rw [touch, List.erase_append_right _ hfront, List.append_assoc, ← touch]
    rw [htouch, rtake_append_of_length]
    · rwa [length_touch_of_mem hmem]
    · rwa [length_touch_of_mem hmem]
  · obtain rfl : front = [] := hfull.resolve_right hroom.ne
    rw [List.nil_append, touch_of_not_mem hmem]
    refine (rtake_append_of_length ?_ (.inl rfl)).symm
    rw [List.length_append, List.length_singleton]
    omega
  · obtain ⟨oldest, rest, rfl⟩ : ∃ oldest rest, order = oldest :: rest :=
      List.exists_cons_of_length_pos (by omega)
    have htouch : touch (front ++ oldest :: rest) key =
        front.erase key ++ [oldest] ++ (rest ++ [key]) := by
      by_cases hf : key ∈ front
      · rw [touch, List.erase_append_left _ hf]
        simp
      · rw [touch, List.erase_append_right _ hf, List.erase_of_not_mem hmem,
          List.erase_of_not_mem hf]
        simp
    rw [htouch, List.tail_cons]
    simp only [List.length_cons] at hroom hlength
    refine (rtake_append_of_length ?_ (.inr ?_)).symm
    all_goals rw [List.length_append, List.length_singleton]; omega

/-- What is kept after storing items is the end of the history of all accesses. -/
theorem write_rtake {β : Type*} (key : β → κ) {capacity : ℕ} (hpos : 0 < capacity)
    (history : List κ) (items : List β) :
    write key capacity (history.dedup.rtake capacity) items =
      (history ++ items.map key).dedup.rtake capacity := by
  induction items generalizing history with
  | nil => rw [List.map_nil, List.append_nil, write, List.foldl_nil]
  | cons item items ih =>
    rw [write_cons, store_rtake hpos history.nodup_dedup, ← dedup_concat, ih, List.append_assoc,
      List.map_cons, List.singleton_append]

omit [DecidableEq κ] in
theorem rtake_subset_rtake {smaller larger : ℕ} (h : smaller ≤ larger) (all : List κ) :
    all.rtake smaller ⊆ all.rtake larger := by
  refine List.IsSuffix.subset (List.suffix_of_suffix_length_le (List.drop_suffix _ _)
    (List.drop_suffix _ _) ?_)
  rw [List.rtake, List.rtake, List.length_drop, List.length_drop]
  omega

end Stack

end InferTwin.Lru
