import Mathlib.Algebra.BigOperators.Group.Multiset.Defs
import Mathlib.Algebra.Order.Ring.Rat
import Mathlib.Data.Finmap
import Mathlib.Data.Finset.Sort
import Mathlib.Data.String.Basic

namespace InferTwin

/-- A Python dictionary, as a finite map. -/
abbrev Dict (κ ν : Type) := Finmap fun _ : κ ↦ ν

namespace Dict

variable {κ ν : Type} [DecidableEq κ]

/-- The number of entries. -/
def len (dict : Dict κ ν) : ℕ := dict.keys.card

omit [DecidableEq κ] in
@[simp] theorem len_empty : (∅ : Dict κ ν).len = 0 := rfl

theorem keys_erase (dict : Dict κ ν) (key : κ) :
    Finmap.keys (Finmap.erase key dict) = (Finmap.keys dict).erase key := by
  ext k
  simp [Finmap.mem_keys]

theorem keys_insert (dict : Dict κ ν) (key : κ) (value : ν) :
    Finmap.keys (Finmap.insert key value dict) = insert key (Finmap.keys dict) := by
  ext k
  simp [Finmap.mem_keys, Finmap.mem_insert]

/-- Delete a list of keys. -/
def eraseAll (dict : Dict κ ν) (keys : List κ) : Dict κ ν :=
  keys.foldl (fun dict key ↦ Finmap.erase key dict) dict

theorem lookup_eraseAll {dict : Dict κ ν} {keys : List κ} {key : κ} (h : key ∉ keys) :
    (dict.eraseAll keys).lookup key = dict.lookup key := by
  induction keys generalizing dict with
  | nil => rfl
  | cons first keys ih =>
    obtain ⟨hne, h⟩ := List.ne_and_not_mem_of_not_mem_cons h
    exact (ih h).trans (Finmap.lookup_erase_ne hne)

theorem keys_eraseAll (dict : Dict κ ν) (keys : List κ) :
    Finmap.keys (dict.eraseAll keys) = Finmap.keys dict \ keys.toFinset := by
  induction keys generalizing dict with
  | nil => simp [eraseAll]
  | cons key keys ih =>
    rw [eraseAll, List.foldl_cons]
    refine (ih _).trans ?_
    rw [keys_erase]
    ext k
    simp only [Finset.mem_sdiff, Finset.mem_erase, List.mem_toFinset, List.mem_cons, not_or]
    tauto

theorem eraseAll_append (dict : Dict κ ν) (keys keys' : List κ) :
    dict.eraseAll (keys ++ keys') = (dict.eraseAll keys).eraseAll keys' := List.foldl_append

theorem mem_iff_lookup {dict : Dict κ ν} {key : κ} :
    key ∈ dict ↔ ∃ value, dict.lookup key = some value := by
  rw [← Finmap.lookup_isSome, Option.isSome_iff_exists]

theorem len_ne_zero_iff {dict : Dict κ ν} :
    dict.len ≠ 0 ↔ ∃ key value, dict.lookup key = some value := by
  rw [len, Finset.card_ne_zero]
  constructor
  · rintro ⟨key, hkey⟩
    exact ⟨key, mem_iff_lookup.mp (Finmap.mem_keys.mp hkey)⟩
  · rintro ⟨key, hkey⟩
    exact ⟨key, Finmap.mem_keys.mpr (mem_iff_lookup.mpr hkey)⟩

/-- A dictionary of some items: a later item replaces an earlier one under its key. -/
def ofPairs (pairs : List (κ × ν)) : Dict κ ν :=
  pairs.foldl (fun dict pair ↦ Finmap.insert pair.1 pair.2 dict) ∅

/-- Items under keys of their own. -/
def byKey (keyOf : ν → κ) (items : List ν) : Dict κ ν :=
  ofPairs (items.map fun item ↦ (keyOf item, item))

theorem of_pairs_concat (pairs : List (κ × ν)) (pair : κ × ν) :
    ofPairs (pairs ++ [pair]) = Finmap.insert pair.1 pair.2 (ofPairs pairs) := by
  unfold ofPairs
  rw [List.foldl_concat]

/-- The sum of a quantity over the entries. -/
def total (f : ν → ℚ) (dict : Dict κ ν) : ℚ := (dict.entries.map fun entry ↦ f entry.2).sum

omit [DecidableEq κ] in
@[simp] theorem total_empty (f : ν → ℚ) : (∅ : Dict κ ν).total f = 0 := rfl

theorem total_insert (f : ν → ℚ) {dict : Dict κ ν} {key : κ} (h : key ∉ dict) (value : ν) :
    Dict.total f (Finmap.insert key value dict) = f value + dict.total f := by
  rw [total, Finmap.entries_insert_of_notMem h, Multiset.map_cons, Multiset.sum_cons, total]

/-- `sorted`, for a set of texts. -/
def inOrder (keys : Finset String) : List String := keys.sort (· ≤ ·)

/-- The keys of a dictionary in order. -/
def sortedKeys (dict : Dict String ν) : List String := inOrder (Finmap.keys dict)

theorem mem_inOrder {keys : Finset String} {key : String} : key ∈ inOrder keys ↔ key ∈ keys :=
  Finset.mem_sort _

theorem inOrder_nodup (keys : Finset String) : (inOrder keys).Nodup := Finset.sort_nodup _ _

theorem mem_sortedKeys {dict : Dict String ν} {key : String} :
    key ∈ dict.sortedKeys ↔ key ∈ Finmap.keys dict := mem_inOrder

end Dict

end InferTwin
