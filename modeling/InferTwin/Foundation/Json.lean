import Mathlib.Algebra.Order.Ring.Rat
import Mathlib.Data.List.Nodup
import Mathlib.Data.List.Sort
import Mathlib.Data.String.Basic

namespace InferTwin

/-- A decoded JSON value. The fields of an object are kept in the order of their keys, so
that two objects are equal as dictionaries if and only if they are equal. -/
inductive Json
  | null
  | bool (value : Bool)
  | int (value : ℤ)
  | float (value : ℚ)
  | str (value : String)
  | list (items : List Json)
  | object (fields : List (String × Json))

namespace Json

def byKey (a b : String × Json) : Prop := a.1 ≤ b.1

instance : DecidableRel byKey := fun a b ↦ inferInstanceAs (Decidable (a.1 ≤ b.1))

/-- The object with some fields, given in any order. -/
def dict (fields : List (String × Json)) : Json := .object (fields.insertionSort byKey)

/-- `record.get(key)`, for the fields of an object. -/
def get (fields : List (String × Json)) (key : String) : Option Json := fields.lookup key

theorem lookup_eq_some_iff {fields : List (String × Json)} (hd : (fields.map Prod.fst).Nodup)
    {key : String} {value : Json} :
    fields.lookup key = some value ↔ (key, value) ∈ fields := by
  induction fields with
  | nil => simp
  | cons field fields ih =>
    obtain ⟨hfresh, hd'⟩ := List.nodup_cons.mp hd
    rcases eq_or_ne key field.1 with rfl | hne
    · rw [List.lookup_cons, beq_self_eq_true, List.mem_cons]
      constructor
      · intro h
        exact .inl (Prod.ext rfl (Option.some.inj h).symm)
      · rintro (h | h)
        · exact congrArg some (congrArg Prod.snd h).symm
        · exact absurd (List.mem_map_of_mem h) hfresh
    · rw [List.lookup_cons, beq_eq_false_iff_ne.mpr hne, ih hd', List.mem_cons]
      constructor
      · exact .inr
      · rintro (rfl | h)
        · exact absurd rfl hne
        · exact h

/-- The order in which the fields were given does not show. -/
theorem get_dict {fields : List (String × Json)} (hd : (fields.map Prod.fst).Nodup)
    (key : String) : get (fields.insertionSort byKey) key = fields.lookup key := by
  have hperm := List.perm_insertionSort byKey fields
  have hd' := ((hperm.map Prod.fst).nodup_iff).mpr hd
  refine Option.ext fun value ↦ ?_
  rw [get, lookup_eq_some_iff hd', lookup_eq_some_iff hd, hperm.mem_iff]

end Json

end InferTwin
