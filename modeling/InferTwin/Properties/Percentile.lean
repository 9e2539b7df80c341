import InferTwin.Experiment.Sweep
import InferTwin.Foundation.Rank
import InferTwin.Report.Summary

namespace InferTwin

section NearestRank

variable {values : List ℚ} {p : ℚ}

/-- The position of the nearest rank of a percentile among `length` values. -/
def nearestRankIndex (length : ℕ) (p : ℚ) : ℕ :=
  (min (max (⌈p / 100 * length⌉ - 1) 0) ((length : ℤ) - 1)).toNat

theorem nearest_rank_index_lt {length : ℕ} (h : 0 < length) (p : ℚ) :
    nearestRankIndex length p < length := by
  unfold nearestRankIndex
  omega

/-- Clamping into the list changes nothing for a percentile of the range, and a rank goes past
the position exactly when it covers the percentile. -/
theorem nearest_rank_index_lt_iff {length rank : ℕ} (hpos : 0 < p) (hle : p ≤ 100)
    (hlength : 0 < length) : nearestRankIndex length p < rank ↔ p * length ≤ 100 * rank := by
  have hlength' : (0 : ℚ) < length := Nat.cast_pos.mpr hlength
  have hone : 1 ≤ ⌈p / 100 * length⌉ := by
    rw [Int.one_le_ceil_iff]
    positivity
  have hceil : ⌈p / 100 * length⌉ ≤ length := by
    rw [Int.ceil_le]
    push_cast
    nlinarith
  have hindex : nearestRankIndex length p < rank ↔ ⌈p / 100 * length⌉ ≤ (rank : ℤ) := by
    unfold nearestRankIndex
    omega
  rw [hindex, Int.ceil_le]
  push_cast
  constructor
  · intro h
    linarith
  · intro h
    linarith

/-- The value at the nearest rank of a percentile. -/
def nearestRankValue (values : List ℚ) (p : ℚ) : ℚ :=
  (values.insertionSort (· ≤ ·)).getD (nearestRankIndex values.length p) 0

theorem percentile_eq (hne : values ≠ []) (hpos : 0 < p) (hle : p ≤ 100) :
    percentile values p = .ok (nearestRankValue values p) := by
  have hrange : ¬ (p < 0 ∨ p > 100) := not_or.mpr ⟨hpos.le.not_gt, hle.not_gt⟩
  rw [percentile, if_neg hne, if_neg hrange]
  dsimp only
  rw [List.length_insertionSort]
  rfl

theorem summary_percentile_eq (hne : values ≠ []) (hpos : 0 < p) (hle : p ≤ 100) :
    Summary.percentile values p = .ok (nearestRankValue values p) := by
  have hrange : ¬ (p < 0 ∨ p > 100) := not_or.mpr ⟨hpos.le.not_gt, hle.not_gt⟩
  rw [Summary.percentile, if_neg hne, if_neg hrange]
  dsimp only
  rw [List.length_insertionSort]
  rfl

theorem nearest_rank_item (hne : values ≠ []) (p : ℚ) :
    (values.insertionSort (· ≤ ·))[nearestRankIndex values.length p]? =
      some (nearestRankValue values p) := by
  have hlt : nearestRankIndex values.length p < (values.insertionSort (· ≤ ·)).length := by
    rw [List.length_insertionSort]
    exact nearest_rank_index_lt (List.length_pos_of_ne_nil hne) p
  rw [nearestRankValue, List.getD_eq_getElem?_getD, List.getElem?_eq_getElem hlt, Option.getD_some]

theorem nearest_rank_value_mem (hne : values ≠ []) (p : ℚ) : nearestRankValue values p ∈ values :=
  (List.mem_insertionSort _).mp (List.mem_of_getElem? (nearest_rank_item hne p))

/-- The value at the nearest rank is a lower bound of exactly the numbers that enough of the
values are up to. -/
theorem nearest_rank_value_le_iff (hne : values ≠ []) (hpos : 0 < p) (hle : p ≤ 100) (bound : ℚ) :
    nearestRankValue values p ≤ bound ↔ p * values.length ≤ 100 * rankOf values bound := by
  have hsorted : (values.insertionSort (· ≤ ·)).Pairwise (· ≤ ·) :=
    List.pairwise_insertionSort (· ≤ ·) values
  rw [sorted_item_le_iff hsorted (nearest_rank_item hne p) bound,
    rankOf_perm (List.perm_insertionSort (· ≤ ·) values),
    nearest_rank_index_lt_iff hpos hle (List.length_pos_of_ne_nil hne)]

end NearestRank

/-- Both reports take the smallest of the values that covers the percentile. The order of the
values does not matter, and the result grows with the percentile and with each value. -/
theorem percentile_nearest_rank {values : List ℚ} {p : ℚ} (hne : values ≠ []) (hpos : 0 < p)
    (hle : p ≤ 100) :
    ∃ result, percentile values p = .ok result ∧ Summary.percentile values p = .ok result ∧
      IsLeast {v | v ∈ values ∧ p * values.length ≤ 100 * (values.countP fun x ↦ x ≤ v : ℕ)}
        result ∧
      (∀ values' : List ℚ, values'.Perm values → percentile values' p = .ok result) ∧
      (∀ q, p ≤ q → q ≤ 100 → ∃ result', percentile values q = .ok result' ∧ result ≤ result') ∧
      ∀ before x after y, values = before ++ x :: after → x ≤ y →
        ∃ result', percentile (before ++ y :: after) p = .ok result' ∧ result ≤ result' := by
  refine ⟨nearestRankValue values p, percentile_eq hne hpos hle, summary_percentile_eq hne hpos hle,
    ⟨⟨nearest_rank_value_mem hne p, ?_⟩, ?_⟩, ?_, ?_, ?_⟩
  · exact (nearest_rank_value_le_iff hne hpos hle _).mp le_rfl
  · rintro v ⟨_, hv⟩
    exact (nearest_rank_value_le_iff hne hpos hle v).mpr hv
  · intro values' hperm
    have hne' : values' ≠ [] := fun h ↦ hne (List.nil_perm.mp (h ▸ hperm))
    have hiff (bound : ℚ) : nearestRankValue values' p ≤ bound ↔
        nearestRankValue values p ≤ bound := by
      rw [nearest_rank_value_le_iff hne' hpos hle, nearest_rank_value_le_iff hne hpos hle,
        rankOf_perm hperm, hperm.length_eq]
    rw [percentile_eq hne' hpos hle, eq_of_forall_ge_iff hiff]
  · intro q hpq hq
    have hqpos := hpos.trans_le hpq
    refine ⟨nearestRankValue values q, percentile_eq hne hqpos hq, ?_⟩
    apply (nearest_rank_value_le_iff hne hpos hle _).mpr
    have hcover := (nearest_rank_value_le_iff hne hqpos hq _).mp le_rfl
    have hlength : (0 : ℚ) ≤ values.length := Nat.cast_nonneg _
    exact (mul_le_mul_of_nonneg_right hpq hlength).trans hcover
  · rintro before x after y rfl hxy
    have hne' : before ++ y :: after ≠ [] := List.append_ne_nil_of_right_ne_nil _ (List.cons_ne_nil _ _)
    refine ⟨nearestRankValue (before ++ y :: after) p, percentile_eq hne' hpos hle, ?_⟩
    apply (nearest_rank_value_le_iff hne hpos hle _).mpr
    have hcover := (nearest_rank_value_le_iff hne' hpos hle _).mp le_rfl
    have hrank := rankOf_replace_le before after hxy (nearestRankValue (before ++ y :: after) p)
    have hrank' : (rankOf (before ++ y :: after) (nearestRankValue (before ++ y :: after) p) : ℚ) ≤
        rankOf (before ++ x :: after) (nearestRankValue (before ++ y :: after) p) :=
      Nat.cast_le.mpr hrank
    have hlength : (before ++ x :: after).length = (before ++ y :: after).length := by
      rw [List.length_append, List.length_append, List.length_cons, List.length_cons]
    rw [hlength]
    linarith

/-- The median of four values with a repetition. -/
theorem percentile_nearest_rank_median : ∃ result,
    percentile [3, 1, 2, 2] 50 = .ok result ∧ Summary.percentile [3, 1, 2, 2] 50 = .ok result ∧
      (∀ values' : List ℚ, values'.Perm [3, 1, 2, 2] → percentile values' 50 = .ok result) := by
  obtain ⟨result, hresult, hsummary, -, hperm, -, -⟩ :=
    percentile_nearest_rank (List.cons_ne_nil (3 : ℚ) [1, 2, 2]) (by norm_num : (0 : ℚ) < 50)
      (by norm_num)
  exact ⟨result, hresult, hsummary, hperm⟩

end InferTwin
