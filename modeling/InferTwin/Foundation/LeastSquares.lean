import Mathlib.Algebra.BigOperators.Group.List.Basic
import Mathlib.Algebra.BigOperators.Ring.List
import Mathlib.Algebra.Order.BigOperators.Group.List
import Mathlib.Algebra.Order.Field.Basic
import Mathlib.Tactic.FieldSimp
import Mathlib.Tactic.LinearCombination
import Mathlib.Tactic.Linarith
import Mathlib.Tactic.Positivity
import Mathlib.Tactic.Ring

namespace InferTwin.LeastSquares

variable {ι K : Type} [Field K] (items : List ι) (x y : ι → K)

/-- How far an item lies above the line with an intercept and a slope. -/
def residual (intercept slope : K) (item : ι) : K := y item - (intercept + slope * x item)

/-- The sum of the squared residuals. -/
def cost (intercept slope : K) : K :=
  (items.map fun item ↦ residual x y intercept slope item ^ 2).sum

def mean : K := (items.map x).sum / items.length

/-- The sum of the products of the deviations of `x` and `y` from two centres. -/
def comoment (centreX centreY : K) : K :=
  (items.map fun item ↦ (x item - centreX) * (y item - centreY)).sum

theorem sum_residuals (intercept slope : K) :
    (items.map (residual x y intercept slope)).sum =
      (items.map y).sum - items.length * intercept - slope * (items.map x).sum := by
  induction items with
  | nil => simp
  | cons item items ih =>
    simp only [List.map_cons, List.sum_cons, ih, List.length_cons, residual]
    push_cast
    ring

theorem sum_weighted_residuals (intercept slope : K) :
    (items.map fun item ↦ x item * residual x y intercept slope item).sum =
      comoment items x y 0 0 - intercept * (items.map x).sum - slope * comoment items x x 0 0 := by
  unfold comoment
  induction items with
  | nil => simp
  | cons item items ih =>
    have hitem : residual x y intercept slope item = y item - (intercept + slope * x item) := rfl
    simp only [List.map_cons, List.sum_cons, ih, hitem]
    ring

theorem comoment_shift (centreX centreY : K) :
    comoment items x y centreX centreY = comoment items x y 0 0 - centreY * (items.map x).sum -
      centreX * (items.map y).sum + items.length * (centreX * centreY) := by
  unfold comoment
  induction items with
  | nil => simp
  | cons item items ih =>
    simp only [List.map_cons, List.sum_cons, ih, List.length_cons]
    push_cast
    ring

/-- The cost of any line, seen from a given one. -/
theorem cost_from (intercept slope intercept' slope' : K) :
    cost items x y intercept' slope' = cost items x y intercept slope -
      2 * ((intercept' - intercept) * (items.map (residual x y intercept slope)).sum) -
      2 * ((slope' - slope) *
        (items.map fun item ↦ x item * residual x y intercept slope item).sum) +
      (items.map fun item ↦ (intercept' - intercept + (slope' - slope) * x item) ^ 2).sum := by
  unfold cost
  induction items with
  | nil => simp
  | cons item items ih =>
    have hitem : residual x y intercept' slope' item = residual x y intercept slope item -
        (intercept' - intercept + (slope' - slope) * x item) := by
      unfold residual
      ring
    simp only [List.map_cons, List.sum_cons, ih, hitem]
    ring

section Normal

variable {items} {x y}

/-- The first normal equation. -/
theorem sum_residuals_eq_zero [CharZero K] (hne : items ≠ []) (slope : K) :
    (items.map (residual x y (mean items y - slope * mean items x) slope)).sum = 0 := by
  have hlen : (items.length : K) ≠ 0 := by
    simpa [List.length_eq_zero_iff] using hne
  rw [sum_residuals, mean, mean]
  field_simp
  ring

theorem comoment_means [CharZero K] (hne : items ≠ []) :
    comoment items x y (mean items x) (mean items y) =
      comoment items x y 0 0 - mean items x * (items.map y).sum := by
  have hlen : (items.length : K) ≠ 0 := by
    simpa [List.length_eq_zero_iff] using hne
  rw [comoment_shift, mean, mean]
  field_simp
  ring

/-- The second normal equation. -/
theorem sum_weighted_residuals_eq_zero [CharZero K] (hne : items ≠ []) {slope : K}
    (hslope : slope * comoment items x x (mean items x) (mean items x) =
      comoment items x y (mean items x) (mean items y)) :
    (items.map fun item ↦
      x item * residual x y (mean items y - slope * mean items x) slope item).sum = 0 := by
  have hlen : (items.length : K) ≠ 0 := by
    simpa [List.length_eq_zero_iff] using hne
  have hcentre : mean items y * (items.map x).sum = mean items x * (items.map y).sum := by
    rw [mean, mean]
    field_simp
  rw [comoment_means hne, comoment_means hne] at hslope
  rw [sum_weighted_residuals]
  linear_combination -hslope - hcentre

theorem sum_weighted_residuals_origin {slope : K}
    (hslope : slope * comoment items x x 0 0 = comoment items x y 0 0) :
    (items.map fun item ↦ x item * residual x y 0 slope item).sum = 0 := by
  rw [sum_weighted_residuals]
  linear_combination -hslope

end Normal

section Order

variable [LinearOrder K] [IsStrictOrderedRing K] {items} {x y}

/-- A line is best among those that differ from it only in coefficients whose normal equation
it satisfies. -/
theorem cost_le {intercept slope intercept' slope' : K}
    (hfirst : (intercept' - intercept) * (items.map (residual x y intercept slope)).sum = 0)
    (hsecond : (slope' - slope) *
      (items.map fun item ↦ x item * residual x y intercept slope item).sum = 0) :
    cost items x y intercept slope ≤ cost items x y intercept' slope' := by
  have hsquares : 0 ≤ (items.map fun item ↦
      (intercept' - intercept + (slope' - slope) * x item) ^ 2).sum := by
    apply List.sum_nonneg
    intro square hsquare
    obtain ⟨item, -, rfl⟩ := List.mem_map.mp hsquare
    positivity
  rw [cost_from items x y intercept slope intercept' slope', hfirst, hsecond]
  linarith

/-- Two items that differ keep the deviations from any centre away from zero. -/
theorem sq_sub_le_comoment (centre : K) {first second : ι} (hfirst : first ∈ items)
    (hsecond : second ∈ items) :
    (x first - x second) ^ 2 ≤ 2 * comoment items x x centre centre := by
  classical
  have hsquare : ∀ value ∈ items.map fun item ↦ (x item - centre) * (x item - centre),
      0 ≤ value := by
    intro value hvalue
    obtain ⟨item, -, rfl⟩ := List.mem_map.mp hvalue
    exact mul_self_nonneg _
  rcases eq_or_ne first second with rfl | hne
  · have hsum := List.sum_nonneg hsquare
    rw [sub_self]
    unfold comoment
    linarith
  · have hmem : second ∈ items.erase first := (List.mem_erase_of_ne hne.symm).mpr hsecond
    have hperm := (List.perm_cons_erase hfirst).trans ((List.perm_cons_erase hmem).cons first)
    have hsum := (hperm.map fun item ↦ (x item - centre) * (x item - centre)).sum_eq
    have hrest : 0 ≤ (((items.erase first).erase second).map fun item ↦
        (x item - centre) * (x item - centre)).sum := by
      apply List.sum_nonneg
      intro value hvalue
      obtain ⟨item, -, rfl⟩ := List.mem_map.mp hvalue
      exact mul_self_nonneg _
    unfold comoment
    rw [hsum, List.map_cons, List.map_cons, List.sum_cons, List.sum_cons]
    nlinarith [sq_nonneg (x first - centre + (x second - centre))]

/-- Where all items are equal, they lie at their mean. -/
theorem comoment_eq_zero (h : ∀ first ∈ items, ∀ second ∈ items, x first = x second) :
    comoment items x x (mean items x) (mean items x) = 0 := by
  have hmean : ∀ item ∈ items, x item = mean items x := by
    intro item hitem
    have hlen : (items.length : K) ≠ 0 := by
      simpa [List.length_eq_zero_iff] using List.ne_nil_of_mem hitem
    have hconst : items.map x = List.replicate items.length (x item) := by
      rw [List.eq_replicate_iff, List.length_map]
      refine ⟨rfl, fun value hvalue ↦ ?_⟩
      obtain ⟨other, hother, rfl⟩ := List.mem_map.mp hvalue
      exact h other hother item hitem
    rw [mean, hconst, List.sum_replicate, nsmul_eq_mul, mul_div_cancel_left₀ _ hlen]
  have hzero : items.map (fun item ↦ (x item - mean items x) * (x item - mean items x)) =
      List.replicate items.length 0 := by
    rw [List.eq_replicate_iff, List.length_map]
    refine ⟨rfl, fun value hvalue ↦ ?_⟩
    obtain ⟨item, hitem, rfl⟩ := List.mem_map.mp hvalue
    rw [hmean item hitem, sub_self, mul_zero]
  rw [comoment, hzero, List.sum_replicate, smul_zero]

end Order

section Exact

variable {items} {x y} {intercept slope : K}

/-- The mean of points on a line lies on it. -/
theorem mean_of_line [CharZero K] (hne : items ≠ [])
    (h : ∀ item ∈ items, y item = intercept + slope * x item) :
    mean items y = intercept + slope * mean items x := by
  have hlen : (items.length : K) ≠ 0 := by
    simpa [List.length_eq_zero_iff] using hne
  have hsum := sum_residuals items x y intercept slope
  have hzero : items.map (residual x y intercept slope) = List.replicate items.length 0 := by
    rw [List.eq_replicate_iff, List.length_map]
    refine ⟨rfl, fun value hvalue ↦ ?_⟩
    obtain ⟨item, hitem, rfl⟩ := List.mem_map.mp hvalue
    rw [residual, h item hitem, sub_self]
  rw [hzero, List.sum_replicate, smul_zero] at hsum
  rw [mean, mean]
  field_simp
  linear_combination -hsum

theorem comoment_of_line [CharZero K] (hne : items ≠ [])
    (h : ∀ item ∈ items, y item = intercept + slope * x item) :
    comoment items x y (mean items x) (mean items y) =
      slope * comoment items x x (mean items x) (mean items x) := by
  have hmean := mean_of_line hne h
  unfold comoment
  rw [← List.sum_map_mul_left]
  refine congrArg List.sum (List.map_congr_left fun item hitem ↦ ?_)
  rw [h item hitem, hmean]
  ring

end Exact

end InferTwin.LeastSquares
