import Mathlib.Algebra.Order.Floor.Ring
import Mathlib.Data.List.Sort
import Mathlib.Data.Rat.Floor

namespace InferTwin.Summary

/-- `ValueError("percentile must be between 0 and 100")`. -/
inductive SummaryError
  | percentileRange
  deriving DecidableEq, Repr

def SummaryError.message : SummaryError → String
  | percentileRange => "percentile must be between 0 and 100"

/-- `_percentile`, of the summary report. -/
def percentile (values : List ℚ) (percentile : ℚ) : Except SummaryError ℚ :=
  if values = [] then .ok 0
  else if percentile < 0 ∨ percentile > 100 then .error .percentileRange
  else
    let sortedValues := values.insertionSort (· ≤ ·)
    let rank := ⌈percentile / 100 * sortedValues.length⌉
    let index := min (max (rank - 1) 0) (sortedValues.length - 1)
    .ok (sortedValues.getD index.toNat 0)

end InferTwin.Summary
