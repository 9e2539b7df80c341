import InferTwin.Latency.Schema

namespace InferTwin

/-- Every result in the memo satisfies `P`. -/
def ShapeMemo.Holds (P : LatencyResult → Prop) (memo : ShapeMemo) : Prop :=
  ∀ key result, memo.lookup key = some result → P result

/-- Whatever the backend's results satisfy, those that pass through the memo satisfy too. -/
theorem get_or_compute_holds {P : LatencyResult → Prop}
    (hflag : ∀ result memoized, P result → P { result with memoized }) {key : ShapeKey}
    {compute : Except BackendError LatencyResult} {memo memo' : ShapeMemo}
    {latency : LatencyResult} (hcompute : ∀ result, compute = .ok result → P result)
    (hmemo : memo.Holds P) (h : ShapeMemo.getOrCompute key compute memo = .ok latency memo') :
    P latency ∧ memo'.Holds P := by
  unfold ShapeMemo.getOrCompute at h
  split at h
  · rename_i cached hget
    cases h
    unfold ShapeMemo.get at hget
    obtain ⟨stored, hstored, rfl⟩ := Option.map_eq_some_iff.mp hget
    exact ⟨hflag _ _ (hmemo key stored hstored), hmemo⟩
  · split at h
    · cases h
    · rename_i result
      split_ifs at h with hkey
      cases h
      have hresult := hcompute result rfl
      refine ⟨hflag _ _ hresult, ?_⟩
      intro other stored hstored
      unfold ShapeMemo.put at hstored
      by_cases he : other = result.shapeKey
      · subst he
        rw [Finmap.lookup_insert] at hstored
        cases hstored
        exact hflag _ _ hresult
      · rw [Finmap.lookup_insert_of_ne _ he] at hstored
        exact hmemo other stored hstored

/-- The memo remembers nothing but results of this backend, each under its key. -/
def ShapeMemo.FilledBy (backend : BatchLatencyBackend) (memo : ShapeMemo) : Prop :=
  ∀ key result, memo.lookup key = some result → ∃ shape computed,
    key = backend.shapeKey shape ∧ backend.estimateIteration shape = .ok computed ∧
      result = { computed with memoized := false }

theorem ShapeMemo.filled_by_empty (backend : BatchLatencyBackend) :
    ShapeMemo.FilledBy backend ∅ := by
  intro key result h
  simp at h

theorem ShapeMemo.FilledBy.holds {backend : BatchLatencyBackend} {memo : ShapeMemo}
    {P : LatencyResult → Prop} (h : memo.FilledBy backend)
    (hflag : ∀ result memoized, P result → P { result with memoized })
    (hbackend : ∀ shape result, backend.estimateIteration shape = .ok result → P result) :
    memo.Holds P := by
  intro key result hr
  obtain ⟨shape, computed, -, hc, rfl⟩ := h key result hr
  exact hflag _ _ (hbackend shape computed hc)

end InferTwin
