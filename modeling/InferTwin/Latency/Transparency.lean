import InferTwin.Latency.Attribution
import InferTwin.Latency.Memo

namespace InferTwin

/-- Two batches with the same counts, whatever requests they are made of. -/
structure BatchShape.SameCounts (shape shape' : BatchShape) : Prop where
  batchSize : shape.batchSize = shape'.batchSize
  prefill : shape.scheduledPrefillTokens = shape'.scheduledPrefillTokens
  decode : shape.scheduledDecodeTokens = shape'.scheduledDecodeTokens
  maxQueryLen : shape.maxQueryLen = shape'.maxQueryLen
  context : shape.totalContextTokens = shape'.totalContextTokens
  kvTokens : shape.kvLoadTokens = shape'.kvLoadTokens
  kvBytes : shape.kvLoadBytes = shape'.kvLoadBytes
  kvRequests : shape.kvLoadRequestCount = shape'.kvLoadRequestCount

/-- The key of a shape is its counts. -/
theorem ShapeKey.from_shape_eq_iff {backend modelName hardwareName : String}
    {shape shape' : BatchShape} :
    ShapeKey.fromShape backend modelName hardwareName shape =
      ShapeKey.fromShape backend modelName hardwareName shape' ↔ shape.SameCounts shape' := by
  constructor
  · intro h
    simp only [ShapeKey.fromShape, ShapeKey.mk.injEq, true_and] at h
    obtain ⟨h₁, h₂, h₃, h₄, h₅, h₆, h₇, h₈⟩ := h
    exact ⟨h₁, h₂, h₃, h₄, h₅, h₆, h₇, h₈⟩
  · rintro ⟨h₁, h₂, h₃, h₄, h₅, h₆, h₇, h₈⟩
    simp only [ShapeKey.fromShape, h₁, h₂, h₃, h₄, h₅, h₆, h₇, h₈]

theorem formula_of_counts (backend : FormulaLatencyBackend) {shape shape' : BatchShape}
    (h : shape.SameCounts shape') :
    backend.estimateIteration shape = backend.estimateIteration shape' := by
  simp only [FormulaLatencyBackend.estimateIteration, ShapeKey.from_shape_eq_iff.mpr h,
    h.batchSize, h.prefill, h.decode, h.maxQueryLen, h.context]

theorem fitted_of_counts (backend : FittedTTFTLatencyBackend) {shape shape' : BatchShape}
    (h : shape.SameCounts shape') :
    backend.estimateIteration shape = backend.estimateIteration shape' := by
  simp only [FittedTTFTLatencyBackend.estimateIteration, ShapeKey.from_shape_eq_iff.mpr h,
    h.prefill]

theorem load_active_of_counts {shape shape' : BatchShape} (h : shape.SameCounts shape') :
    loadActive shape = loadActive shape' := by
  simp only [loadActive, h.kvRequests, h.kvTokens, h.kvBytes]

theorem base_details_of_counts (settings : KVLoadSettings) (mode : String)
    {shape shape' : BatchShape} (h : shape.SameCounts shape') :
    settings.baseDetails mode shape = settings.baseDetails mode shape' := by
  simp only [KVLoadSettings.baseDetails, load_active_of_counts h, h.kvTokens, h.kvBytes,
    h.kvRequests]

theorem PrefillBackend.of_counts {backend : BatchLatencyBackend} (hbackend : PrefillBackend backend)
    {shape shape' : BatchShape} (h : shape.SameCounts shape') :
    backend.estimateIteration shape = backend.estimateIteration shape' := by
  cases hbackend with
  | formula backend => exact congrArg Except.ok (formula_of_counts backend h)
  | fitted backend => exact congrArg Except.ok (fitted_of_counts backend h)

theorem KvLoadComponent.of_counts {component : IterationLatencyComponent}
    (hcomponent : KvLoadComponent component) {shape shape' : BatchShape}
    (h : shape.SameCounts shape') :
    component.estimateIteration shape = component.estimateIteration shape' := by
  cases hcomponent with
  | zero component => rfl
  | zero_load component =>
    simp only [ZeroKVLoadLatencyComponent.toComponent, base_details_of_counts _ _ h]
  | token_linear component =>
    simp only [TokenLinearKVLoadLatencyComponent.toComponent, base_details_of_counts _ _ h,
      load_active_of_counts h, h.kvTokens]
  | byte_linear component =>
    simp only [ByteLinearKVLoadLatencyComponent.toComponent, base_details_of_counts _ _ h,
      load_active_of_counts h, h.kvTokens, h.kvBytes]

theorem QueueComponent.of_counts {component : IterationLatencyComponent}
    (hcomponent : QueueComponent component) (shape shape' : BatchShape) :
    component.estimateIteration shape = component.estimateIteration shape' := by
  cases hcomponent <;> rfl

/-- A profile asks its components, and whether it asks its TTFT backend is a count too. -/
theorem profile_of_counts {profile : ServingLatencyProfile}
    (httft : PrefillBackend profile.ttftBackend) (hqueue : QueueComponent profile.queueComponent)
    (hload : KvLoadComponent profile.kvLoadComponent) {shape shape' : BatchShape}
    (h : shape.SameCounts shape') :
    profile.estimateIteration shape = profile.estimateIteration shape' := by
  simp only [ServingLatencyProfile.estimateIteration, ServingLatencyProfile.estimateTtft,
    httft.of_counts h, hqueue.of_counts shape shape', hload.of_counts h,
    ShapeKey.from_shape_eq_iff.mpr h, h.prefill, h.kvRequests]

/-- What a memo needs of a backend: equal keys mean equal results, or the same error, and
a result carries the key it is asked for under. -/
structure BatchLatencyBackend.Memoizable (backend : BatchLatencyBackend) : Prop where
  of_key_eq : ∀ shape shape', backend.shapeKey shape = backend.shapeKey shape' →
    backend.estimateIteration shape = backend.estimateIteration shape'
  key_eq : ∀ shape result, backend.estimateIteration shape = .ok result →
    result.shapeKey = backend.shapeKey shape

theorem ServingBackend.memoizable {backend : BatchLatencyBackend} (h : ServingBackend backend) :
    backend.Memoizable where
  of_key_eq shape shape' hkey := by
    have hcounts := ShapeKey.from_shape_eq_iff.mp hkey
    cases h with
    | prefill hprefill => exact hprefill.of_counts hcounts
    | profile profile httft hqueue hload => exact profile_of_counts httft hqueue hload hcounts
  key_eq shape result hresult := by
    cases h with
    | prefill hprefill =>
      cases hprefill with
      | formula backend => cases hresult; rfl
      | fitted backend => cases hresult; rfl
    | profile profile httft hqueue hload =>
      obtain ⟨_, _, hresult⟩ := Effect.except_bind_ok.mp hresult
      obtain ⟨_, _, hresult⟩ := Effect.except_bind_ok.mp hresult
      obtain ⟨_, _, hresult⟩ := Effect.except_bind_ok.mp hresult
      cases hresult
      rfl

/-- The flag aside. -/
def LatencyResult.forgetMemo (result : LatencyResult) : LatencyResult :=
  { result with memoized := false }

namespace ShapeMemo

variable {backend : BatchLatencyBackend} {memo : ShapeMemo} {shape : BatchShape}

theorem FilledBy.put (h : memo.FilledBy backend) {result : LatencyResult}
    (hresult : backend.estimateIteration shape = .ok result)
    (hkey : result.shapeKey = backend.shapeKey shape) : (memo.put result).FilledBy backend := by
  intro key stored hstored
  unfold ShapeMemo.put at hstored
  rcases eq_or_ne key result.shapeKey with rfl | hne
  · rw [Finmap.lookup_insert] at hstored
    exact ⟨shape, result, hkey, hresult, (Option.some.inj hstored).symm⟩
  · rw [Finmap.lookup_insert_of_ne _ hne] at hstored
    exact h key stored hstored

/-- A memo that remembers results of its backend answers as the backend does, and remembers
nothing else afterwards. -/
theorem FilledBy.getOrCompute (h : memo.FilledBy backend) (hbackend : backend.Memoizable)
    (shape : BatchShape) :
    match backend.estimateIteration shape with
    | .ok result => ∃ latency memo', ShapeMemo.getOrCompute (backend.shapeKey shape)
        (backend.estimateIteration shape) memo = .ok latency memo' ∧
        latency.forgetMemo = result.forgetMemo ∧ memo'.FilledBy backend
    | .error e => ShapeMemo.getOrCompute (backend.shapeKey shape)
        (backend.estimateIteration shape) memo = .error (.backend e) memo := by
  unfold ShapeMemo.getOrCompute ShapeMemo.get
  cases hstored : memo.lookup (backend.shapeKey shape) with
  | some stored =>
    obtain ⟨other, computed, hkey, hcomputed, rfl⟩ := h _ stored hstored
    rw [hbackend.of_key_eq shape other hkey, hcomputed]
    exact ⟨_, memo, rfl, rfl, h⟩
  | none =>
    cases hresult : backend.estimateIteration shape with
    | error e => rfl
    | ok result =>
      have hkey := hbackend.key_eq shape result hresult
      simp only [Option.map_none, if_neg (not_not.mpr hkey)]
      exact ⟨_, _, rfl, rfl, h.put hresult hkey⟩

end ShapeMemo

end InferTwin
