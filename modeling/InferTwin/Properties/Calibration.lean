import InferTwin.External.KvLoadCalibration
import InferTwin.Foundation.Effect
import InferTwin.Foundation.LeastSquares
import InferTwin.Latency.KvLoad

namespace InferTwin

open Effect

section Lines

variable {ι : Type} {items : List ι} {x y : ι → ℚ}

theorem meanOf_map (items : List ι) (x : ι → ℚ) :
    meanOf (items.map x) = LeastSquares.mean items x := by
  rw [meanOf, List.length_map, LeastSquares.mean]

theorem denominatorWithIntercept_map (items : List ι) (x : ι → ℚ) :
    denominatorWithIntercept (items.map x) =
      LeastSquares.comoment items x x (LeastSquares.mean items x) (LeastSquares.mean items x) := by
  unfold denominatorWithIntercept LeastSquares.comoment
  dsimp only
  rw [meanOf_map, List.map_map]
  refine congrArg List.sum (List.map_congr_left fun item _ ↦ ?_)
  exact pow_two _

theorem denominatorThroughOrigin_map (items : List ι) (x : ι → ℚ) :
    denominatorThroughOrigin (items.map x) = LeastSquares.comoment items x x 0 0 := by
  unfold denominatorThroughOrigin LeastSquares.comoment
  simp only [List.map_map, sub_zero]
  rfl

theorem lineWithIntercept_map (items : List ι) (x y : ι → ℚ) :
    lineWithIntercept (items.map x) (items.map y) =
      let slope := LeastSquares.comoment items x y (LeastSquares.mean items x)
        (LeastSquares.mean items y) / denominatorWithIntercept (items.map x)
      (LeastSquares.mean items y - slope * LeastSquares.mean items x, slope) := by
  unfold lineWithIntercept LeastSquares.comoment
  dsimp only
  rw [meanOf_map, meanOf_map, List.zipWith_map, List.zipWith_self]

theorem lineThroughOrigin_map (items : List ι) (x y : ι → ℚ) :
    lineThroughOrigin (items.map x) (items.map y) =
      (0, LeastSquares.comoment items x y 0 0 / denominatorThroughOrigin (items.map x)) := by
  unfold lineThroughOrigin LeastSquares.comoment
  simp only [List.zipWith_map, List.zipWith_self, sub_zero]

/-- The closed form satisfies both normal equations. -/
theorem lineWithIntercept_best (hne : items ≠ [])
    (hspread : denominatorWithIntercept (items.map x) ≠ 0) (intercept slope : ℚ) :
    LeastSquares.cost items x y (lineWithIntercept (items.map x) (items.map y)).1
        (lineWithIntercept (items.map x) (items.map y)).2 ≤
      LeastSquares.cost items x y intercept slope := by
  rw [lineWithIntercept_map]
  dsimp only
  apply LeastSquares.cost_le
  · rw [LeastSquares.sum_residuals_eq_zero hne, mul_zero]
  · rw [LeastSquares.sum_weighted_residuals_eq_zero hne, mul_zero]
    rw [← denominatorWithIntercept_map, div_mul_cancel₀ _ hspread]

theorem lineThroughOrigin_best (hspread : denominatorThroughOrigin (items.map x) ≠ 0)
    (slope : ℚ) :
    LeastSquares.cost items x y (lineThroughOrigin (items.map x) (items.map y)).1
        (lineThroughOrigin (items.map x) (items.map y)).2 ≤
      LeastSquares.cost items x y 0 slope := by
  rw [lineThroughOrigin_map]
  dsimp only
  apply LeastSquares.cost_le
  · rw [sub_self, zero_mul]
  · rw [LeastSquares.sum_weighted_residuals_origin, mul_zero]
    rw [← denominatorThroughOrigin_map, div_mul_cancel₀ _ hspread]

theorem lineWithIntercept_exact (hne : items ≠ [])
    (hspread : denominatorWithIntercept (items.map x) ≠ 0) {intercept slope : ℚ}
    (hline : ∀ item ∈ items, y item = intercept + slope * x item) :
    lineWithIntercept (items.map x) (items.map y) = (intercept, slope) := by
  have hslope : LeastSquares.comoment items x y (LeastSquares.mean items x)
      (LeastSquares.mean items y) / denominatorWithIntercept (items.map x) = slope := by
    rw [LeastSquares.comoment_of_line hne hline, ← denominatorWithIntercept_map,
      mul_div_cancel_right₀ _ hspread]
  rw [lineWithIntercept_map, hslope, LeastSquares.mean_of_line hne hline]
  exact Prod.ext (add_sub_cancel_right _ _) rfl

/-- Two whole numbers that differ lie further apart than the guard of the fit. -/
theorem epsilon_lt_of_ne {amount : ι → ℕ} (centre : ℚ) {first second : ι} (hfirst : first ∈ items)
    (hsecond : second ∈ items) (hne : amount first ≠ amount second) :
    CALIBRATION_EPSILON < LeastSquares.comoment items (fun item ↦ (amount item : ℚ))
      (fun item ↦ (amount item : ℚ)) centre centre := by
  have hsquare := LeastSquares.sq_sub_le_comoment (x := fun item ↦ (amount item : ℚ)) centre
    hfirst hsecond
  have hone : (1 : ℚ) ≤ ((amount first : ℚ) - amount second) ^ 2 := by
    have hint : (1 : ℤ) ≤ ((amount first : ℤ) - amount second) ^ 2 := by
      have hdiff : (amount first : ℤ) - amount second ≠ 0 := by omega
      exact Int.add_one_le_iff.mpr (sq_pos_iff.mpr hdiff)
    exact_mod_cast hint
  unfold CALIBRATION_EPSILON
  norm_num
  linarith

end Lines

theorem validate_fit_result_ok {intercept slope : ℚ} {line : FittedLine}
    (h : validateFitResult intercept slope = .ok line) :
    line.intercept = max intercept 0 ∧ line.slope = max slope 0 := by
  unfold validateFitResult at h
  split_ifs at h
  cases h
  exact ⟨rfl, rfl⟩

theorem validate_fit_result_nonneg {intercept slope : ℚ} (hi : 0 ≤ intercept) (hs : 0 ≤ slope) :
    ∃ line, validateFitResult intercept slope = .ok line ∧ line.intercept = intercept ∧
      line.slope = slope := by
  have hguard : -CALIBRATION_EPSILON < 0 := by
    unfold CALIBRATION_EPSILON
    norm_num
  unfold validateFitResult
  rw [if_neg (not_lt.mpr (hguard.le.trans hi)), if_neg (not_lt.mpr (hguard.le.trans hs))]
  exact ⟨_, rfl, max_eq_left hi, max_eq_left hs⟩

/-- One of the two errors that say that no slope can be fitted. -/
def CannotFitSlope {α : Type} (result : Except CalibrationError α) : Prop :=
  result = .error .equalXValues ∨ result = .error .zeroXValues

/-- A line that is validated is only refused for its sign. -/
theorem validated_not_cannot {α : Type} (intercept slope : ℚ) (f : FittedLine → α) :
    ¬CannotFitSlope ((validateFitResult intercept slope).map f) := by
  unfold CannotFitSlope validateFitResult
  split_ifs
  · simp [Except.map]
  · simp [Except.map]
  · simp [Except.map]

namespace CalibrationMode

/-- The fitting function of a mode. -/
def fit : CalibrationMode → List KVLoadCalibrationObservation → String → Bool →
    Except CalibrationError KVLoadCalibrationFit
  | tokenLinearV1, observations, calibratedFrom, fitIntercept =>
    fitTokenLinearV1 observations calibratedFrom fitIntercept
  | byteLinearV1, observations, calibratedFrom, fitIntercept =>
    fitByteLinearV1 observations calibratedFrom fitIntercept

/-- The slope among the parameters of a mode. -/
def slope : CalibrationMode → KVLoadCalibrationFit → ℚ
  | tokenLinearV1 => KVLoadCalibrationFit.ddrMsPerCachedToken
  | byteLinearV1 => KVLoadCalibrationFit.ddrMsPerByte

/-- What an iteration loads, counted as the observations of a mode are. -/
def loaded : CalibrationMode → BatchShape → ℕ
  | tokenLinearV1 => BatchShape.kvLoadTokens
  | byteLinearV1 => BatchShape.kvLoadBytes

variable (mode : CalibrationMode) (observations : List KVLoadCalibrationObservation)

/-- The x values of a fit. -/
def amounts : List ℚ := observations.map fun item ↦ (mode.amount item : ℚ)

/-- The line that is computed, before it is validated. -/
def line (fitIntercept : Bool) : ℚ × ℚ :=
  if fitIntercept then lineWithIntercept (mode.amounts observations)
    (observations.map KVLoadCalibrationObservation.durationMs)
  else lineThroughOrigin (mode.amounts observations)
    (observations.map KVLoadCalibrationObservation.durationMs)

/-- The sum of the squared differences between the observed durations and a line. -/
def squaredError (overheadMs slopeMs : ℚ) : ℚ :=
  (observations.map fun item ↦
    (item.durationMs - (overheadMs + slopeMs * mode.amount item)) ^ 2).sum

/-- Observations that can be fitted. -/
structure Calibratable (calibratedFrom : String) : Prop where
  nonempty : observations ≠ []
  one_model : ∀ a ∈ observations, ∀ b ∈ observations, a.modelName = b.modelName
  one_hardware : ∀ a ∈ observations, ∀ b ∈ observations, a.hardwareName = b.hardwareName
  one_path : ∀ a ∈ observations, ∀ b ∈ observations, a.transferPath = b.transferPath
  path_not_blank : ∀ item ∈ observations, isBlank item.transferPath = false
  some_positive : ∃ item ∈ observations, 0 < mode.amount item
  from_not_blank : isBlank calibratedFrom = false

end CalibrationMode

theorem not_blank_ne_empty {text : String} (h : isBlank text = false) : text ≠ "" := by
  rintro rfl
  cases h

theorem require_shared_ok {first : KVLoadCalibrationObservation}
    {items : List KVLoadCalibrationObservation}
    (hmodel : ∀ item ∈ items, item.modelName = first.modelName)
    (hhardware : ∀ item ∈ items, item.hardwareName = first.hardwareName)
    (hpath : ∀ item ∈ items, item.transferPath = first.transferPath) :
    requireShared first items = .ok () := by
  induction items with
  | nil => rfl
  | cons item items ih =>
    obtain ⟨hm, hmodel⟩ := List.forall_mem_cons.mp hmodel
    obtain ⟨hh, hhardware⟩ := List.forall_mem_cons.mp hhardware
    obtain ⟨hp, hpath⟩ := List.forall_mem_cons.mp hpath
    unfold requireShared
    rw [if_neg (not_not.mpr hm), if_neg (not_not.mpr hh), if_neg (not_not.mpr hp)]
    exact ih hmodel hhardware hpath

namespace CalibrationMode.Calibratable

variable {mode : CalibrationMode} {observations : List KVLoadCalibrationObservation}
  {calibratedFrom : String}

theorem normalized (h : mode.Calibratable observations calibratedFrom) :
    ∃ first ∈ observations, normalizeObservations observations = .ok first := by
  cases observations with
  | nil => exact absurd rfl h.nonempty
  | cons first rest =>
    have hshared : requireShared first (first :: rest) = .ok () := require_shared_ok
      (fun item hitem ↦ h.one_model item hitem first List.mem_cons_self)
      (fun item hitem ↦ h.one_hardware item hitem first List.mem_cons_self)
      (fun item hitem ↦ h.one_path item hitem first List.mem_cons_self)
    refine ⟨first, List.mem_cons_self, ?_⟩
    rw [normalizeObservations, hshared]
    rfl

/-- All that can go wrong on such observations is the line itself. -/
theorem fit_eq (h : mode.Calibratable observations calibratedFrom) (fitIntercept : Bool) :
    ∃ (transferPath : String) (path_nonempty : transferPath ≠ "")
      (from_nonempty : calibratedFrom ≠ "") (sample_pos : 0 < observations.length),
      isBlank transferPath = false ∧
      mode.fit observations calibratedFrom fitIntercept =
        (linearFit (mode.amounts observations)
          (observations.map KVLoadCalibrationObservation.durationMs) fitIntercept).map
            (mode.fitOfLine path_nonempty from_nonempty sample_pos) := by
  obtain ⟨first, hfirst, hnormalized⟩ := h.normalized
  have hfrom := not_blank_ne_empty h.from_not_blank
  have hpositive : requireAnyPositive (observations.map mode.amount) mode.amountField = .ok () := by
    obtain ⟨item, hitem, hpos⟩ := h.some_positive
    refine if_pos (List.any_eq_true.mpr ⟨_, List.mem_map_of_mem hitem, ?_⟩)
    exact decide_eq_true hpos
  have hfit : mode.fit observations calibratedFrom fitIntercept =
      fitLinearV1 mode observations calibratedFrom fitIntercept := by
    cases mode <;> rfl
  refine ⟨first.transferPath, first.path_nonempty, hfrom, normalize_length hnormalized,
    h.path_not_blank first hfirst, ?_⟩
  rw [hfit]
  unfold fitLinearV1
  split
  · next failure hfailure =>
    rw [hnormalized] at hfailure
    cases hfailure
  · next other hother =>
    rw [hnormalized] at hother
    cases hother
    simp only [requireNonEmpty, dif_neg hfrom, except_ok_bind, hpositive, amounts]
    cases linearFit (observations.map fun item ↦ (mode.amount item : ℚ))
      (observations.map KVLoadCalibrationObservation.durationMs) fitIntercept with
    | ok line => rfl
    | error failure => rfl

/-- The guard and the line, on observations that can be fitted. -/
theorem linear_fit_eq (h : mode.Calibratable observations calibratedFrom) (fitIntercept : Bool) :
    linearFit (mode.amounts observations)
        (observations.map KVLoadCalibrationObservation.durationMs) fitIntercept =
      if fitIntercept then
        if denominatorWithIntercept (mode.amounts observations) ≤ CALIBRATION_EPSILON then
          .error .equalXValues
        else validateFitResult (mode.line observations fitIntercept).1
          (mode.line observations fitIntercept).2
      else
        if denominatorThroughOrigin (mode.amounts observations) ≤ CALIBRATION_EPSILON then
          .error .zeroXValues
        else validateFitResult (mode.line observations fitIntercept).1
          (mode.line observations fitIntercept).2 := by
  have hlength : (mode.amounts observations).length =
      (observations.map KVLoadCalibrationObservation.durationMs).length := by
    rw [amounts, List.length_map, List.length_map]
  have hne : mode.amounts observations ≠ [] := by
    rw [amounts, Ne, List.map_eq_nil_iff]
    exact h.nonempty
  unfold linearFit
  rw [if_neg (not_not.mpr hlength), if_neg hne]
  cases fitIntercept
  · rfl
  · rfl

theorem epsilon_lt_origin (h : mode.Calibratable observations calibratedFrom) :
    CALIBRATION_EPSILON < denominatorThroughOrigin (mode.amounts observations) := by
  obtain ⟨item, hitem, hpos⟩ := h.some_positive
  have hone : (1 : ℚ) ≤ mode.amount item * mode.amount item := by
    have hnat : 1 ≤ mode.amount item * mode.amount item := Nat.mul_pos hpos hpos
    exact_mod_cast hnat
  have hsum : (mode.amount item : ℚ) * mode.amount item ≤
      denominatorThroughOrigin (mode.amounts observations) := by
    apply List.single_le_sum
    · intro square hsquare
      obtain ⟨value, -, rfl⟩ := List.mem_map.mp hsquare
      exact mul_self_nonneg _
    · exact List.mem_map_of_mem (List.mem_map_of_mem hitem)
  unfold CALIBRATION_EPSILON
  linarith

/-- With an intercept the guard trips if and only if all amounts are equal. -/
theorem epsilon_lt_with_intercept :
    denominatorWithIntercept (mode.amounts observations) ≤ CALIBRATION_EPSILON ↔
      ∀ a ∈ observations, ∀ b ∈ observations, mode.amount a = mode.amount b := by
  rw [amounts, denominatorWithIntercept_map]
  constructor
  · intro hguard a ha b hb
    by_contra hne
    exact absurd hguard (not_le.mpr (epsilon_lt_of_ne _ ha hb hne))
  · intro hequal
    rw [LeastSquares.comoment_eq_zero fun a ha b hb ↦ congrArg Nat.cast (hequal a ha b hb)]
    unfold CALIBRATION_EPSILON
    norm_num

theorem fit_ok (h : mode.Calibratable observations calibratedFrom) {fitIntercept : Bool}
    {fit : KVLoadCalibrationFit}
    (hfit : mode.fit observations calibratedFrom fitIntercept = .ok fit) :
    (if fitIntercept then CALIBRATION_EPSILON < denominatorWithIntercept (mode.amounts observations)
      else CALIBRATION_EPSILON < denominatorThroughOrigin (mode.amounts observations)) ∧
    fit.ddrFixedOverheadMs = max (mode.line observations fitIntercept).1 0 ∧
    mode.slope fit = max (mode.line observations fitIntercept).2 0 := by
  obtain ⟨_, _, _, _, -, heq⟩ := h.fit_eq fitIntercept
  rw [heq, h.linear_fit_eq] at hfit
  obtain ⟨line, hline, rfl⟩ := except_map_ok.mp hfit
  cases fitIntercept
  · simp only [Bool.false_eq_true, if_false] at hline ⊢
    split_ifs at hline with hguard
    obtain ⟨hintercept, hslope⟩ := validate_fit_result_ok hline
    refine ⟨not_le.mp hguard, ?_⟩
    cases mode
    · exact ⟨hintercept, hslope⟩
    · exact ⟨hintercept, hslope⟩
  · simp only [if_true] at hline ⊢
    split_ifs at hline with hguard
    obtain ⟨hintercept, hslope⟩ := validate_fit_result_ok hline
    refine ⟨not_le.mp hguard, ?_⟩
    cases mode
    · exact ⟨hintercept, hslope⟩
    · exact ⟨hintercept, hslope⟩

/-- Where nothing was clamped, no line of the same kind has smaller residuals. -/
theorem optimal (h : mode.Calibratable observations calibratedFrom) {fitIntercept : Bool}
    {fit : KVLoadCalibrationFit}
    (hfit : mode.fit observations calibratedFrom fitIntercept = .ok fit)
    (hintercept : 0 ≤ (mode.line observations fitIntercept).1)
    (hslope : 0 ≤ (mode.line observations fitIntercept).2) {overheadMs slopeMs : ℚ}
    (hkind : fitIntercept = false → overheadMs = 0) :
    mode.squaredError observations fit.ddrFixedOverheadMs (mode.slope fit) ≤
      mode.squaredError observations overheadMs slopeMs := by
  obtain ⟨hguard, hoverheadEq, hslopeEq⟩ := h.fit_ok hfit
  have hpos : 0 < CALIBRATION_EPSILON := by
    unfold CALIBRATION_EPSILON
    norm_num
  rw [hoverheadEq, hslopeEq, max_eq_left hintercept, max_eq_left hslope]
  cases fitIntercept
  · rw [hkind rfl]
    exact lineThroughOrigin_best (hpos.trans hguard).ne' slopeMs
  · exact lineWithIntercept_best h.nonempty (hpos.trans hguard).ne' overheadMs slopeMs

theorem cannot_fit_slope_iff (h : mode.Calibratable observations calibratedFrom) :
    CannotFitSlope (mode.fit observations calibratedFrom true) ↔
      ∀ a ∈ observations, ∀ b ∈ observations, mode.amount a = mode.amount b := by
  obtain ⟨_, _, _, _, -, heq⟩ := h.fit_eq true
  rw [heq, h.linear_fit_eq, if_pos rfl, ← epsilon_lt_with_intercept]
  split_ifs with hguard
  · exact ⟨fun _ ↦ hguard, fun _ ↦ Or.inl rfl⟩
  · exact ⟨fun hcannot ↦ absurd hcannot (validated_not_cannot _ _ _),
      fun hequal ↦ absurd hequal hguard⟩

/-- A line through the origin is only refused for its sign. -/
theorem origin_not_cannot (h : mode.Calibratable observations calibratedFrom) :
    ¬CannotFitSlope (mode.fit observations calibratedFrom false) := by
  obtain ⟨_, _, _, _, -, heq⟩ := h.fit_eq false
  rw [heq, h.linear_fit_eq, if_neg Bool.false_ne_true, if_neg (not_le.mpr h.epsilon_lt_origin)]
  exact validated_not_cannot _ _ _

/-- Durations on a line give that line back. -/
theorem fit_exact (h : mode.Calibratable observations calibratedFrom) {overheadMs slopeMs : ℚ}
    (hoverhead : 0 ≤ overheadMs) (hslope : 0 ≤ slopeMs)
    (hexact : ∀ item ∈ observations, item.durationMs = overheadMs + slopeMs * mode.amount item)
    (hdiffer : ∃ a ∈ observations, ∃ b ∈ observations, mode.amount a ≠ mode.amount b) :
    ∃ fit, mode.fit observations calibratedFrom true = .ok fit ∧ fit.mode = mode ∧
      isBlank fit.transferPath = false ∧ fit.calibratedFrom = calibratedFrom ∧
      fit.ddrFixedOverheadMs = overheadMs ∧ mode.slope fit = slopeMs := by
  obtain ⟨transferPath, path_nonempty, from_nonempty, sample_pos, hpath, heq⟩ := h.fit_eq true
  have hguard : ¬denominatorWithIntercept (mode.amounts observations) ≤ CALIBRATION_EPSILON := by
    rw [epsilon_lt_with_intercept]
    rintro hequal
    obtain ⟨a, ha, b, hb, hne⟩ := hdiffer
    exact hne (hequal a ha b hb)
  have hpos : 0 < CALIBRATION_EPSILON := by
    unfold CALIBRATION_EPSILON
    norm_num
  have hline : mode.line observations true = (overheadMs, slopeMs) :=
    lineWithIntercept_exact h.nonempty (hpos.trans (not_le.mp hguard)).ne' hexact
  obtain ⟨line, hvalid, hintercept, hlineSlope⟩ := validate_fit_result_nonneg hoverhead hslope
  refine ⟨mode.fitOfLine path_nonempty from_nonempty sample_pos line, ?_, ?_⟩
  · rw [heq, h.linear_fit_eq, if_pos rfl, if_neg hguard, hline, hvalid]
    rfl
  · cases mode
    · exact ⟨rfl, hpath, rfl, hintercept, hlineSlope⟩
    · exact ⟨rfl, hpath, rfl, hintercept, hlineSlope⟩

end CalibrationMode.Calibratable

section Profile

theorem non_empty_str_ok {text : String} (h : isBlank text = false) (fieldName : String) :
    nonEmptyStr (.str text) fieldName = .ok text := by
  simp only [nonEmptyStr, h, Bool.false_eq_true, if_false]

theorem optional_text_ok {text : String} (h : isBlank text = false) (fieldName : String) :
    optionalText (.str text) fieldName = .ok (some text) := by
  show some <$> nonEmptyStr (.str text) fieldName = _
  rw [non_empty_str_ok h]
  rfl

theorem non_negative_float_ok {number : ℚ} (h : 0 ≤ number) (fieldName : String) :
    nonNegativeFloat (.float number) fieldName = .ok number := if_neg (not_lt.mpr h)

theorem literal_only {text : String} (h : isBlank text = false) (fieldName : String) :
    literal (.str text) fieldName id [text] = .ok text := by
  rw [literal, non_empty_str_ok h, except_ok_bind]
  simp

/-- The mode of a profile with a calibrated mode. -/
def CalibrationMode.profileMode : CalibrationMode → KVLoadMode
  | tokenLinearV1 => .tokenLinearV1
  | byteLinearV1 => .byteLinearV1

theorem parse_kv_load_mode_ok (mode : CalibrationMode) (fieldName : String)
    (hasNonzeroCoefficients : Bool) :
    parseKvLoadMode (.str mode.value) fieldName hasNonzeroCoefficients = .ok mode.profileMode := by
  show literal _ _ _ _ = _
  cases mode
  · rw [literal, non_empty_str_ok (by decide), except_ok_bind]
    rfl
  · rw [literal, non_empty_str_ok (by decide), except_ok_bind]
    rfl

/-- The profile that the parameters of a fit make. -/
def KVLoadCalibrationFit.profile (fit : KVLoadCalibrationFit) : KVLoadLatencyProfile where
  mode := fit.mode.profileMode
  aggregation := fit.aggregation
  overlapMode := fit.overlapMode
  transferPath := fit.transferPath
  ddrFixedOverheadMs := fit.ddrFixedOverheadMs
  ddrMsPerCachedToken := fit.ddrMsPerCachedToken
  ddrMsPerByte := fit.ddrMsPerByte
  calibratedFrom := fit.calibratedFrom

theorem get_profile_entries (fit : KVLoadCalibrationFit) (key : String) :
    Json.get ((profileEntries fit).insertionSort Json.byKey) key =
      (profileEntries fit).lookup key := by
  apply Json.get_dict
  unfold profileEntries
  cases fit.mode
  · simp
  · simp

/-- A coefficient that the mapping leaves out is the zero of the fit. -/
theorem coefficient_entries (fit : KVLoadCalibrationFit) :
    ((profileEntries fit).lookup "ddr_ms_per_cached_token").getD (.float 0) =
      .float fit.ddrMsPerCachedToken ∧
    ((profileEntries fit).lookup "ddr_ms_per_byte").getD (.float 0) = .float fit.ddrMsPerByte := by
  unfold profileEntries
  cases hmode : fit.mode with
  | tokenLinearV1 => exact ⟨rfl, congrArg Json.float (fit.token_only hmode).symm⟩
  | byteLinearV1 => exact ⟨congrArg Json.float (fit.byte_only hmode).symm, rfl⟩

theorem validate_coefficients_ok (fit : KVLoadCalibrationFit) (fieldName : String) :
    validateKvLoadCoefficients fit.mode.profileMode fieldName fit.ddrFixedOverheadMs
      fit.ddrMsPerCachedToken fit.ddrMsPerByte = .ok () := by
  unfold validateKvLoadCoefficients
  cases hmode : fit.mode with
  | tokenLinearV1 => simp [CalibrationMode.profileMode, fit.token_only hmode]
  | byteLinearV1 => simp [CalibrationMode.profileMode, fit.byte_only hmode]

/-- The mapping of a fit is parsed to the profile with its parameters. -/
theorem from_mapping_profile (fit : KVLoadCalibrationFit)
    (hpath : isBlank fit.transferPath = false) (hfrom : isBlank fit.calibratedFrom = false)
    (fieldName : String) :
    KVLoadLatencyProfile.fromMapping (toKvLoadProfileMapping fit) fieldName = .ok fit.profile := by
  have hget := get_profile_entries fit
  obtain ⟨htoken, hbyte⟩ := coefficient_entries fit
  have hmode : (profileEntries fit).lookup "mode" = some (.str fit.mode.value) := rfl
  have haggregation : (profileEntries fit).lookup "aggregation" = some (.str "shared_link_sum") :=
    congrArg (fun text ↦ some (Json.str text)) fit.aggregation_only
  have hoverlap : (profileEntries fit).lookup "overlap_mode" = some (.str "none_v1") :=
    congrArg (fun text ↦ some (Json.str text)) fit.overlap_only
  have hoverhead : (profileEntries fit).lookup "ddr_fixed_overhead_ms" =
      some (.float fit.ddrFixedOverheadMs) := rfl
  have hpathEntry : (profileEntries fit).lookup "transfer_path" = some (.str fit.transferPath) := rfl
  have hfromEntry : (profileEntries fit).lookup "calibrated_from" =
      some (.str fit.calibratedFrom) := rfl
  have hremote : (profileEntries fit).lookup "remote_ms_per_cached_token" = none := by
    unfold profileEntries
    cases fit.mode <;> rfl
  have hparsed : optionalMapping (toKvLoadProfileMapping fit) =
      .ok ((profileEntries fit).insertionSort Json.byKey) := rfl
  unfold KVLoadLatencyProfile.fromMapping
  simp only [toKvLoadProfileMapping, Json.dict] at hparsed ⊢
  rw [hparsed, except_ok_bind]
  simp only [hget, htoken, hbyte, hmode, haggregation, hoverlap, hoverhead, hpathEntry, hfromEntry,
    hremote, Option.getD_some, Option.getD_none, non_negative_float_ok fit.overhead_nonneg,
    non_negative_float_ok fit.token_nonneg, non_negative_float_ok fit.byte_nonneg,
    non_negative_float_ok le_rfl, except_ok_bind, parse_kv_load_mode_ok, optional_text_ok hpath,
    optional_text_ok hfrom, validate_coefficients_ok]
  rw [literal_only (by decide), except_ok_bind, literal_only (by decide), except_ok_bind]
  rw [KVLoadCalibrationFit.profile, fit.aggregation_only, fit.overlap_only]
  rfl

end Profile

section Component

theorem load_active_iff (shape : BatchShape) :
    loadActive shape = true ↔
      shape.kvLoadRequestCount > 0 ∨ shape.kvLoadTokens > 0 ∨ shape.kvLoadBytes > 0 := by
  unfold loadActive
  simp [or_assoc]

/-- What a component with the parameters of a fit charges for an iteration. A byte-linear one
refuses an iteration that loads tokens of no bytes. -/
structure IterationLatencyComponent.Charges (component : IterationLatencyComponent)
    (mode : CalibrationMode) (overheadMs slopeMs : ℚ) : Prop where
  loading : ∀ shape, loadActive shape = true →
    ¬(mode = .byteLinearV1 ∧ shape.kvLoadTokens > 0 ∧ shape.kvLoadBytes = 0) →
      ∃ result, component.estimateIteration shape = .ok result ∧
        result.durationMs = overheadMs + slopeMs * mode.loaded shape
  idle : ∀ shape, loadActive shape = false →
    ∃ result, component.estimateIteration shape = .ok result ∧ result.durationMs = 0
  refused : mode = .byteLinearV1 → ∀ shape, shape.kvLoadTokens > 0 → shape.kvLoadBytes = 0 →
    component.estimateIteration shape = .error .byteLinearNeedsBytes

theorem validate_common_ok (fit : KVLoadCalibrationFit) :
    validateCommon fit.profile.settings = .ok () := by
  have haggregation : ¬fit.profile.settings.aggregation ≠ "shared_link_sum" :=
    not_not.mpr fit.aggregation_only
  have hoverlap : ¬fit.profile.settings.overlapMode ≠ "none_v1" := not_not.mpr fit.overlap_only
  have hpath : fit.profile.settings.transferPath ≠ "" := fit.path_nonempty
  have hfrom : fit.profile.settings.calibratedFrom ≠ "" := fit.from_nonempty
  rw [validateCommon, if_neg haggregation, if_neg hoverlap, if_neg hpath, if_neg hfrom]

theorem linear_load_active {overheadMs slopeMs : ℚ} (amount : ℕ) :
    linearLoadMs overheadMs slopeMs true amount = overheadMs + slopeMs * amount := by
  rw [linearLoadMs, if_pos rfl, mul_comm]

/-- The component that is built from the profile of a fit charges the line of the fit. -/
theorem build_component_charges (fit : KVLoadCalibrationFit) :
    ∃ component, buildKvLoadComponent fit.profile = .ok component ∧
      component.Charges fit.mode fit.ddrFixedOverheadMs (fit.mode.slope fit) := by
  have hcommon := validate_common_ok fit
  have hoverhead := not_lt.mpr fit.overhead_nonneg
  have hremote : ¬fit.profile.remoteMsPerCachedToken > 0 := lt_irrefl (0 : ℚ)
  cases hmode : fit.mode with
  | tokenLinearV1 =>
    let component : TokenLinearKVLoadLatencyComponent := {
      toKVLoadSettings := fit.profile.settings
      ddrFixedOverheadMs := fit.ddrFixedOverheadMs
      ddrMsPerCachedToken := fit.ddrMsPerCachedToken
      overhead_nonneg := fit.overhead_nonneg
      slope_nonneg := fit.token_nonneg }
    have hbuild : TokenLinearKVLoadLatencyComponent.build fit.profile.settings
        fit.ddrFixedOverheadMs fit.ddrMsPerCachedToken = .ok component := by
      rw [TokenLinearKVLoadLatencyComponent.build, hcommon, except_ok_bind, dif_neg hoverhead,
        dif_neg (not_lt.mpr fit.token_nonneg)]
    refine ⟨component.toComponent, ?_, ?_, ?_, ?_⟩
    · have hprofile : fit.profile.mode = .tokenLinearV1 :=
        congrArg CalibrationMode.profileMode hmode
      rw [buildKvLoadComponent, if_neg hremote, hprofile]
      exact congrArg (Except.map _) hbuild
    · intro shape hactive _
      refine ⟨_, rfl, ?_⟩
      show linearLoadMs _ _ (loadActive shape) _ = _
      rw [hactive, linear_load_active]
      rfl
    · intro shape hidle
      refine ⟨_, rfl, ?_⟩
      show linearLoadMs _ _ (loadActive shape) _ = _
      rw [hidle]
      rfl
    · intro hbyte
      cases hbyte
  | byteLinearV1 =>
    let component : ByteLinearKVLoadLatencyComponent := {
      toKVLoadSettings := fit.profile.settings
      ddrFixedOverheadMs := fit.ddrFixedOverheadMs
      ddrMsPerByte := fit.ddrMsPerByte
      overhead_nonneg := fit.overhead_nonneg
      slope_nonneg := fit.byte_nonneg }
    have hbuild : ByteLinearKVLoadLatencyComponent.build fit.profile.settings
        fit.ddrFixedOverheadMs fit.ddrMsPerByte = .ok component := by
      rw [ByteLinearKVLoadLatencyComponent.build, hcommon, except_ok_bind, dif_neg hoverhead,
        dif_neg (not_lt.mpr fit.byte_nonneg)]
    refine ⟨component.toComponent, ?_, ?_, ?_, ?_⟩
    · have hprofile : fit.profile.mode = .byteLinearV1 :=
        congrArg CalibrationMode.profileMode hmode
      rw [buildKvLoadComponent, if_neg hremote, hprofile]
      exact congrArg (Except.map _) hbuild
    · intro shape hactive hbytes
      have hguard : ¬(loadActive shape = true ∧ shape.kvLoadTokens > 0 ∧ shape.kvLoadBytes = 0) :=
        fun h ↦ hbytes ⟨rfl, h.2⟩
      refine ⟨_, if_neg hguard, ?_⟩
      show linearLoadMs _ _ (loadActive shape) _ = _
      rw [hactive, linear_load_active]
      rfl
    · intro shape hidle
      have hguard : ¬(loadActive shape = true ∧ shape.kvLoadTokens > 0 ∧ shape.kvLoadBytes = 0) :=
        fun h ↦ Bool.false_ne_true (hidle.symm.trans h.1)
      refine ⟨_, if_neg hguard, ?_⟩
      show linearLoadMs _ _ (loadActive shape) _ = _
      rw [hidle]
      rfl
    · intro _ shape htokens hbytes
      exact if_pos ⟨(load_active_iff shape).mpr (Or.inr (Or.inl htokens)), htokens, hbytes⟩

end Component

/-- Calibration finds the best line of its kind, cannot do so with an intercept only where all
amounts are equal, and gives back a line that the observations lie on, which the component built
from its mapping then charges. -/
theorem calibration_recovers_line (mode : CalibrationMode)
    (observations : List KVLoadCalibrationObservation) (calibratedFrom : String)
    (h : mode.Calibratable observations calibratedFrom) :
    (∀ fitIntercept fit, mode.fit observations calibratedFrom fitIntercept = .ok fit →
      0 ≤ (mode.line observations fitIntercept).1 → 0 ≤ (mode.line observations fitIntercept).2 →
        (fitIntercept = false → fit.ddrFixedOverheadMs = 0) ∧
        ∀ overheadMs slopeMs, (fitIntercept = false → overheadMs = 0) →
          mode.squaredError observations fit.ddrFixedOverheadMs (mode.slope fit) ≤
            mode.squaredError observations overheadMs slopeMs) ∧
    (CannotFitSlope (mode.fit observations calibratedFrom true) ↔
      ∀ a ∈ observations, ∀ b ∈ observations, mode.amount a = mode.amount b) ∧
    ¬CannotFitSlope (mode.fit observations calibratedFrom false) ∧
    ∀ overheadMs slopeMs : ℚ, 0 ≤ overheadMs → 0 ≤ slopeMs →
      (∀ item ∈ observations, item.durationMs = overheadMs + slopeMs * mode.amount item) →
      (∃ a ∈ observations, ∃ b ∈ observations, mode.amount a ≠ mode.amount b) →
        ∃ fit, mode.fit observations calibratedFrom true = .ok fit ∧
          fit.ddrFixedOverheadMs = overheadMs ∧ mode.slope fit = slopeMs ∧
          ∀ fieldName, ∃ profile component,
            KVLoadLatencyProfile.fromMapping (toKvLoadProfileMapping fit) fieldName = .ok profile ∧
            buildKvLoadComponent profile = .ok component ∧
            component.Charges mode overheadMs slopeMs := by
  refine ⟨fun fitIntercept fit hfit hintercept hslope ↦ ⟨?_, ?_⟩, h.cannot_fit_slope_iff,
    h.origin_not_cannot, fun overheadMs slopeMs hoverhead hslope hexact hdiffer ↦ ?_⟩
  · rintro rfl
    exact (h.fit_ok hfit).2.1.trans (max_self 0)
  · intro overheadMs slopeMs hkind
    exact h.optimal hfit hintercept hslope hkind
  · obtain ⟨fit, hfit, rfl, hpath, hfrom, rfl, rfl⟩ := h.fit_exact hoverhead hslope hexact hdiffer
    refine ⟨fit, hfit, rfl, rfl, fun fieldName ↦ ?_⟩
    obtain ⟨component, hbuild, hcharges⟩ := build_component_charges fit
    exact ⟨fit.profile, component,
      from_mapping_profile fit hpath (hfrom ▸ h.from_not_blank) fieldName, hbuild, hcharges⟩

/-- Three loads on the line with overhead one and slope one half. -/
def threeLoads : List KVLoadCalibrationObservation :=
  let load (kvLoadTokens : ℕ) (durationMs : ℚ) (duration_nonneg : 0 ≤ durationMs) :
      KVLoadCalibrationObservation := {
    source := "ramulator"
    modelName := "model"
    hardwareName := "hardware"
    transferPath := "local_ddr_cpu"
    kvLoadTokens
    kvLoadBytes := 0
    kvLoadRequestCount := 1
    batchSize := 1
    durationMs
    source_nonempty := by decide
    model_nonempty := by decide
    hardware_nonempty := by decide
    path_nonempty := by decide
    batch_pos := by decide
    duration_nonneg }
  [load 10 6 (by decide), load 20 11 (by decide), load 30 16 (by decide)]

theorem calibration_recovers_line_three :
    ∃ fit, fitTokenLinearV1 threeLoads "run" = .ok fit ∧
      fit.ddrFixedOverheadMs = 1 ∧ fit.ddrMsPerCachedToken = 1 / 2 := by
  have hcalibratable : CalibrationMode.tokenLinearV1.Calibratable threeLoads "run" := {
    nonempty := by decide
    one_model := by decide
    one_hardware := by decide
    one_path := by decide
    path_not_blank := by decide
    some_positive := by decide
    from_not_blank := by decide }
  obtain ⟨fit, hfit, hoverhead, hslope, -⟩ :=
    (calibration_recovers_line .tokenLinearV1 threeLoads "run" hcalibratable).2.2.2 1 (1 / 2)
      zero_le_one one_half_pos.le (by decide +kernel) (by decide)
  exact ⟨fit, hfit, hoverhead, hslope⟩

end InferTwin
