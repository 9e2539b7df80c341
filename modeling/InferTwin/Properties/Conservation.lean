import InferTwin.Latency.Attribution
import InferTwin.Refinement.Iteration
import InferTwin.Sample
import Mathlib.Algebra.BigOperators.Ring.Finset
import Mathlib.Algebra.BigOperators.Ring.List

namespace InferTwin

/-- The contributions of an iteration's slices make up the iteration. -/
structure Conserves (shape : BatchShape) (breakdown : IterationLatencyBreakdown)
    (contributions : Dict String IterationLatencyBreakdown) : Prop where
  nonneg : ∀ requestId share, contributions.lookup requestId = some share →
    0 ≤ share.prefillComputeMs ∧ 0 ≤ share.kvLoadMs ∧ 0 ≤ share.queueMs
  prefill : 0 < shape.scheduledPrefillTokens →
    contributions.total IterationLatencyBreakdown.prefillComputeMs = breakdown.prefillComputeMs
  kv_load : (∃ slice ∈ shape.requestSlices, 0 < slice.kvLoadTokens ∨ 0 < slice.kvLoadBytes) →
    contributions.total IterationLatencyBreakdown.kvLoadMs = breakdown.kvLoadMs
  queue : shape.requestSlices ≠ [] →
    contributions.total IterationLatencyBreakdown.queueMs = breakdown.queueMs

/-- A total over the contributions is one over the slices. -/
theorem contributions_total (breakdown : IterationLatencyBreakdown) (shape : BatchShape)
    (f : IterationLatencyBreakdown → ℚ) {slices : List ScheduledSlice}
    (hd : (slices.map ScheduledSlice.requestId).Nodup)
    {contributions : Dict String IterationLatencyBreakdown}
    (hnew : ∀ slice ∈ slices, slice.requestId ∉ contributions) :
    (contributionsOf breakdown shape slices contributions).total f =
      (slices.map fun slice ↦ f (sliceContribution breakdown shape slice)).sum +
        contributions.total f := by
  induction slices generalizing contributions with
  | nil => simp [contributionsOf]
  | cons slice slices ih =>
    rw [List.map_cons, List.nodup_cons] at hd
    have hrest : ∀ other ∈ slices, other.requestId ∉
        contributions.insert slice.requestId (sliceContribution breakdown shape slice) := by
      intro other ho hmem
      rcases Finmap.mem_insert.mp hmem with he | hmem
      · exact hd.1 (he ▸ List.mem_map_of_mem ho)
      · exact hnew other (List.mem_cons_of_mem _ ho) hmem
    have hstep := ih hd.2 hrest
    rw [Dict.total_insert f (hnew slice (List.mem_cons_self ..))] at hstep
    rw [List.map_cons, List.sum_cons]
    refine Eq.trans hstep ?_
    ring

section Shares

variable (breakdown : IterationLatencyBreakdown) {shape : BatchShape}

theorem prefill_shares_sum (h : 0 < shape.scheduledPrefillTokens) :
    (shape.requestSlices.map fun slice ↦
      (sliceContribution breakdown shape slice).prefillComputeMs).sum =
        breakdown.prefillComputeMs := by
  have hsum := proportional_shares_sum breakdown.prefillComputeMs
    (shape.requestSlices.map ScheduledSlice.scheduledPrefillTokens)
  have hne : (shape.requestSlices.map ScheduledSlice.scheduledPrefillTokens).sum ≠ 0 := h.ne'
  rw [List.map_map, if_neg hne] at hsum
  exact hsum

theorem queue_shares_sum (h : shape.requestSlices ≠ []) :
    (shape.requestSlices.map fun slice ↦ (sliceContribution breakdown shape slice).queueMs).sum =
      breakdown.queueMs := by
  have hpos : 0 < shape.batchSize := List.length_pos_of_ne_nil h
  have hne : (shape.batchSize : ℚ) ≠ 0 := Nat.cast_ne_zero.mpr hpos.ne'
  have hshare : ∀ slice ∈ shape.requestSlices,
      (sliceContribution breakdown shape slice).queueMs = breakdown.queueMs / shape.batchSize :=
    fun _ _ ↦ if_pos hpos
  rw [List.map_congr_left hshare, List.map_const', List.sum_replicate, nsmul_eq_mul]
  exact mul_div_cancel₀ breakdown.queueMs hne

/-- Slices without KV bytes that are charged by their tokens, next to slices that are
charged by their bytes. -/
def uncountedTokens (shape : BatchShape) : ℕ :=
  (shape.requestSlices.map fun slice ↦
    if slice.kvLoadBytes = 0 then slice.kvLoadTokens else 0).sum

theorem uncounted_tokens_eq_zero : uncountedTokens shape = 0 ↔
    ∀ slice ∈ shape.requestSlices, slice.kvLoadBytes = 0 → slice.kvLoadTokens = 0 := by
  simp [uncountedTokens, List.sum_eq_zero_iff]

theorem uncounted_tokens_le : uncountedTokens shape ≤ shape.kvLoadTokens := by
  refine List.sum_le_sum fun slice _ ↦ ?_
  split_ifs
  · exact le_rfl
  · exact Nat.zero_le _

/-- Once any slice has KV bytes, the slices with bytes share the whole KV load time, and
the slices with tokens alone are charged on top of it. -/
theorem kv_shares_sum_of_bytes (h : 0 < shape.kvLoadBytes) :
    (shape.requestSlices.map fun slice ↦ (sliceContribution breakdown shape slice).kvLoadMs).sum =
      breakdown.kvLoadMs + breakdown.kvLoadMs * uncountedTokens shape / shape.kvLoadTokens := by
  have hsplit : ∀ slice ∈ shape.requestSlices,
      (sliceContribution breakdown shape slice).kvLoadMs =
        proportionalShare breakdown.kvLoadMs slice.kvLoadBytes shape.kvLoadBytes +
          breakdown.kvLoadMs / shape.kvLoadTokens *
            ((if slice.kvLoadBytes = 0 then slice.kvLoadTokens else 0 : ℕ) : ℚ) := by
    intro slice hs
    unfold sliceContribution
    dsimp only
    by_cases hb : 0 < slice.kvLoadBytes
    · rw [if_pos ⟨h, hb⟩, if_neg hb.ne', proportionalShare, if_pos ⟨h, hb⟩]
      simp
    · have hz : slice.kvLoadBytes = 0 := by omega
      rw [if_neg fun hc ↦ hb hc.2, if_pos hz, hz]
      by_cases ht : 0 < slice.kvLoadTokens
      · have hle : slice.kvLoadTokens ≤ shape.kvLoadTokens :=
          List.single_le_sum (fun _ _ ↦ Nat.zero_le _) _ (List.mem_map_of_mem hs)
        rw [proportionalShare, if_pos ⟨ht.trans_le hle, ht⟩]
        simp only [proportionalShare, lt_self_iff_false, and_false, if_false]
        ring
      · have htz : slice.kvLoadTokens = 0 := by omega
        simp [proportionalShare, htz]
  have hbytes := proportional_shares_sum breakdown.kvLoadMs
    (shape.requestSlices.map ScheduledSlice.kvLoadBytes)
  have hne : (shape.requestSlices.map ScheduledSlice.kvLoadBytes).sum ≠ 0 := h.ne'
  rw [List.map_map, if_neg hne] at hbytes
  rw [List.map_congr_left hsplit, List.sum_map_add, List.sum_map_mul_left]
  have hcast : (shape.requestSlices.map fun slice ↦
      ((if slice.kvLoadBytes = 0 then slice.kvLoadTokens else 0 : ℕ) : ℚ)).sum =
        (uncountedTokens shape : ℚ) := by
    rw [uncountedTokens, Nat.cast_list_sum, List.map_map]
    rfl
  rw [hcast]
  refine congrArg₂ (· + ·) hbytes ?_
  ring

theorem kv_shares_sum_of_tokens (h : shape.kvLoadBytes = 0) (ht : 0 < shape.kvLoadTokens) :
    (shape.requestSlices.map fun slice ↦ (sliceContribution breakdown shape slice).kvLoadMs).sum =
      breakdown.kvLoadMs := by
  have hshare : ∀ slice ∈ shape.requestSlices,
      (sliceContribution breakdown shape slice).kvLoadMs =
        proportionalShare breakdown.kvLoadMs slice.kvLoadTokens shape.kvLoadTokens := by
    intro slice _
    unfold sliceContribution
    dsimp only
    rw [if_neg (fun hc ↦ by omega)]
  have hsum := proportional_shares_sum breakdown.kvLoadMs
    (shape.requestSlices.map ScheduledSlice.kvLoadTokens)
  have hne : (shape.requestSlices.map ScheduledSlice.kvLoadTokens).sum ≠ 0 := ht.ne'
  rw [List.map_map, if_neg hne] at hsum
  rw [List.map_congr_left hshare]
  exact hsum

/-- When the KV load shares make up the KV load time. -/
theorem kv_shares_sum_iff
    (hload : ∃ slice ∈ shape.requestSlices, 0 < slice.kvLoadTokens ∨ 0 < slice.kvLoadBytes) :
    (shape.requestSlices.map fun slice ↦ (sliceContribution breakdown shape slice).kvLoadMs).sum =
        breakdown.kvLoadMs ↔
      breakdown.kvLoadMs = 0 ∨ shape.kvLoadBytes = 0 ∨
        ∀ slice ∈ shape.requestSlices, slice.kvLoadBytes = 0 → slice.kvLoadTokens = 0 := by
  obtain ⟨slice, hs, hwork⟩ := hload
  rcases Nat.eq_zero_or_pos shape.kvLoadBytes with hz | hpos
  · have hnone : slice.kvLoadBytes ≤ shape.kvLoadBytes :=
      List.single_le_sum (fun _ _ ↦ Nat.zero_le _) _ (List.mem_map_of_mem hs)
    have htokens : slice.kvLoadTokens ≤ shape.kvLoadTokens :=
      List.single_le_sum (fun _ _ ↦ Nat.zero_le _) _ (List.mem_map_of_mem hs)
    exact iff_of_true (kv_shares_sum_of_tokens breakdown hz (by omega)) (.inr (.inl hz))
  · rw [kv_shares_sum_of_bytes breakdown hpos, ← uncounted_tokens_eq_zero, add_eq_left]
    have hle : uncountedTokens shape ≤ shape.kvLoadTokens := uncounted_tokens_le
    constructor
    · intro h
      rcases div_eq_zero_iff.mp h with h | h
      · rcases mul_eq_zero.mp h with h | h
        · exact .inl h
        · exact .inr (.inr (Nat.cast_eq_zero.mp h))
      · have hzero : shape.kvLoadTokens = 0 := Nat.cast_eq_zero.mp h
        exact .inr (.inr (by omega))
    · rintro (h | h | h)
      · simp [h]
      · omega
      · simp [h]

end Shares

/-- The contributions of an iteration make it up exactly when it has no KV load time, no
slice has KV bytes, or every slice with KV tokens has KV bytes. -/
theorem split_conserves_iff {shape : BatchShape} {latency : LatencyResult}
    {breakdown : IterationLatencyBreakdown}
    (hd : (shape.requestSlices.map ScheduledSlice.requestId).Nodup)
    (hb : latencyBreakdownFromResult latency = .ok breakdown) :
    ∃ contributions, splitIterationLatencyContributions shape latency = .ok contributions ∧
      (Conserves shape breakdown contributions ↔
        breakdown.kvLoadMs = 0 ∨ shape.kvLoadBytes = 0 ∨
          ∀ slice ∈ shape.requestSlices, slice.kvLoadBytes = 0 → slice.kvLoadTokens = 0) := by
  refine ⟨contributionsOf breakdown shape shape.requestSlices ∅, ?_, ?_⟩
  · rw [split_contributions_eq, hb]
    rfl
  have htotal : ∀ f : IterationLatencyBreakdown → ℚ,
      (contributionsOf breakdown shape shape.requestSlices ∅).total f =
        (shape.requestSlices.map fun slice ↦ f (sliceContribution breakdown shape slice)).sum := by
    intro f
    rw [contributions_total breakdown shape f hd fun _ _ ↦ Finmap.notMem_empty, Dict.total_empty, add_zero]
  constructor
  · intro h
    by_cases hload : ∃ slice ∈ shape.requestSlices, 0 < slice.kvLoadTokens ∨ 0 < slice.kvLoadBytes
    · exact (kv_shares_sum_iff breakdown hload).mp ((htotal _).symm.trans (h.kv_load hload))
    · refine .inr (.inr fun slice hs _ ↦ ?_)
      by_contra hne
      exact hload ⟨slice, hs, .inl (Nat.pos_of_ne_zero hne)⟩
  · intro h
    constructor
    · exact fun _ share _ ↦ ⟨share.prefill_nonneg, share.kv_load_nonneg, share.queue_nonneg⟩
    · exact fun hp ↦ (htotal _).trans (prefill_shares_sum breakdown hp)
    · exact fun hload ↦ (htotal _).trans ((kv_shares_sum_iff breakdown hload).mpr h)
    · exact fun hne ↦ (htotal _).trans (queue_shares_sum breakdown hne)

theorem Sample.load_nonneg : (0 : ℚ) ≤ 40 := by norm_num

/-- Two load-only slices of ten tokens each, only one of which knows its bytes. -/
def Sample.mixedShape : BatchShape where
  instanceUuid := "instance"
  iterationId := 0
  startTimeMs := 0
  requestSlices := [
    { requestId := "a", scheduledPrefillTokens := 0, computedTokensBefore := 10,
      computedTokensAfter := 10, promptTokens := 10, cachedPrefixTokens := 10,
      previousChunkTokens := 0, kvLoadTokens := 10, kvLoadBytes := 100, has_work := by decide,
      before_eq := rfl, after_eq := rfl, after_le := le_rfl },
    { requestId := "b", scheduledPrefillTokens := 0, computedTokensBefore := 10,
      computedTokensAfter := 10, promptTokens := 10, cachedPrefixTokens := 10,
      previousChunkTokens := 0, kvLoadTokens := 10, kvLoadBytes := 0, has_work := by decide,
      before_eq := rfl, after_eq := rfl, after_le := le_rfl }]
  start_nonneg := Sample.start_nonneg

def Sample.mixedLatency : LatencyResult where
  durationMs := 40
  backend := "serving_latency_profile"
  shapeKey := ShapeKey.fromShape "serving_latency_profile" "model" "hardware" Sample.mixedShape
  details := [("ttft_ms", .num 0), ("kv_load_ms", .num 40)]
  duration_nonneg := by norm_num

/-- Of 40 ms of KV load the two slices are charged 40 ms and 20 ms. -/
theorem mixed_load_overcharged :
    (Sample.mixedShape.requestSlices.map ScheduledSlice.requestId).Nodup ∧
      ∃ breakdown contributions,
        latencyBreakdownFromResult Sample.mixedLatency = .ok breakdown ∧
        splitIterationLatencyContributions Sample.mixedShape Sample.mixedLatency =
          .ok contributions ∧ ¬Conserves Sample.mixedShape breakdown contributions := by
  have hd : (Sample.mixedShape.requestSlices.map ScheduledSlice.requestId).Nodup := by decide
  obtain ⟨breakdown, hb, hload⟩ : ∃ breakdown,
      latencyBreakdownFromResult Sample.mixedLatency = .ok breakdown ∧
        breakdown.kvLoadMs = 40 := ⟨_, rfl, rfl⟩
  refine ⟨hd, breakdown, contributionsOf breakdown Sample.mixedShape
    Sample.mixedShape.requestSlices ∅, hb, ?_, fun h ↦ ?_⟩
  · rw [split_contributions_eq, hb]
    rfl
  have hsum := h.kv_load ⟨_, List.mem_cons_self .., .inl (by decide)⟩
  rw [contributions_total breakdown Sample.mixedShape _ hd fun _ _ ↦ Finmap.notMem_empty] at hsum
  rcases (kv_shares_sum_iff breakdown ⟨_, List.mem_cons_self .., .inl (by decide)⟩).mp
    ((add_zero _).symm.trans hsum) with hc | hc | hc
  · rw [hload] at hc
    norm_num at hc
  · revert hc
    decide
  · revert hc
    decide

/-- The same slices, both of which know their bytes. -/
def Sample.knownShape : BatchShape :=
  { Sample.mixedShape with
    requestSlices := Sample.mixedShape.requestSlices.map fun slice ↦
      { slice with
        kvLoadBytes := 100
        has_work := fun h ↦ absurd h.2.2 (by decide) } }

def Sample.loadBreakdown : IterationLatencyBreakdown where
  prefillComputeMs := 0
  kvLoadMs := 40
  queueMs := 0
  prefill_nonneg := Sample.start_nonneg
  kv_load_nonneg := Sample.load_nonneg
  queue_nonneg := Sample.start_nonneg

theorem split_conserves_iff_mixed :
    (∃ contributions,
      splitIterationLatencyContributions Sample.mixedShape Sample.mixedLatency =
        .ok contributions ∧ ¬Conserves Sample.mixedShape Sample.loadBreakdown contributions) ∧
    ∃ contributions,
      splitIterationLatencyContributions Sample.knownShape Sample.mixedLatency =
        .ok contributions ∧ Conserves Sample.knownShape Sample.loadBreakdown contributions := by
  have hbreakdown : latencyBreakdownFromResult Sample.mixedLatency = .ok Sample.loadBreakdown := rfl
  constructor
  · obtain ⟨contributions, hsplit, hiff⟩ := split_conserves_iff
      (show (Sample.mixedShape.requestSlices.map ScheduledSlice.requestId).Nodup by decide)
      hbreakdown
    refine ⟨contributions, hsplit, fun hconserves ↦ ?_⟩
    have hcondition := hiff.mp hconserves
    revert hcondition
    decide +kernel
  · obtain ⟨contributions, hsplit, hiff⟩ := split_conserves_iff
      (show (Sample.knownShape.requestSlices.map ScheduledSlice.requestId).Nodup by decide)
      hbreakdown
    exact ⟨contributions, hsplit, hiff.mpr (.inr (.inr (by decide)))⟩

end InferTwin
