import InferTwin.Foundation.Effect
import InferTwin.Latency.Backends
import InferTwin.Replay.Metrics
import Mathlib.Algebra.Order.BigOperators.Group.List
import Mathlib.Tactic.Linarith
import Mathlib.Tactic.Ring

namespace InferTwin

/-- The shares of parts that make up the whole make up the total. -/
theorem proportional_shares_sum (total : ℚ) (parts : List ℕ) :
    (parts.map fun part ↦ proportionalShare total part parts.sum).sum =
      if parts.sum = 0 then 0 else total := by
  have hshare : ∀ (whole : ℕ) (parts : List ℕ), 0 < whole →
      (parts.map fun part ↦ proportionalShare total part whole).sum =
        total * parts.sum / whole := by
    intro whole parts hw
    induction parts with
    | nil => simp
    | cons part parts ih =>
      have hone : proportionalShare total part whole = total * part / whole := by
        unfold proportionalShare
        by_cases hp : 0 < part
        · rw [if_pos ⟨hw, hp⟩]
        · have hz : part = 0 := by omega
          simp [hz]
      rw [List.map_cons, List.sum_cons, ih, hone, List.sum_cons, Nat.cast_add]
      ring
  split_ifs with h
  · have hzero : ∀ part ∈ parts, proportionalShare total part parts.sum = 0 := by
      intro part _
      simp [proportionalShare, h]
    rw [List.map_congr_left hzero]
    simp
  · have hne : (parts.sum : ℚ) ≠ 0 := Nat.cast_ne_zero.mpr h
    rw [hshare _ _ (Nat.pos_of_ne_zero h)]
    exact mul_div_cancel_right₀ total hne

theorem proportional_share_le {total : ℚ} (ht : 0 ≤ total) {part whole : ℕ} (h : part ≤ whole) :
    proportionalShare total part whole ≤ total := by
  unfold proportionalShare
  split_ifs with hp
  · have hw : (0 : ℚ) < whole := by exact_mod_cast hp.1
    have hle : (part : ℚ) ≤ whole := by exact_mod_cast h
    rw [div_le_iff₀ hw]
    exact mul_le_mul_of_nonneg_left hle ht
  · exact ht

section Shares

variable (breakdown : IterationLatencyBreakdown) {shape : BatchShape}

theorem prefill_share_le {slice : ScheduledSlice} (hs : slice ∈ shape.requestSlices) :
    (sliceContribution breakdown shape slice).prefillComputeMs ≤ breakdown.prefillComputeMs :=
  proportional_share_le breakdown.prefill_nonneg
    (List.single_le_sum (fun _ _ ↦ Nat.zero_le _) _ (List.mem_map_of_mem hs))

/-- Loads whose bytes are proportional to their tokens share out no more than the whole KV
load time. Without that some slices could be charged by bytes and others by tokens. -/
theorem kv_shares_le {bytesPerToken : ℕ} (hload : ∀ slice ∈ shape.requestSlices,
    slice.kvLoadBytes = slice.kvLoadTokens * bytesPerToken) :
    (shape.requestSlices.map fun slice ↦
      (sliceContribution breakdown shape slice).kvLoadMs).sum ≤ breakdown.kvLoadMs := by
  have hsum := proportional_shares_sum breakdown.kvLoadMs
  have hle : ∀ parts : List ℕ, (if parts.sum = 0 then 0 else breakdown.kvLoadMs) ≤
      breakdown.kvLoadMs := by
    intro parts
    split_ifs
    · exact breakdown.kv_load_nonneg
    · exact le_rfl
  by_cases hbytes : 0 < shape.kvLoadBytes
  · have hpos : 0 < bytesPerToken := by
      rcases Nat.eq_zero_or_pos bytesPerToken with hz | hp
      · have hnone : shape.kvLoadBytes = 0 := by
          unfold BatchShape.kvLoadBytes
          rw [List.sum_eq_zero_iff]
          intro bytes hb
          obtain ⟨slice, hs, rfl⟩ := List.mem_map.mp hb
          rw [hload slice hs, hz, Nat.mul_zero]
        omega
      · exact hp
    have hshare : ∀ slice ∈ shape.requestSlices,
        (sliceContribution breakdown shape slice).kvLoadMs =
          proportionalShare breakdown.kvLoadMs slice.kvLoadBytes shape.kvLoadBytes := by
      intro slice hs
      unfold sliceContribution
      dsimp only
      by_cases hb : 0 < slice.kvLoadBytes
      · rw [if_pos ⟨hbytes, hb⟩, proportionalShare, if_pos ⟨hbytes, hb⟩]
      · have htokens : slice.kvLoadTokens = 0 := by
          have he := hload slice hs
          rcases Nat.eq_zero_or_pos slice.kvLoadTokens with hz | hp
          · exact hz
          · have := Nat.mul_pos hp hpos
            omega
        rw [if_neg (fun h ↦ hb h.2), htokens, Nat.eq_zero_of_not_pos hb]
        simp [proportionalShare]
    rw [List.map_congr_left hshare]
    have hparts := hsum (shape.requestSlices.map ScheduledSlice.kvLoadBytes)
    rw [List.map_map] at hparts
    exact hparts.le.trans (hle _)
  · have hshare : ∀ slice ∈ shape.requestSlices,
        (sliceContribution breakdown shape slice).kvLoadMs =
          proportionalShare breakdown.kvLoadMs slice.kvLoadTokens shape.kvLoadTokens := by
      intro slice _
      unfold sliceContribution
      dsimp only
      rw [if_neg (fun h ↦ hbytes h.1)]
    rw [List.map_congr_left hshare]
    have hparts := hsum (shape.requestSlices.map ScheduledSlice.kvLoadTokens)
    rw [List.map_map] at hparts
    exact hparts.le.trans (hle _)

end Shares

/-- Prefill and KV load of an iteration take no longer than the iteration. -/
def LatencyResult.Attributed (latency : LatencyResult) : Prop :=
  ∀ breakdown, latencyBreakdownFromResult latency = .ok breakdown →
    breakdown.prefillComputeMs + breakdown.kvLoadMs ≤ latency.durationMs

/-- The whole iteration is prefill. -/
def LatencyResult.AllPrefill (latency : LatencyResult) : Prop :=
  ∀ breakdown, latencyBreakdownFromResult latency = .ok breakdown →
    breakdown.prefillComputeMs = latency.durationMs ∧ breakdown.kvLoadMs = 0

theorem LatencyResult.AllPrefill.attributed {latency : LatencyResult} (h : latency.AllPrefill) :
    latency.Attributed := by
  intro breakdown hb
  obtain ⟨hp, hk⟩ := h breakdown hb
  rw [hp, hk, add_zero]

theorem detail_float_ok {latency : LatencyResult} {key : String} {fallback : ℚ}
    {value : {value : ℚ // 0 ≤ value}} (h : detailFloat latency key fallback = .ok value) :
    (latency.details.get? key).getD (.num fallback) = .num value := by
  unfold detailFloat at h
  split at h
  · split_ifs at h
    cases h
    assumption
  all_goals cases h

theorem latency_breakdown_ok {latency : LatencyResult} {breakdown : IterationLatencyBreakdown}
    (h : latencyBreakdownFromResult latency = .ok breakdown) :
    (latency.details.get? "ttft_ms").getD (.num latency.durationMs) =
        .num breakdown.prefillComputeMs ∧
      (latency.details.get? "kv_load_ms").getD (.num 0) = .num breakdown.kvLoadMs := by
  unfold latencyBreakdownFromResult at h
  obtain ⟨prefillMs, hp, h⟩ := Effect.except_bind_ok.mp h
  obtain ⟨kvLoadMs, hk, h⟩ := Effect.except_bind_ok.mp h
  obtain ⟨queueMs, -, h⟩ := Effect.except_bind_ok.mp h
  cases h
  exact ⟨detail_float_ok hp, detail_float_ok hk⟩

theorem LatencyResult.all_prefill_of_details {latency : LatencyResult}
    (hp : latency.details.get? "ttft_ms" = none) (hk : latency.details.get? "kv_load_ms" = none) :
    latency.AllPrefill := by
  intro breakdown hb
  obtain ⟨hprefill, hkv⟩ := latency_breakdown_ok hb
  rw [hp, Option.getD_none, DetailValue.num.injEq] at hprefill
  rw [hk, Option.getD_none, DetailValue.num.injEq] at hkv
  exact ⟨hprefill.symm, hkv.symm⟩

theorem formula_all_prefill (backend : FormulaLatencyBackend) (shape : BatchShape) :
    (backend.estimateIteration shape).AllPrefill :=
  LatencyResult.all_prefill_of_details rfl rfl

theorem fitted_all_prefill (backend : FittedTTFTLatencyBackend) (shape : BatchShape) :
    (backend.estimateIteration shape).AllPrefill :=
  LatencyResult.all_prefill_of_details rfl rfl

/-- Later entries under other keys do not hide an entry. -/
theorem Details.get?_append {details more : Details} {key : String}
    (h : ∀ entry ∈ more, entry.1 ≠ key) : get? (details ++ more) key = get? details key := by
  have hnone : List.lookup key more.reverse = none := by
    rw [List.lookup_eq_none_iff]
    intro entry he
    rw [bne_iff_ne]
    exact (h entry (List.mem_reverse.mp he)).symm
  rw [get?, List.reverse_append, List.lookup_append, hnone, Option.none_or]
  rfl

/-- The backends that charge an iteration to prefill alone. -/
inductive PrefillBackend : BatchLatencyBackend → Prop
  | formula (backend : FormulaLatencyBackend) : PrefillBackend backend.toBackend
  | fitted (backend : FittedTTFTLatencyBackend) : PrefillBackend backend.toBackend

/-- The KV load components of a serving latency profile. -/
inductive KvLoadComponent : IterationLatencyComponent → Prop
  | zero (component : ZeroLatencyComponent) : KvLoadComponent component.toComponent
  | zero_load (component : ZeroKVLoadLatencyComponent) : KvLoadComponent component.toComponent
  | token_linear (component : TokenLinearKVLoadLatencyComponent) :
      KvLoadComponent component.toComponent
  | byte_linear (component : ByteLinearKVLoadLatencyComponent) :
      KvLoadComponent component.toComponent

/-- The queue components of a serving latency profile. -/
inductive QueueComponent : IterationLatencyComponent → Prop
  | zero (component : ZeroLatencyComponent) : QueueComponent component.toComponent
  | static (component : StaticLatencyComponent) : QueueComponent component.toComponent

inductive ServingBackend : BatchLatencyBackend → Prop
  | prefill {backend} (h : PrefillBackend backend) : ServingBackend backend
  | profile (profile : ServingLatencyProfile) (httft : PrefillBackend profile.ttftBackend)
      (hqueue : QueueComponent profile.queueComponent)
      (hload : KvLoadComponent profile.kvLoadComponent) : ServingBackend profile.toBackend

theorem PrefillBackend.all_prefill {backend : BatchLatencyBackend} (h : PrefillBackend backend)
    {shape : BatchShape} {latency : LatencyResult}
    (he : backend.estimateIteration shape = .ok latency) : latency.AllPrefill := by
  cases h with
  | formula backend =>
    cases he
    exact formula_all_prefill backend shape
  | fitted backend =>
    cases he
    exact fitted_all_prefill backend shape

/-- The keys a profile reads back are not among the details it copies. -/
def Unread (label : String) (details : Details) : Prop :=
  ∀ entry ∈ prefixedDetails label details, entry.1 ≠ "ttft_ms" ∧ entry.1 ≠ "kv_load_ms"

theorem QueueComponent.unread {component : IterationLatencyComponent} (h : QueueComponent component)
    {shape : BatchShape} {result : LatencyComponentResult}
    (he : component.estimateIteration shape = .ok result) : Unread "queue" result.details := by
  cases h with
  | zero component =>
    cases he
    simp [Unread, prefixedDetails]
  | static component =>
    cases he
    simp [Unread, prefixedDetails]

theorem KvLoadComponent.unread {component : IterationLatencyComponent}
    (h : KvLoadComponent component) {shape : BatchShape} {result : LatencyComponentResult}
    (he : component.estimateIteration shape = .ok result) : Unread "kv_load" result.details := by
  cases h with
  | zero component =>
    cases he
    simp [Unread, prefixedDetails]
  | zero_load component =>
    cases he
    simp [Unread, prefixedDetails, KVLoadSettings.baseDetails]
  | token_linear component =>
    cases he
    simp [Unread, prefixedDetails, KVLoadSettings.baseDetails]
  | byte_linear component =>
    unfold ByteLinearKVLoadLatencyComponent.toComponent at he
    dsimp only at he
    split_ifs at he
    cases he
    simp [Unread, prefixedDetails, KVLoadSettings.baseDetails]

theorem estimate_ttft_unread {profile : ServingLatencyProfile}
    (h : PrefillBackend profile.ttftBackend) {shape : BatchShape}
    {ttft : ServingLatencyProfile.TtftEstimate} (he : profile.estimateTtft shape = .ok ttft) :
    Unread "ttft" ttft.details := by
  unfold ServingLatencyProfile.estimateTtft at he
  split_ifs at he
  · cases he
    simp [Unread, prefixedDetails]
  · obtain ⟨latency, hl, he⟩ := Effect.except_bind_ok.mp he
    cases he
    generalize profile.ttftBackend = backend at h hl
    cases h with
    | formula backend =>
      cases hl
      simp [Unread, prefixedDetails, FormulaLatencyBackend.estimateIteration]
    | fitted backend =>
      cases hl
      simp [Unread, prefixedDetails, FittedTTFTLatencyBackend.estimateIteration]

theorem ServingBackend.attributed {backend : BatchLatencyBackend} (h : ServingBackend backend)
    {shape : BatchShape} {latency : LatencyResult}
    (he : backend.estimateIteration shape = .ok latency) : latency.Attributed := by
  cases h with
  | prefill h => exact (h.all_prefill he).attributed
  | profile profile httft hqueue hload =>
    obtain ⟨ttft, ht, he⟩ := Effect.except_bind_ok.mp he
    obtain ⟨queue, hq, he⟩ := Effect.except_bind_ok.mp he
    obtain ⟨kvLoad, hk, he⟩ := Effect.except_bind_ok.mp he
    cases he
    have hreadt := estimate_ttft_unread httft ht
    have hreadq := hqueue.unread hq
    have hreadk := hload.unread hk
    intro breakdown hb
    obtain ⟨hprefill, hkv⟩ := latency_breakdown_ok hb
    rw [Details.get?_append fun entry hm ↦ (hreadk entry hm).1,
      Details.get?_append fun entry hm ↦ (hreadq entry hm).1,
      Details.get?_append fun entry hm ↦ (hreadt entry hm).1] at hprefill
    rw [Details.get?_append fun entry hm ↦ (hreadk entry hm).2,
      Details.get?_append fun entry hm ↦ (hreadq entry hm).2,
      Details.get?_append fun entry hm ↦ (hreadt entry hm).2] at hkv
    have hprefill' : ttft.durationMs = breakdown.prefillComputeMs := by
      simpa [Details.get?, List.lookup_cons] using hprefill
    have hkv' : kvLoad.durationMs = breakdown.kvLoadMs := by
      simpa [Details.get?, List.lookup_cons] using hkv
    have hnonneg := queue.duration_nonneg
    dsimp only
    linarith

end InferTwin
