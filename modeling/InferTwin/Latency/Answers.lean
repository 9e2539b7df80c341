import InferTwin.Latency.Transparency

namespace InferTwin

open Effect

/-- The replay can split the result over the slices of its iteration. -/
def LatencyResult.Readable (latency : LatencyResult) : Prop :=
  ∃ breakdown, latencyBreakdownFromResult latency = .ok breakdown

/-- The detail is absent, or a duration. -/
def Details.Timed (details : Details) (key : String) : Prop :=
  details.get? key = none ∨ ∃ value, details.get? key = some (.num value) ∧ 0 ≤ value

theorem detail_float_returns {latency : LatencyResult} {key : String} {fallback : ℚ}
    (h : latency.details.Timed key) (hfallback : 0 ≤ fallback) :
    ∃ value, detailFloat latency key fallback = .ok value := by
  unfold detailFloat
  rcases h with h | ⟨value, h, hvalue⟩
  · rw [h, Option.getD_none]
    exact ⟨_, dif_neg (not_lt.mpr hfallback)⟩
  · rw [h, Option.getD_some]
    exact ⟨_, dif_neg (not_lt.mpr hvalue)⟩

theorem LatencyResult.readable_of_timed {latency : LatencyResult}
    (hprefill : latency.details.Timed "ttft_ms") (hload : latency.details.Timed "kv_load_ms")
    (hqueue : latency.details.Timed "queue_ms") : latency.Readable := by
  obtain ⟨prefillMs, hp⟩ := detail_float_returns hprefill latency.duration_nonneg
  obtain ⟨loadMs, hl⟩ := detail_float_returns hload le_rfl
  obtain ⟨queueMs, hq⟩ := detail_float_returns hqueue le_rfl
  unfold Readable latencyBreakdownFromResult
  rw [hp, hl, hq]
  exact ⟨_, rfl⟩

theorem PrefillBackend.readable {backend : BatchLatencyBackend} (h : PrefillBackend backend)
    {shape : BatchShape} {latency : LatencyResult}
    (he : backend.estimateIteration shape = .ok latency) : latency.Readable := by
  cases h with
  | formula backend =>
    cases he
    exact LatencyResult.readable_of_timed (.inl rfl) (.inl rfl) (.inl rfl)
  | fitted backend =>
    cases he
    exact LatencyResult.readable_of_timed (.inl rfl) (.inl rfl) (.inl rfl)

/-- The queue time of a profile is not hidden by the details it copies. -/
def QueueUnread (label : String) (details : Details) : Prop :=
  ∀ entry ∈ prefixedDetails label details, entry.1 ≠ "queue_ms"

theorem QueueComponent.queue_unread {component : IterationLatencyComponent}
    (h : QueueComponent component) {shape : BatchShape} {result : LatencyComponentResult}
    (he : component.estimateIteration shape = .ok result) : QueueUnread "queue" result.details := by
  cases h with
  | zero component =>
    cases he
    simp [QueueUnread, prefixedDetails]
  | static component =>
    cases he
    simp [QueueUnread, prefixedDetails]

theorem KvLoadComponent.queue_unread {component : IterationLatencyComponent}
    (h : KvLoadComponent component) {shape : BatchShape} {result : LatencyComponentResult}
    (he : component.estimateIteration shape = .ok result) :
    QueueUnread "kv_load" result.details := by
  cases h with
  | zero component =>
    cases he
    simp [QueueUnread, prefixedDetails]
  | zero_load component =>
    cases he
    simp [QueueUnread, prefixedDetails, KVLoadSettings.baseDetails]
  | token_linear component =>
    cases he
    simp [QueueUnread, prefixedDetails, KVLoadSettings.baseDetails]
  | byte_linear component =>
    unfold ByteLinearKVLoadLatencyComponent.toComponent at he
    dsimp only at he
    split_ifs at he
    cases he
    simp [QueueUnread, prefixedDetails, KVLoadSettings.baseDetails]

theorem estimate_ttft_queue_unread {profile : ServingLatencyProfile}
    (h : PrefillBackend profile.ttftBackend) {shape : BatchShape}
    {ttft : ServingLatencyProfile.TtftEstimate} (he : profile.estimateTtft shape = .ok ttft) :
    QueueUnread "ttft" ttft.details := by
  unfold ServingLatencyProfile.estimateTtft at he
  split_ifs at he
  · cases he
    simp [QueueUnread, prefixedDetails]
  · obtain ⟨latency, hl, he⟩ := except_bind_ok.mp he
    cases he
    generalize profile.ttftBackend = backend at h hl
    cases h with
    | formula backend =>
      cases hl
      simp [QueueUnread, prefixedDetails, FormulaLatencyBackend.estimateIteration]
    | fitted backend =>
      cases hl
      simp [QueueUnread, prefixedDetails, FittedTTFTLatencyBackend.estimateIteration]

/-- Every result of a shipped backend can be split. -/
theorem ServingBackend.readable {backend : BatchLatencyBackend} (h : ServingBackend backend)
    {shape : BatchShape} {latency : LatencyResult}
    (he : backend.estimateIteration shape = .ok latency) : latency.Readable := by
  cases h with
  | prefill h => exact h.readable he
  | profile profile httft hqueue hload =>
    obtain ⟨ttft, ht, he⟩ := except_bind_ok.mp he
    obtain ⟨queue, hq, he⟩ := except_bind_ok.mp he
    obtain ⟨kvLoad, hk, he⟩ := except_bind_ok.mp he
    cases he
    have hreadt := estimate_ttft_unread httft ht
    have hreadq := hqueue.unread hq
    have hreadk := hload.unread hk
    -- the last entry under each of the three keys is the one that the profile itself writes
    apply LatencyResult.readable_of_timed
    · refine .inr ⟨ttft.durationMs, ?_, ttft.duration_nonneg⟩
      rw [Details.get?_append fun entry hm ↦ (hreadk entry hm).1,
        Details.get?_append fun entry hm ↦ (hreadq entry hm).1,
        Details.get?_append fun entry hm ↦ (hreadt entry hm).1]
      simp [Details.get?, List.lookup_cons]
    · refine .inr ⟨kvLoad.durationMs, ?_, kvLoad.duration_nonneg⟩
      rw [Details.get?_append fun entry hm ↦ (hreadk entry hm).2,
        Details.get?_append fun entry hm ↦ (hreadq entry hm).2,
        Details.get?_append fun entry hm ↦ (hreadt entry hm).2]
      simp [Details.get?, List.lookup_cons]
    · refine .inr ⟨queue.durationMs, ?_, queue.duration_nonneg⟩
      rw [Details.get?_append (hload.queue_unread hk), Details.get?_append (hqueue.queue_unread hq),
        Details.get?_append (estimate_ttft_queue_unread httft ht)]
      simp [Details.get?, List.lookup_cons]

/-- Whoever loads tokens loads bytes. -/
def BatchShape.LoadsBytes (shape : BatchShape) : Prop := 0 < shape.kvLoadTokens → 0 < shape.kvLoadBytes

theorem KvLoadComponent.answers {component : IterationLatencyComponent}
    (h : KvLoadComponent component) {shape : BatchShape} (hbytes : shape.LoadsBytes) :
    ∃ result, component.estimateIteration shape = .ok result := by
  cases h with
  | zero component => exact ⟨_, rfl⟩
  | zero_load component => exact ⟨_, rfl⟩
  | token_linear component => exact ⟨_, rfl⟩
  | byte_linear component =>
    have hfew : ¬(loadActive shape ∧ shape.kvLoadTokens > 0 ∧ shape.kvLoadBytes = 0) := by
      rintro ⟨-, htokens, hnone⟩
      have hpos := hbytes htokens
      omega
    exact ⟨_, if_neg hfew⟩

/-- A shipped backend has an estimate for every batch, unless it is asked for the time of a
load by bytes and not told how many. -/
theorem ServingBackend.answers {backend : BatchLatencyBackend} (h : ServingBackend backend)
    {shape : BatchShape} (hbytes : shape.LoadsBytes) :
    ∃ latency, backend.estimateIteration shape = .ok latency := by
  have hprefill : ∀ {backend : BatchLatencyBackend}, PrefillBackend backend →
      ∃ latency, backend.estimateIteration shape = .ok latency := by
    intro backend h
    cases h with
    | formula backend => exact ⟨_, rfl⟩
    | fitted backend => exact ⟨_, rfl⟩
  cases h with
  | prefill h => exact hprefill h
  | profile profile httft hqueue hload =>
    obtain ⟨kvLoad, hk⟩ := hload.answers hbytes
    have hq : ∃ queue, profile.queueComponent.estimateIteration shape = .ok queue := by
      generalize profile.queueComponent = component at hqueue
      cases hqueue with
      | zero component => exact ⟨_, rfl⟩
      | static component => exact ⟨_, rfl⟩
    obtain ⟨queue, hq⟩ := hq
    have ht : ∃ ttft, profile.estimateTtft shape = .ok ttft := by
      unfold ServingLatencyProfile.estimateTtft
      split_ifs
      · exact ⟨_, rfl⟩
      · obtain ⟨latency, hl⟩ := hprefill httft
        rw [hl]
        exact ⟨_, rfl⟩
    obtain ⟨ttft, ht⟩ := ht
    show ∃ latency, profile.estimateIteration shape = .ok latency
    unfold ServingLatencyProfile.estimateIteration
    rw [ht, hq, hk]
    exact ⟨_, rfl⟩

/-- What a memo filled by a shipped backend returns. -/
theorem ShapeMemo.FilledBy.answers {backend : BatchLatencyBackend} {memo : ShapeMemo}
    (h : memo.FilledBy backend) (hbackend : ServingBackend backend) {shape : BatchShape}
    (hbytes : shape.LoadsBytes ∨ ∃ latency, backend.estimateIteration shape = .ok latency) :
    ∃ latency memo', ShapeMemo.getOrCompute (backend.shapeKey shape)
      (backend.estimateIteration shape) memo = .ok latency memo' ∧ latency.Readable := by
  obtain ⟨result, hresult⟩ := hbytes.elim hbackend.answers id
  have hanswer := h.getOrCompute hbackend.memoizable shape
  rw [hresult] at hanswer
  obtain ⟨latency, memo', hget, hsame, -⟩ := hanswer
  obtain ⟨breakdown, hbreakdown⟩ := hbackend.readable hresult
  refine ⟨latency, memo', hresult ▸ hget, breakdown, ?_⟩
  have hdetails : latency.details = result.details := (congrArg LatencyResult.details hsame :)
  have hduration : latency.durationMs = result.durationMs :=
    (congrArg LatencyResult.durationMs hsame :)
  rw [← hbreakdown]
  unfold latencyBreakdownFromResult detailFloat
  rw [hdetails, hduration]

end InferTwin
