import InferTwin.Latency.Attribution
import InferTwin.Latency.Memo
import InferTwin.Properties.Accounts
import InferTwin.Server.Timeline

namespace InferTwin

open Effect

variable {C K : Type} {engine : Engine C K} {requests : List SimulationRequest}

/-- What a request was charged in an iteration fits in the iteration. -/
def Service.Fits (service : Service) : Prop :=
  service.record.kvElapsedMs + service.record.prefillMs ≤ service.durationMs

/-- No request was charged for more than the iteration, and no transfer outlasts it. -/
structure IterationRecord.Balanced (record : IterationRecord) : Prop where
  fits : ∀ slice ∈ record.slices, slice.kvElapsedMs + slice.prefillMs ≤ record.durationMs
  link_le : record.linkFreeMs ≤ record.finishTimeMs

theorem services_fit {trace : List TraceEvent}
    (h : ∀ record ∈ iterationsOf trace, record.Balanced) (requestId : String) :
    ∀ service ∈ servicesOf requestId trace, service.Fits := by
  intro service hs
  obtain ⟨record, hr, hs⟩ := List.mem_flatMap.mp hs
  obtain ⟨served, hserved, rfl⟩ := List.mem_map.mp hs
  have hmem := (List.of_mem_zip (a := served.1) (b := served.2) (List.mem_filter.mp hserved).1).2
  exact (h record hr).fits served.2 hmem

/-- An iteration of this length has room for its KV load and its prefill, and the clock
does not cut the KV load off. -/
def LatencyResult.Fits (clock : Clock) (latency : LatencyResult) : Prop :=
  ∀ breakdown, latencyBreakdownFromResult latency = .ok breakdown →
    breakdown.kvLoadMs + breakdown.prefillComputeMs ≤ latency.durationMs ∧
      ∀ nowMs, nowMs + breakdown.kvLoadMs ≤ clock.add nowMs latency.durationMs

theorem LatencyResult.Attributed.fits {latency : LatencyResult} (h : latency.Attributed) :
    latency.Fits .exact := by
  intro breakdown hb
  have hsum := h breakdown hb
  have hprefill := breakdown.prefill_nonneg
  refine ⟨by linarith, fun nowMs ↦ ?_⟩
  show nowMs + breakdown.kvLoadMs ≤ nowMs + latency.durationMs
  linarith

theorem LatencyResult.AllPrefill.fits {latency : LatencyResult} (h : latency.AllPrefill)
    (clock : Clock) : latency.Fits clock := by
  intro breakdown hb
  obtain ⟨hp, hk⟩ := h breakdown hb
  refine ⟨by rw [hp, hk, zero_add], fun nowMs ↦ ?_⟩
  rw [hk, add_zero]
  exact clock.le_add _ _ latency.duration_nonneg

section Batch

variable {facts : IterationFacts}

/-- For how long a slice keeps the KV link busy. -/
def IterationFacts.loadMs (facts : IterationFacts) (slice : ScheduledSlice) : ℚ :=
  (sliceContribution facts.breakdown facts.shape slice).kvLoadMs

/-- After `spentMs` on the link, the slices left need no more than what is left of the KV
load time. -/
structure IterationFacts.Room (facts : IterationFacts) (spentMs : ℚ) (slices : List ScheduledSlice) :
    Prop where
  spent_nonneg : 0 ≤ spentMs
  shared : ∀ slice ∈ slices, slice ∈ facts.shape.requestSlices
  load_le : spentMs + (slices.map facts.loadMs).sum ≤ facts.breakdown.kvLoadMs

theorem IterationFacts.load_nonneg (facts : IterationFacts) (slices : List ScheduledSlice) :
    0 ≤ (slices.map facts.loadMs).sum := by
  refine List.sum_nonneg fun loadMs hl ↦ ?_
  obtain ⟨slice, -, rfl⟩ := List.mem_map.mp hl
  exact (sliceContribution facts.breakdown facts.shape slice).kv_load_nonneg

theorem IterationFacts.Room.next {spentMs : ℚ} {slice : ScheduledSlice}
    {slices : List ScheduledSlice} (h : facts.Room spentMs (slice :: slices)) :
    facts.Room (spentMs + facts.loadMs slice) slices where
  spent_nonneg := add_nonneg h.spent_nonneg
    (sliceContribution facts.breakdown facts.shape slice).kv_load_nonneg
  shared := List.forall_mem_of_forall_mem_cons h.shared
  load_le := by
    have hle := h.load_le
    rw [List.map_cons, List.sum_cons] at hle
    linarith

/-- One slice on the link: it is busy for as long as the slice loads, and the slice has
waited for it no longer than it was busy in this iteration. -/
theorem Advanced.linked {timelineMode : TimelineMode} {spentMs : ℚ} {slice : ScheduledSlice}
    {slices : List ScheduledSlice} {state : RequestState} {queue : SharedLinkFIFOTransferQueue}
    {progress : SliceProgress} (hroom : facts.Room spentMs (slice :: slices))
    (hqueue : queue.nextAvailableTimeMs ≤ facts.shape.startTimeMs + spentMs)
    (h : Advanced timelineMode facts.shape.startTimeMs facts.finishMs slice
      (sliceContribution facts.breakdown facts.shape slice) state queue progress) :
    progress.queue.nextAvailableTimeMs ≤
        facts.shape.startTimeMs + (spentMs + facts.loadMs slice) ∧
      progress.record.kvElapsedMs ≤ facts.breakdown.kvLoadMs ∧
      progress.record.prefillMs ≤ facts.breakdown.prefillComputeMs := by
  have hspent := hroom.spent_nonneg
  have hnext := hroom.next
  have hrest := facts.load_nonneg slices
  have hload := hnext.load_le
  have hshare := (sliceContribution facts.breakdown facts.shape slice).kv_load_nonneg
  have hfree : progress.queue.nextAvailableTimeMs ≤
      facts.shape.startTimeMs + (spentMs + facts.loadMs slice) ∧
      progress.record.kvElapsedMs ≤ spentMs + facts.loadMs slice := by
    have hloads := h.loads
    generalize progress.record.kvElapsedMs = elapsedMs at hloads ⊢
    generalize progress.queue = queue' at hloads ⊢
    unfold IterationFacts.loadMs
    cases hloads with
    | none => exact ⟨by linarith, by linarith⟩
    | link _ _ _ hnext =>
      have hmax : max facts.shape.startTimeMs queue.nextAvailableTimeMs ≤
          facts.shape.startTimeMs + spentMs := max_le (by linarith) hqueue
      constructor <;> rw [hnext] <;> linarith
  refine ⟨hfree.1, by linarith [hfree.2], ?_⟩
  rw [h.prefill_eq]
  exact prefill_share_le facts.breakdown (hroom.shared slice (List.mem_cons_self ..))

theorem Applies.linked {nowMs lostMs spentMs : ℚ} {batch : List (Job × Option ScheduledSlice)}
    {queue : SharedLinkFIFOTransferQueue} {totals : IterationTotals} {world world' : World C K}
    {applied : Applied} (h : Applies engine facts batch queue totals world applied world')
    (hb : ∀ item ∈ batch, Batched engine.timelineMode nowMs lostMs item)
    (hroom : facts.Room spentMs (batch.filterMap Prod.snd))
    (hqueue : queue.nextAvailableTimeMs ≤ facts.shape.startTimeMs + spentMs) :
    applied.transferQueue.nextAvailableTimeMs ≤
        facts.shape.startTimeMs + facts.breakdown.kvLoadMs ∧
      ∀ record ∈ applied.records, record.kvElapsedMs ≤ facts.breakdown.kvLoadMs ∧
        record.prefillMs ≤ facts.breakdown.prefillComputeMs := by
  induction h generalizing spentMs with
  | nil =>
    have hle := hroom.load_le
    rw [List.filterMap_nil, List.map_nil, List.sum_nil] at hle
    exact ⟨by linarith, by simp⟩
  | idle _ ih => exact ih (List.forall_mem_of_forall_mem_cons hb) hroom hqueue
  | advance hslice _ ih =>
    have hserved := (hb _ (List.mem_cons_self ..)).served hslice
    obtain ⟨hfree, hfits⟩ := hserved.toAdvanced.linked hroom hqueue
    obtain ⟨hlast, hrest⟩ := ih (List.forall_mem_of_forall_mem_cons hb) hroom.next hfree
    exact ⟨hlast, List.forall_mem_cons.mpr ⟨hfits, hrest⟩⟩
  | complete hslice _ ih =>
    have hserved := (hb _ (List.mem_cons_self ..)).served hslice
    obtain ⟨hfree, hfits⟩ := hserved.toAdvanced.linked hroom hqueue
    obtain ⟨hlast, hrest⟩ := ih (List.forall_mem_of_forall_mem_cons hb) hroom.next hfree
    exact ⟨hlast, List.forall_mem_cons.mpr ⟨hfits, hrest⟩⟩

/-- A batch fails at its transfers, at its materializations, or at the metric of a request
that was not charged for more than there was. -/
theorem ApplyFails.linked {lostMs spentMs : ℚ} {batch : List (Job × Option ScheduledSlice)}
    {queue : SharedLinkFIFOTransferQueue} {e : ReplayError}
    (h : ApplyFails engine facts lostMs batch queue e)
    (hroom : facts.Room spentMs (batch.filterMap Prod.snd))
    (hqueue : queue.nextAvailableTimeMs ≤ facts.shape.startTimeMs + spentMs) :
    e.origin = .transfer ∨ e.origin = .materialization ∨
      ∃ job slice progress, (job, some slice) ∈ batch ∧
        progress.record.kvElapsedMs ≤ facts.breakdown.kvLoadMs ∧
        progress.record.prefillMs ≤ facts.breakdown.prefillComputeMs ∧
        (job.served slice facts.durationMs progress).Unclosed engine.timelineMode facts.finishMs
          lostMs e := by
  induction h generalizing spentMs with
  | here h =>
    cases h with
    | transfer h => exact .inl h.origin
    | materialization => exact .inr (.inl rfl)
    | metric hadvanced hunclosed =>
      obtain ⟨-, hkv, hprefill⟩ := hadvanced.linked hroom hqueue
      exact .inr (.inr ⟨_, _, _, List.mem_cons_self .., hkv, hprefill, hunclosed⟩)
  | idle _ ih =>
    rcases ih hroom hqueue with h | h | ⟨job, slice, progress, hmem, h⟩
    · exact .inl h
    · exact .inr (.inl h)
    · exact .inr (.inr ⟨job, slice, progress, List.mem_cons_of_mem _ hmem, h⟩)
  | later hadvanced _ ih =>
    obtain ⟨hfree, -⟩ := hadvanced.linked hroom hqueue
    rcases ih hroom.next hfree with h | h | ⟨job, slice, progress, hmem, h⟩
    · exact .inl h
    · exact .inr (.inl h)
    · exact .inr (.inr ⟨job, slice, progress, List.mem_cons_of_mem _ hmem, h⟩)

end Batch

/-- Every result of the latency backend satisfies `P`, and a result does not cease to when
it is remembered. -/
structure Engine.Estimates (engine : Engine C K) (P : LatencyResult → Prop) : Prop where
  flag : ∀ latency memoized, P latency → P { latency with memoized }
  backend : ∀ shape latency, engine.latencyBackend.estimateIteration shape = .ok latency → P latency

theorem Engine.Estimates.latency {P : LatencyResult → Prop} (h : engine.Estimates P)
    {shape : BatchShape} {latency : LatencyResult} {world world' : World C K}
    (hmemo : world.memo.Holds P)
    (hl : engine.estimateLatency shape world = .ok latency world') :
    P latency ∧ world'.memo.Holds P := by
  obtain ⟨memo, hget, rfl⟩ := estimate_latency_ok hl
  exact get_or_compute_holds h.flag (h.backend shape) hmemo hget

/-- However the coming batch is built, its slices share out no more KV load time than the
iteration has. -/
def Frontier.Shares (P : LatencyResult → Prop) (nowMs : ℚ) (frontier : Frontier) : Prop :=
  ∀ granted admitted (shape : BatchShape) latency breakdown,
    sliceAll frontier.granted = .ok granted →
    sliceAll (frontier.entering nowMs) = .ok admitted →
    shape.requestSlices = (granted ++ admitted).map Prod.snd →
    P latency → latencyBreakdownFromResult latency = .ok breakdown →
      (shape.requestSlices.map fun slice ↦
        (sliceContribution breakdown shape slice).kvLoadMs).sum ≤ breakdown.kvLoadMs

/-- The loads of a batch have bytes proportional to their tokens, if the lookups have. -/
theorem Frontier.Prepared.load_bytes {session : Session} {frontier : Frontier} {bytesPerToken : ℕ}
    (h : frontier.Prepared engine session)
    (hadmitted : ∀ admitted ∈ frontier.admitted,
      admitted.1.lookup.ddrHitBytes = admitted.1.lookup.ddrHitTokens * bytesPerToken)
    {granted admitted : List (Job × ScheduledSlice)} (hg : sliceAll frontier.granted = .ok granted)
    (hadm : sliceAll (frontier.entering session.nowMs) = .ok admitted) :
    ∀ slice ∈ (granted ++ admitted).map Prod.snd,
      slice.kvLoadBytes = slice.kvLoadTokens * bytesPerToken := by
  intro slice hs
  rw [List.map_append] at hs
  rcases List.mem_append.mp hs with hs | hs
  · obtain ⟨built, hb, rfl⟩ := List.mem_map.mp hs
    obtain ⟨planned, hp, hsliced⟩ := sliced_mem (h.sliced_granted hg) hb
    have hload := hsliced.describes.load_eq
    rw [(h.granted planned hp).1.no_load] at hload
    obtain ⟨htokens, hbytes⟩ := Prod.mk.inj hload
    rw [htokens, hbytes, Nat.zero_mul]
  · obtain ⟨built, hb, rfl⟩ := List.mem_map.mp hs
    obtain ⟨planned, hp, hsliced⟩ := sliced_mem (h.sliced_admitted hadm) hb
    obtain ⟨item, hi, rfl⟩ := List.mem_map.mp hp
    have hready := (h.admitted item hi).1
    have hpending : item.1.state.pendingLoad =
        (item.1.lookup.ddrHitTokens, item.1.lookup.ddrHitBytes) := by
      have hloads := hready.ledger.loads
      rw [Job.slices, hready.unserved] at hloads
      exact hloads
    have hload := hsliced.describes.load_eq
    obtain ⟨htokens, hbytes⟩ := Prod.mk.inj (hload.trans hpending)
    rw [htokens, hbytes]
    exact hadmitted item hi

theorem Frontier.Prepared.shares {session : Session} {frontier : Frontier} {bytesPerToken : ℕ}
    (h : frontier.Prepared engine session) (P : LatencyResult → Prop)
    (hadmitted : ∀ admitted ∈ frontier.admitted,
      admitted.1.lookup.ddrHitBytes = admitted.1.lookup.ddrHitTokens * bytesPerToken) :
    frontier.Shares P session.nowMs := by
  intro granted admitted shape latency breakdown hg hadm hslices _ _
  exact kv_shares_le breakdown (hslices ▸ h.load_bytes hadmitted hg hadm)

/-- The link is free when the session goes on, and so it was whenever an iteration ended. -/
structure Session.Balanced (P : LatencyResult → Prop) (session : Session) (world : World C K) :
    Prop where
  link_le : session.transferQueue.nextAvailableTimeMs ≤ max 0 session.nowMs
  records : ∀ record ∈ iterationsOf world.trace, record.Balanced
  memo : world.memo.Holds P

section Balanced

variable {P : LatencyResult → Prop} {session : Session} {frontier : Frontier}

/-- All there is to say about an iteration before it is applied. -/
theorem Session.Balanced.room {instanceUuid : String} {world : World C K} {shape : BatchShape}
    {granted admitted : List (Job × ScheduledSlice)} {latency : LatencyResult}
    {breakdown : IterationLatencyBreakdown} (hb : session.Balanced P world)
    (hshares : frontier.Shares P session.nowMs) (hg : sliceAll frontier.granted = .ok granted)
    (hadm : sliceAll (frontier.entering session.nowMs) = .ok admitted)
    (hshape : batchShape instanceUuid session ((granted ++ admitted).map Prod.snd) = .ok shape)
    (hlatency : P latency) (hbreakdown : latencyBreakdownFromResult latency = .ok breakdown)
    (finishMs : ℚ) :
    ({ shape, breakdown, durationMs := latency.durationMs, finishMs } : IterationFacts).Room 0
        ((batchOf granted frontier.idle admitted).filterMap Prod.snd) ∧
      session.transferQueue.nextAvailableTimeMs ≤ shape.startTimeMs + 0 := by
  obtain ⟨hnow, hslices, hstart, -, -⟩ := batch_shape_ok hshape
  rw [batch_slices, ← hslices]
  refine ⟨⟨le_rfl, fun _ hs ↦ hs, ?_⟩, ?_⟩
  · rw [zero_add]
    exact hshares granted admitted shape latency breakdown hg hadm hslices hlatency hbreakdown
  · have hlink := hb.link_le
    rw [max_eq_right hnow] at hlink
    rw [hstart, add_zero]
    exact hlink

theorem Iterates.balanced {instanceUuid : String} {session' : Session} {world world' : World C K}
    (hest : engine.Estimates P) (hfits : ∀ latency, P latency → latency.Fits engine.clock)
    (h : frontier.Prepared engine session) (hshares : frontier.Shares P session.nowMs)
    (hb : session.Balanced P world)
    (hi : Iterates engine instanceUuid session frontier world session' world') :
    session'.Balanced P world' := by
  obtain ⟨hg, hadm, hshape, -, hlatency, hbreakdown, happlies, -⟩ := hi
  rename_i granted admitted shape latency world₁ breakdown applied world₂ metric
  obtain ⟨hP, hmemo⟩ := hest.latency hb.memo hlatency
  obtain ⟨hroom, hqueue⟩ := hb.room hshares hg hadm hshape hP hbreakdown
    (engine.clock.add session.nowMs latency.durationMs)
  have hbatched := h.batched hg hadm
  obtain ⟨hfree, hrecords⟩ := happlies.linked hbatched hroom hqueue
  have hworld := (happlies.outcomes hbatched).world_eq
  obtain ⟨memo, -, hworld₁⟩ := estimate_latency_ok hlatency
  obtain ⟨hsum, hclock⟩ := hfits latency hP breakdown hbreakdown
  have hstart := (batch_shape_ok hshape).2.2.1
  have hend : applied.transferQueue.nextAvailableTimeMs ≤
      engine.clock.add session.nowMs latency.durationMs := by
    have hnow := hclock session.nowMs
    dsimp only at hfree
    rw [hstart] at hfree
    exact hfree.trans hnow
  refine ⟨hend.trans (le_max_right _ _), ?_, ?_⟩
  · intro record hr
    have htrace : iterationsOf world₂.trace = iterationsOf world.trace := by rw [hworld, hworld₁]
    have hr' : record ∈ iterationsOf (world₂.trace ++ [_]) := hr
    rw [iterations_of_append, htrace, iterations_of_iteration] at hr'
    rcases List.mem_append.mp hr' with hr' | hr'
    · exact hb.records record hr'
    · rw [List.mem_singleton.mp hr']
      refine ⟨fun slice hs ↦ ?_, hend⟩
      obtain ⟨hkv, hprefill⟩ := hrecords slice hs
      exact (add_le_add hkv hprefill).trans hsum
  · show world₂.memo.Holds P
    rw [hworld]
    exact hmemo

theorem Moves.link_le {session' : Session} {world world' : World C K}
    (h : Moves engine session world session' world')
    (hl : session.transferQueue.nextAvailableTimeMs ≤ max 0 session.nowMs)
    (hr : ∀ record ∈ iterationsOf world'.trace, record.Balanced) :
    session'.transferQueue.nextAvailableTimeMs ≤ max 0 session'.nowMs := by
  cases h with
  | quiet _ _ _ hqueue _ hnow =>
    rw [hqueue]
    exact hl.trans (max_le_max_left 0 hnow)
  | @iteration record hrecorded =>
    rw [← hrecorded.link_eq, hrecorded.now_eq]
    refine (hr record ?_).link_le.trans (le_max_right _ _)
    rw [hrecorded.iterations_eq]
    simp

theorem Session.Balanced.receive {received : Session} {world world' : World C K}
    (hb : session.Balanced P world) (hreceive : Receives engine session received)
    (hlooks : LooksOnly world world') : received.Balanced P world' where
  link_le := by
    rw [hreceive.keeps.2.1, hreceive.now_eq]
    exact hb.link_le
  records := hlooks.iterations_eq ▸ hb.records
  memo := hlooks.memo_eq ▸ hb.memo

theorem Passes.balanced {instanceUuid : String} {flow : Flow Session} {world world' : World C K}
    (hest : engine.Estimates P) (hfits : ∀ latency, P latency → latency.Fits engine.clock)
    (hshares : ∀ received frontier world', Receives engine session received →
      Prepares engine received world frontier world' → frontier.Shares P received.nowMs)
    (h : Passes engine instanceUuid session world flow world')
    (hw : session.Wf engine.config engine.timelineMode requests)
    (hb : session.Balanced P world) : flow.state.Balanced P world' := by
  have hreceived : ∀ {received : Session} {world₁ : World C K}, Receives engine session received →
      LooksOnly world world₁ → received.Balanced P world₁ :=
    fun hreceive hlooks ↦ hb.receive hreceive hlooks
  have hmoves := h.moves hw
  cases h with
  | jump hreceive =>
    have hr := hreceived hreceive (.refl world)
    exact ⟨hmoves.link_le hb.link_le hr.records, hr.records, hr.memo⟩
  | idle hreceive => exact hreceived hreceive (.refl world)
  | skip hreceive _ hprepares =>
    have hr := hreceived hreceive (hprepares.looks_only.drained engine)
    exact ⟨hmoves.link_le hb.link_le hr.records, hr.records, hr.memo⟩
  | finish hreceive _ hprepares =>
    have hr := hreceived hreceive (hprepares.looks_only.drained engine)
    exact ⟨hmoves.link_le hb.link_le hr.records, hr.records, hr.memo⟩
  | batch hreceive _ hprepares _ hiterates =>
    exact hiterates.balanced hest hfits (hprepares.prepared (hreceive.wf hw))
      (hshares _ _ _ hreceive hprepares) (hreceived hreceive (hprepares.looks_only.drained engine))

end Balanced

end InferTwin
