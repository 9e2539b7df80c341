import InferTwin.Properties.CacheLog
import InferTwin.Cache.EventSink

namespace InferTwin

open Effect

/-! What the statistics of a log tell of the residents. -/

/-- The residents at some moment of a log. -/
def Residency.At (log : List CacheEvent) (residency : Residency) : Prop :=
  ∃ events, events <+: log ∧ residency = Residency.fold {} events

/-- Only the events of the DDR tier know its usage. -/
def OwnUsage (event : CacheEvent) : Prop := event.cacheTier = .hbm → event.ddrUsedBlocks = 0

def recordAll (log : List CacheEvent) : CacheEventStats := log.foldl CacheEventStats.record {}

section Recorded

variable {log : List CacheEvent} {event : CacheEvent}

theorem Residency.at_nil {residency : Residency} : Residency.At [] residency ↔ residency = {} := by
  constructor
  · rintro ⟨events, hp, rfl⟩
    rw [List.prefix_nil.mp hp]
    rfl
  · rintro rfl
    exact ⟨[], List.nil_prefix, rfl⟩

theorem Residency.at_concat {residency : Residency} :
    Residency.At (log ++ [event]) residency ↔
      Residency.At log residency ∨ residency = (Residency.fold {} log).apply event := by
  constructor
  · rintro ⟨events, hp, rfl⟩
    rcases List.prefix_concat_iff.mp hp with rfl | hp
    · rw [Residency.fold_append]
      exact .inr rfl
    · exact .inl ⟨events, hp, rfl⟩
  · rintro (⟨events, hp, rfl⟩ | rfl)
    · exact ⟨events, hp.trans (List.prefix_append _ _), rfl⟩
    · refine ⟨log ++ [event], List.prefix_rfl, ?_⟩
      rw [Residency.fold_append]
      rfl

theorem record_all_concat (log : List CacheEvent) (event : CacheEvent) :
    recordAll (log ++ [event]) = (recordAll log).record event := by
  rw [recordAll, recordAll, List.foldl_append]
  rfl

@[simp] theorem CacheEventStats.record_peak_hbm (stats : CacheEventStats) (event : CacheEvent) :
    (stats.record event).peakHbmUsedBlocks = max stats.peakHbmUsedBlocks event.hbmUsedBlocks := rfl

@[simp] theorem CacheEventStats.record_peak_ddr (stats : CacheEventStats) (event : CacheEvent) :
    (stats.record event).peakDdrUsedBlocks = max stats.peakDdrUsedBlocks event.ddrUsedBlocks := rfl

@[simp] theorem CacheEventStats.record_final_hbm (stats : CacheEventStats) (event : CacheEvent) :
    (stats.record event).finalHbmUsedBlocks = event.hbmUsedBlocks := rfl

@[simp] theorem CacheEventStats.record_final_ddr (stats : CacheEventStats) (event : CacheEvent) :
    (stats.record event).finalDdrUsedBlocks = event.ddrUsedBlocks := rfl

/-- An event of the HBM tier leaves the DDR tier alone. -/
theorem Residency.apply_hbm (residency : Residency) (h : event.cacheTier = .hbm) :
    (residency.apply event).ddr = residency.ddr := by
  unfold Residency.apply
  rw [h]
  cases event.eventType <;> rfl

theorem Residency.apply_ddr (residency : Residency) (h : event.cacheTier = .ddr) :
    (residency.apply event).hbm = residency.hbm := by
  unfold Residency.apply
  rw [h]
  cases event.eventType <;> rfl

/-- One more moment raises a peak to the usage that is reported of it. -/
theorem peak_concat {f : Residency → ℕ} {peak used : ℕ}
    (h : IsGreatest {n | ∃ residency, Residency.At log residency ∧ n = f residency} peak)
    (hused : used ≤ f ((Residency.fold {} log).apply event))
    (hpeak : f ((Residency.fold {} log).apply event) ≤ max peak used) :
    IsGreatest {n | ∃ residency, Residency.At (log ++ [event]) residency ∧ n = f residency}
      (max peak used) := by
  constructor
  · rcases le_total used peak with hle | hle
    · rw [max_eq_left hle]
      obtain ⟨residency, hat, hn⟩ := h.1
      exact ⟨residency, Residency.at_concat.mpr (.inl hat), hn⟩
    · rw [max_eq_right hle] at hpeak ⊢
      exact ⟨_, Residency.at_concat.mpr (.inr rfl), hused.antisymm hpeak⟩
  · rintro n ⟨residency, hat, rfl⟩
    rcases Residency.at_concat.mp hat with hat | rfl
    · exact (h.2 ⟨residency, hat, rfl⟩).trans (le_max_left _ _)
    · exact hpeak

/-- The statistics of a faithful log: the peaks are right, and so are the final values of the tier
that spoke last and of the HBM tier. -/
theorem record_all_faithful (log : List CacheEvent) (h : Residency.Faithful {} log)
    (hown : ∀ event ∈ log, OwnUsage event) :
    (recordAll log).finalHbmUsedBlocks = (Residency.fold {} log).hbm.card ∧
    (∀ event ∈ log.getLast?, (recordAll log).finalDdrUsedBlocks =
      if event.cacheTier = .ddr then (Residency.fold {} log).ddr.card else 0) ∧
    IsGreatest {n | ∃ residency, Residency.At log residency ∧ n = residency.hbm.card}
      (recordAll log).peakHbmUsedBlocks ∧
    IsGreatest {n | ∃ residency, Residency.At log residency ∧ n = residency.ddr.card}
      (recordAll log).peakDdrUsedBlocks := by
  induction log using List.reverseRecOn with
  | nil =>
    refine ⟨rfl, by simp, ⟨⟨_, Residency.at_nil.mpr rfl, rfl⟩, ?_⟩,
      ⟨⟨_, Residency.at_nil.mpr rfl, rfl⟩, ?_⟩⟩
    all_goals
      rintro n ⟨residency, hat, rfl⟩
      rw [Residency.at_nil.mp hat]
      exact le_rfl
  | append_singleton log event ih =>
    obtain ⟨hlog, hevent, -⟩ := EventLog.faithful_append.mp h
    obtain ⟨-, -, hpeakHbm, hpeakDdr⟩ := ih hlog fun event hmem ↦
      hown event (List.mem_append_left _ hmem)
    have hevent : (Residency.fold {} log).Reports event := hevent
    have hself : OwnUsage event := hown event (List.mem_append_right _ List.mem_cons_self)
    have hfold : Residency.fold {} (log ++ [event]) = (Residency.fold {} log).apply event := by
      rw [Residency.fold_append]
      rfl
    rw [record_all_concat, hfold]
    refine ⟨hevent.hbm_used, fun last hlast ↦ ?_, ?_, ?_⟩
    · rw [List.getLast?_concat] at hlast
      cases hlast
      rw [CacheEventStats.record_final_ddr]
      split_ifs with htier
      · exact hevent.ddr_used htier
      · cases hcase : event.cacheTier with
        | hbm => exact hself hcase
        | ddr => exact absurd hcase htier
    · rw [CacheEventStats.record_peak_hbm]
      refine peak_concat (f := fun residency ↦ residency.hbm.card) hpeakHbm hevent.hbm_used.le ?_
      exact hevent.hbm_used.ge.trans (le_max_right _ _)
    · rw [CacheEventStats.record_peak_ddr]
      cases htier : event.cacheTier with
      | hbm =>
        rw [hself htier]
        refine peak_concat (f := fun residency ↦ residency.ddr.card) hpeakDdr (Nat.zero_le _) ?_
        rw [Residency.apply_hbm _ htier]
        exact (hpeakDdr.2 ⟨_, ⟨log, List.prefix_rfl, rfl⟩, rfl⟩).trans (le_max_left _ _)
      | ddr =>
        refine peak_concat (f := fun residency ↦ residency.ddr.card) hpeakDdr
          (hevent.ddr_used htier).le ?_
        exact (hevent.ddr_used htier).ge.trans (le_max_right _ _)

end Recorded

/-! Which tier speaks last. -/

section Speaking

/-- A call makes the HBM tier emit an event: a lookup of any block, or a write of a block that is
not in HBM. -/
def CacheCall.hbmSpeaks (op : CacheCall) (state : TieredState) : Bool :=
  match op with
  | .lookupPrefix blocks _ => !blocks.isEmpty
  | .write blocks _ _ => blocks.any fun block ↦ block.blockKey ∉ state.hbm.blocks
  | .takeEvents => false

/-- A call makes the DDR tier emit an event: a lookup of a block that is not in HBM, or a write of
a block that is not in DDR. -/
def CacheCall.ddrSpeaks (op : CacheCall) (state : TieredState) : Bool :=
  match op with
  | .lookupPrefix blocks _ => blocks.any fun block ↦ block.blockKey ∉ state.hbm.blocks
  | .write blocks _ _ => blocks.any fun block ↦ block.blockKey ∉ state.ddr.blocks
  | .takeEvents => false

/-- Whether the last call that makes a tier emit an event makes the DDR tier emit one, which then
comes last. -/
def ddrSpeaksLast (capacity : TieredCapacity) : List CacheCall → TieredState → Bool → Bool
  | [], _, last => last
  | op :: ops, state, last =>
    ddrSpeaksLast capacity ops (after (TieredPrefixCache.serve capacity op state))
      (if op.ddrSpeaks state then true else if op.hbmSpeaks state then false else last)

variable {capacity : TieredCapacity} {state : TieredState}

theorem any_not_mem {tier : LruTier} {tierState : TierState} {order : List String}
    (h : tier.Holds tierState order) (blocks : List PrefixBlock) :
    (blocks.any fun block ↦ block.blockKey ∉ tierState.blocks) = false ↔
      ∀ block ∈ blocks, block.blockKey ∈ order := by
  simp [List.any_eq_false, h.mem_blocks]

/-- Which tiers a call makes speak, and that a full HBM tier has a DDR tier behind it that is not
empty. -/
theorem TieredPrefixCache.serve_speaks {op : CacheCall} (hop : op.isDrain = false)
    {hbm ddr : List String} (h : capacity.Quiet state (hbm, ddr)) (hboth : hbm ≠ [] → ddr ≠ []) :
    ∃ answer state' hbmLog ddrLog hbm' ddr',
      state.Logs (TieredPrefixCache.serve capacity op) answer state' hbmLog ddrLog ∧
      (hbmLog = [] ↔ op.hbmSpeaks state = false) ∧ (ddrLog = [] ↔ op.ddrSpeaks state = false) ∧
      capacity.Quiet state' (hbm', ddr') ∧ (hbm' ≠ [] → ddr' ≠ []) ∧
      (op.hbmSpeaks state = true → op.ddrSpeaks state = false → ddr' ≠ []) ∧ (ddr ≠ [] → ddr' ≠ [])
      := by
  cases op with
  | lookupPrefix blocks call =>
    obtain ⟨answer, state', hbmLog, ddrLog, hlogs, hlength, hlength', hquiet⟩ :=
      lookup_logs h blocks call.nowMs call.requestId call.instanceUuid
    have hserve : state.Logs (TieredPrefixCache.serve capacity (.lookupPrefix blocks call))
        (some answer) state' hbmLog ddrLog := by
      refine ⟨fun events ↦ ?_, hlogs.faithful, hlogs.fold, hlogs.hbm_own, hlogs.ddr_own⟩
      simp only [TieredPrefixCache.serve, map_apply, hlogs.runs]
    have hmissed := any_not_mem h.holds.1 blocks
    refine ⟨_, state', hbmLog, ddrLog, _, _, hserve, ?_, ?_, hquiet, ?_, ?_, ?_⟩
    · rw [← List.length_eq_zero_iff, hlength, List.length_eq_zero_iff]
      simp [CacheCall.hbmSpeaks]
    · rw [← List.length_eq_zero_iff, hlength', List.length_eq_zero_iff, Lru.misses_eq_nil_iff]
      exact hmissed.symm
    · rw [Ne, Lru.lookup_eq_nil_iff, Ne, Lru.lookup_eq_nil_iff]
      exact hboth
    · intro hspeaks hsilent
      rw [Ne, Lru.lookup_eq_nil_iff]
      refine hboth ?_
      rintro rfl
      cases blocks with
      | nil => cases hspeaks
      | cons block blocks =>
        exact absurd (hmissed.mp hsilent block List.mem_cons_self) List.not_mem_nil
    · rw [Ne, Ne, Lru.lookup_eq_nil_iff]
      exact id
  | write blocks call reason =>
    obtain ⟨state', hbmLog, ddrLog, hlogs, hsilent, hsilent', hquiet⟩ :=
      write_logs h blocks call.nowMs call.requestId call.instanceUuid reason
    have hserve : state.Logs (TieredPrefixCache.serve capacity (.write blocks call reason)) none
        state' hbmLog ddrLog := by
      refine ⟨fun events ↦ ?_, hlogs.faithful, hlogs.fold, hlogs.hbm_own, hlogs.ddr_own⟩
      simp only [TieredPrefixCache.serve, bind_apply, hlogs.runs]
      rfl
    refine ⟨_, state', hbmLog, ddrLog, _, _, hserve, ?_, ?_, hquiet, ?_, ?_, ?_⟩
    · exact hsilent.trans (any_not_mem h.holds.1 blocks).symm
    · exact hsilent'.trans (any_not_mem h.holds.2 blocks).symm
    · rw [Ne, Lru.write_eq_nil_iff, Ne, Lru.write_eq_nil_iff]
      intro hne hempty
      exact hne ⟨by_contra fun hhbm ↦ hboth hhbm hempty.1, hempty.2⟩
    · intro hspeaks _ hempty
      rw [Lru.write_eq_nil_iff] at hempty
      rw [hempty.2] at hspeaks
      cases hspeaks
    · intro hne hempty
      exact hne (Lru.write_eq_nil_iff.mp hempty).1
  | takeEvents => cases hop

/-- A log that shows the state, with the tier that spoke last. -/
structure Spoken (capacity : TieredCapacity) (log : List CacheEvent) (state : TieredState)
    (last : Bool) : Prop where
  quiet : ∃ hbm ddr, capacity.Quiet state (hbm, ddr) ∧ (hbm ≠ [] → ddr ≠ []) ∧
    (last = false → ddr ≠ [])
  faithful : Residency.Faithful {} log
  fold : Residency.fold {} log = state.residents
  own : ∀ event ∈ log, OwnUsage event
  last_tier : ∀ event ∈ log.getLast?, event.cacheTier = .ddr ↔ last = true
  spoken : last = false → log ≠ []

theorem Spoken.start (capacity : TieredCapacity) : Spoken capacity [] {} true where
  quiet := ⟨[], [], ⟨⟨.fresh _, .fresh _⟩, rfl, rfl⟩, id, by simp⟩
  faithful := trivial
  fold := rfl
  own := by simp
  last_tier := by simp
  spoken := by simp

/-- The DDR tier speaks after the HBM tier. -/
theorem last_tier_of_logs {log hbmLog ddrLog : List CacheEvent} {last : Bool}
    (hlog : ∀ event ∈ log.getLast?, event.cacheTier = .ddr ↔ last = true)
    (hhbm : ∀ event ∈ hbmLog, event.cacheTier = .hbm)
    (hddr : ∀ event ∈ ddrLog, event.cacheTier = .ddr) :
    ∀ event ∈ (log ++ (hbmLog ++ ddrLog)).getLast?, event.cacheTier = .ddr ↔
      (if ddrLog ≠ [] then true else if hbmLog ≠ [] then false else last) = true := by
  intro event hevent
  rw [List.getLast?_append, List.getLast?_append] at hevent
  rcases List.eq_nil_or_concat ddrLog with rfl | ⟨front, final, rfl⟩
  · rcases List.eq_nil_or_concat hbmLog with rfl | ⟨front, final, rfl⟩
    · simpa using hlog event (by simpa using hevent)
    · have hfinal := hhbm final (by simp)
      obtain rfl : final = event := by simpa using hevent
      simp [hfinal]
  · have hfinal := hddr final (by simp)
    obtain rfl : final = event := by simpa using hevent
    simp [hfinal]

theorem Spoken.step {log : List CacheEvent} {last : Bool} (h : Spoken capacity log state last)
    {op : CacheCall} (hop : op.isDrain = false) :
    ∃ answer state' log', TieredPrefixCache.serve capacity op { state with events := log } =
        .ok answer { state' with events := log' } ∧
      Spoken capacity log' state'
        (if op.ddrSpeaks state then true else if op.hbmSpeaks state then false else last) := by
  obtain ⟨hbm, ddr, hquiet, hboth, hlast⟩ := h.quiet
  obtain ⟨answer, state', hbmLog, ddrLog, hbm', ddr', hlogs, hhbm, hddr, hquiet', hboth', hfull,
    hkeep⟩ := TieredPrefixCache.serve_speaks hop hquiet hboth
  refine ⟨answer, state', log ++ (hbmLog ++ ddrLog), hlogs.runs log, ?_⟩
  have hflag : (if op.ddrSpeaks state then true else if op.hbmSpeaks state then false else last) =
      if ddrLog ≠ [] then true else if hbmLog ≠ [] then false else last := by
    simp only [Ne, hhbm, hddr, Bool.not_eq_false]
  constructor
  · refine ⟨hbm', ddr', hquiet', hboth', fun hfalse ↦ ?_⟩
    split_ifs at hfalse with hspeaks hspeaks'
    · exact hfull hspeaks' (Bool.not_eq_true _ ▸ hspeaks)
    · exact hkeep (hlast hfalse)
  · refine EventLog.faithful_append.mpr ⟨h.faithful, ?_⟩
    have hrest := hlogs.faithful
    rw [← h.fold] at hrest
    exact hrest
  · rw [Residency.fold_append, h.fold]
    exact hlogs.fold
  · intro event hmem
    rcases List.mem_append.mp hmem with hold | hnew
    · exact h.own event hold
    · rcases List.mem_append.mp hnew with hnew | hnew
      · exact fun _ ↦ (hlogs.hbm_own event hnew).2
      · intro htier
        rw [hlogs.ddr_own event hnew] at htier
        cases htier
  · rw [hflag]
    exact last_tier_of_logs h.last_tier (fun event hmem ↦ (hlogs.hbm_own event hmem).1)
      hlogs.ddr_own
  · intro hfalse hempty
    rw [hflag] at hfalse
    simp only [List.append_eq_nil_iff] at hempty
    obtain ⟨hlog, hhbmLog, hddrLog⟩ := hempty
    simp only [hhbmLog, hddrLog, ne_eq, not_true_eq_false, if_false] at hfalse
    exact h.spoken hfalse hlog

theorem Spoken.run {log : List CacheEvent} {last : Bool} (h : Spoken capacity log state last)
    (ops : List CacheCall) (hops : ∀ op ∈ ops, op.isDrain = false) :
    ∃ silent state' log',
      calls (drainedBy (TieredPrefixCache.serve capacity) TieredPrefixCache.takeEvents) ops
        { state with events := log } = .ok silent { state' with events := log' } ∧
      silent.flatten = [] ∧ Spoken capacity log' state'
        (ddrSpeaksLast capacity ops { state with events := log } last) := by
  induction ops generalizing state log last with
  | nil => exact ⟨[], state, log, rfl, rfl, h⟩
  | cons op ops ih =>
    obtain ⟨hop, hops⟩ := List.forall_mem_cons.mp hops
    obtain ⟨answer, state₁, log₁, hserve, h₁⟩ := h.step hop
    obtain ⟨silent, state', log', hcalls, hsilent, h'⟩ := ih h₁ hops
    have hdrained : drainedBy (TieredPrefixCache.serve capacity) TieredPrefixCache.takeEvents op
        { state with events := log } = .ok [] { state₁ with events := log₁ } := by
      cases op with
      | takeEvents => cases hop
      | _ =>
        simp only [drainedBy, bind_apply, hserve]
        rfl
    refine ⟨[] :: silent, state', log', ?_, ?_, ?_⟩
    · unfold calls
      simp only [bind_apply, hdrained, hcalls]
      rfl
    · rw [List.flatten_cons, hsilent, List.nil_append]
    · rw [ddrSpeaksLast, hserve]
      cases op <;> exact h'

/-- The statistics report the true occupancy, if both tiers have spoken. -/
def StatsTrue (log : List CacheEvent) (state : TieredState) (stats : CacheEventStats) : Prop :=
  (∃ event ∈ log, event.cacheTier = .hbm) → (∃ event ∈ log, event.cacheTier = .ddr) →
    stats.finalHbmUsedBlocks = state.hbm.blocks.len ∧
    stats.finalDdrUsedBlocks = state.ddr.blocks.len ∧
    IsGreatest {n | ∃ residency, Residency.At log residency ∧ n = residency.hbm.card}
      stats.peakHbmUsedBlocks ∧
    IsGreatest {n | ∃ residency, Residency.At log residency ∧ n = residency.ddr.card}
      stats.peakDdrUsedBlocks

theorem residency_empty_of_own {log : List CacheEvent} {tier : CacheTier}
    (h : ∀ event ∈ log, event.cacheTier = tier) :
    match tier with
    | .hbm => (Residency.fold {} log).ddr = ∅
    | .ddr => (Residency.fold {} log).hbm = ∅ := by
  induction log using List.reverseRecOn with
  | nil => cases tier <;> rfl
  | append_singleton log event ih =>
    have hrest := ih fun event hmem ↦ h event (List.mem_append_left _ hmem)
    have hevent := h event (List.mem_append_right _ List.mem_cons_self)
    rw [Residency.fold_append]
    cases tier with
    | hbm => exact (Residency.apply_hbm _ hevent).trans hrest
    | ddr => exact (Residency.apply_ddr _ hevent).trans hrest

/-- With a log that shows the state, the statistics are true if and only if the DDR tier spoke
last. -/
theorem Spoken.stats_true_iff {log : List CacheEvent} {last : Bool}
    (h : Spoken capacity log state last) :
    StatsTrue log state (recordAll log) ↔ last = true := by
  obtain ⟨hfinal, hlastDdr, hpeakHbm, hpeakDdr⟩ := record_all_faithful log h.faithful h.own
  rw [h.fold] at hfinal hlastDdr
  rcases List.eq_nil_or_concat log with rfl | ⟨front, final, rfl⟩
  · refine ⟨fun _ ↦ ?_, fun _ hhbm ↦ ?_⟩
    · exact Bool.of_not_eq_false fun hfalse ↦ h.spoken hfalse rfl
    · simp at hhbm
  rw [List.concat_eq_append] at *
  have hevent := h.last_tier final (by simp)
  have hfinalDdr := hlastDdr final (by simp)
  constructor
  · intro htrue
    refine Bool.of_not_eq_false fun hfalse ↦ ?_
    obtain ⟨hbm, ddr, hquiet, -, hddr⟩ := h.quiet
    have htier : final.cacheTier = .hbm := by
      cases hcase : final.cacheTier with
      | hbm => rfl
      | ddr =>
        rw [hfalse] at hevent
        cases hevent.mp hcase
    have hlen : state.ddr.blocks.len ≠ 0 := by
      rw [hquiet.holds.2.len_eq]
      exact fun hzero ↦ hddr hfalse (List.length_eq_zero_iff.mp hzero)
    have hspoke : ∃ event ∈ front ++ [final], event.cacheTier = .ddr := by
      by_contra hnone
      push Not at hnone
      have hall : ∀ other ∈ front ++ [final], other.cacheTier = .hbm := fun other hmem ↦ by
        cases hcase : other.cacheTier with
        | hbm => rfl
        | ddr => exact absurd hcase (hnone other hmem)
      have hempty := residency_empty_of_own hall
      dsimp only at hempty
      rw [h.fold] at hempty
      exact hlen (Finset.card_eq_zero.mpr hempty)
    obtain ⟨-, hddrTrue, -⟩ := htrue ⟨final, by simp, htier⟩ hspoke
    rw [hfinalDdr, htier, if_neg (by decide)] at hddrTrue
    exact hlen hddrTrue.symm
  · rintro rfl - -
    rw [if_pos (hevent.mpr rfl)] at hfinalDdr
    exact ⟨hfinal, hfinalDdr, hpeakHbm, hpeakDdr⟩

/-- Drain by drain, a sink records the whole log. -/
theorem emit_many_flatten (drained : List (List CacheEvent)) :
    drained.foldl (fun stats events ↦ StatsOnlyCacheEventSink.emitMany events stats) {} =
      recordAll drained.flatten :=
  List.foldl_flatten.symm

/-- However the events are drained into it, a sink reports the true occupancy if and only if the
last call that emitted an event made the DDR tier emit one. -/
theorem cache_stats_true_iff (capacity : TieredCapacity) (ops : List CacheCall) :
    ∃ drained state,
      calls (drainedBy (TieredPrefixCache.serve capacity) TieredPrefixCache.takeEvents)
        (ops ++ [.takeEvents]) {} = .ok drained state ∧
      (StatsTrue drained.flatten state (drained.foldl (fun stats events ↦
          StatsOnlyCacheEventSink.emitMany events stats) {}) ↔
        ddrSpeaksLast capacity (withoutDrains ops) {} true = true) := by
  have hplain : ∀ op ∈ withoutDrains ops, op.isDrain = false := fun op hmem ↦ by
    simpa using (List.mem_filter.mp hmem).2
  have hagain : withoutDrains (withoutDrains ops) = withoutDrains ops := by
    rw [withoutDrains, withoutDrains, List.filter_filter]
    simp only [Bool.and_self]
  obtain ⟨silent, state₀, log, hcalls₀, hsilent, hspoken⟩ :=
    (Spoken.start capacity).run (withoutDrains ops) hplain
  obtain ⟨log', -, hlogs⟩ := TieredPrefixCache.log_of capacity ops
  obtain ⟨drained, state, hcalls, hdrained, hfold⟩ := hlogs ops rfl
  obtain ⟨drained', state', hcalls', hdrained', -⟩ := hlogs (withoutDrains ops) hagain
  obtain ⟨hbm, ddr, hquiet, -⟩ := hspoken.quiet
  have hcalls₁ := calls_concat hcalls₀ (TieredPrefixCache.drain_eq hquiet log)
  have hsame : log' = log := by
    have hresult := hcalls'.symm.trans hcalls₁
    cases hresult
    rw [← hdrained', List.flatten_append, hsilent, List.flatten_singleton, List.nil_append]
  subst hsame
  refine ⟨drained, state, hcalls, ?_⟩
  have hresidents : state.residents = state₀.residents := hfold.symm.trans hspoken.fold
  have hhbm : state.hbm.blocks.len = state₀.hbm.blocks.len :=
    congrArg (fun residents : Residency ↦ residents.hbm.card) hresidents
  have hddr : state.ddr.blocks.len = state₀.ddr.blocks.len :=
    congrArg (fun residents : Residency ↦ residents.ddr.card) hresidents
  rw [emit_many_flatten, hdrained, ← hspoken.stats_true_iff, StatsTrue, StatsTrue, hhbm, hddr]

/-- A block is written and then found in HBM. -/
def fullHitCalls : List CacheCall :=
  let block : PrefixBlock :=
    { blockKey := "a", contentHash := "", blockIndex := 0, tokenCount := 2, sizeBytes := 0 }
  let call : TierCall := { nowMs := 0, requestId := "r", instanceUuid := "i" }
  [.write [block] call "", .lookupPrefix [block] call]

def unitCapacity : TieredCapacity where
  hbmBlocks := 1
  ddrBlocks := 1
  hbm_pos := Nat.one_pos
  ddr_pos := Nat.one_pos

/-- The block is in DDR too, but the final count of DDR blocks is zero. -/
theorem full_hit_stats_false :
    ∃ drained state,
      calls (drainedBy (TieredPrefixCache.serve unitCapacity) TieredPrefixCache.takeEvents)
        (fullHitCalls ++ [.takeEvents]) {} = .ok drained state ∧
      state.ddr.blocks.len = 1 ∧
      (drained.foldl (fun stats events ↦
        StatsOnlyCacheEventSink.emitMany events stats) {}).finalDdrUsedBlocks = 0 ∧
      ¬ StatsTrue drained.flatten state (drained.foldl (fun stats events ↦
        StatsOnlyCacheEventSink.emitMany events stats) {}) := by
  refine ⟨_, _, rfl, by decide, by decide, fun h ↦ ?_⟩
  obtain ⟨-, hddr, -⟩ := h (by decide) (by decide)
  exact absurd hddr (by decide)

end Speaking

end InferTwin
