import InferTwin.Cache.Residents
import InferTwin.Server.Lookups

namespace InferTwin

open Effect

variable {C K : Type} {engine : Engine C K} {requests : List SimulationRequest}

/-- The tokens of a request that iterations have computed. -/
def computedTokens (requestId : String) (records : List IterationRecord) : ℕ :=
  ((records.flatMap (IterationRecord.servicesOf requestId)).map fun service ↦
    service.slice.scheduledPrefillTokens).sum

/-- An iteration of the trace that was over by `nowMs` has made the block `source` visible for
the request `supplier`, which had all tokens up to the end of the block by then: from its
lookup, or from the iterations up to this one. -/
structure Supplied (requests : List SimulationRequest) (trace : List TraceEvent) (nowMs : ℚ)
    (supplier : SimulationRequest) (front : List PrefixBlock) (source : PrefixBlock) : Prop where
  requested : supplier ∈ requests
  prompt : front ++ [source] <+: supplier.promptBlocks
  finished : ∃ earlier record later, iterationsOf trace = earlier ++ record :: later ∧
    record.finishTimeMs ≤ nowMs ∧
    (∃ served ∈ record.served, served.1.requestId = supplier.requestId ∧
      source ∈ served.2.materialized) ∧
    ∃ lookup, (supplier.requestId, lookup) ∈ lookupsOf trace ∧
      blockTokens (front ++ [source]) ≤
        lookup.effectiveHitTokens + computedTokens supplier.requestId (earlier ++ [record])

theorem Supplied.mono {trace rest : List TraceEvent} {nowMs laterMs : ℚ}
    {supplier : SimulationRequest} {front : List PrefixBlock} {source : PrefixBlock}
    (h : Supplied requests trace nowMs supplier front source) (hle : nowMs ≤ laterMs) :
    Supplied requests (trace ++ rest) laterMs supplier front source := by
  obtain ⟨earlier, record, later, hrecords, hover, hserved, lookup, hlookup, hend⟩ := h.finished
  refine ⟨h.requested, h.prompt, earlier, record, later ++ iterationsOf rest, ?_, hover.trans hle,
    hserved, lookup, ?_, hend⟩
  · rw [iterations_of_append, hrecords, List.append_assoc, List.cons_append]
  · rw [lookups_of_append]
    exact List.mem_append_left _ hlookup

/-- The keys of the blocks that the iterations of a trace have made visible. -/
def suppliedKeys (requests : List SimulationRequest) (trace : List TraceEvent) (nowMs : ℚ) :
    Set String :=
  {key | ∃ supplier front source, Supplied requests trace nowMs supplier front source ∧
    source.blockKey = key}

theorem supplied_keys_mono (requests : List SimulationRequest) (trace rest : List TraceEvent)
    {nowMs laterMs : ℚ} (hle : nowMs ≤ laterMs) :
    suppliedKeys requests trace nowMs ⊆ suppliedKeys requests (trace ++ rest) laterMs := by
  rintro key ⟨supplier, front, source, hsupplied, hkey⟩
  exact ⟨supplier, front, source, hsupplied.mono hle, hkey⟩

/-- A lookup that is reported after `before` is one of a request, and found only what earlier
iterations have made visible. -/
structure JustifiedLookup (requests : List SimulationRequest) (before : List TraceEvent)
    (requestId : String) (nowMs : ℚ) (raw : PrefixLookupResult) : Prop where
  asked : ∃ request ∈ requests, request.requestId = requestId ∧
    raw.hitBlocks ++ raw.missBlocks = request.promptBlocks
  found : blockKeys raw.hitBlocks ⊆ suppliedKeys requests before nowMs

/-- Every lookup of the trace is justified by what comes before it. -/
def JustifiedTrace (requests : List SimulationRequest) (trace : List TraceEvent) : Prop :=
  ∀ before requestId nowMs raw later, trace = before ++ .lookup requestId nowMs raw :: later →
    JustifiedLookup requests before requestId nowMs raw

theorem JustifiedTrace.concat {trace : List TraceEvent} {event : TraceEvent}
    (h : JustifiedTrace requests trace)
    (hevent : ∀ requestId nowMs raw, event = .lookup requestId nowMs raw →
      JustifiedLookup requests trace requestId nowMs raw) :
    JustifiedTrace requests (trace ++ [event]) := by
  intro before requestId nowMs raw later heq
  rcases List.eq_nil_or_concat later with rfl | ⟨rest, last, rfl⟩
  · obtain ⟨rfl, hlast⟩ := List.append_inj' heq rfl
    exact hevent requestId nowMs raw (List.singleton_inj.mp hlast)
  · rw [List.concat_eq_append, ← List.cons_append, ← List.append_assoc] at heq
    exact h before requestId nowMs raw rest (List.append_inj' heq rfl).1

/-- What is resident was made visible before, and so was all that was ever found. -/
structure Sourced (requests : List SimulationRequest) (residents : C → Set String) (nowMs : ℚ)
    (world : World C K) : Prop where
  resident : residents world.cache ⊆ suppliedKeys requests world.trace nowMs
  justified : JustifiedTrace requests world.trace

section Lookups

variable {residents : C → Set String} {nowMs laterMs lostMs : ℚ} {world world' : World C K}

theorem Sourced.later (h : Sourced requests residents nowMs world) (hle : nowMs ≤ laterMs) :
    Sourced requests residents laterMs world where
  resident := by
    have hmono := supplied_keys_mono requests world.trace [] hle
    rw [List.append_nil] at hmono
    exact h.resident.trans hmono
  justified := h.justified

theorem Sourced.drained (hcache : engine.cache.Honest residents)
    (h : Sourced requests residents nowMs world) :
    Sourced requests residents nowMs (engine.drained world) where
  resident := (hcache.drain world.cache).trans h.resident
  justified := h.justified

/-- A lookup is justified when it is reported, whether the request can be accounted or not. -/
theorem Sourced.report (hcache : engine.cache.Honest residents) (hsplits : engine.cache.Splits)
    (h : Sourced requests residents nowMs world) {request : SimulationRequest}
    (hrequest : request ∈ requests) {instanceUuid : String} {raw : PrefixLookupResult} {cache : C}
    (hraw : engine.cache.lookupPrefix request.promptBlocks nowMs request.requestId instanceUuid
      world.cache = .ok raw cache) :
    Sourced requests residents nowMs
      { world with cache, trace := world.trace ++ [.lookup request.requestId nowMs raw] } := by
  obtain ⟨hkept, hfound⟩ := hcache.lookup hraw
  constructor
  · exact (hkept.trans h.resident).trans (supplied_keys_mono requests world.trace _ le_rfl)
  · refine h.justified.concat ?_
    rintro requestId reportedMs reported hevent
    cases hevent
    exact ⟨⟨request, hrequest, rfl, hsplits _ _ _ _ _ _ _ hraw⟩, hfound.trans h.resident⟩

theorem Sourced.account (h : Sourced requests residents nowMs world) (requestId : String)
    (lookup : LookupMetrics) :
    Sourced requests residents nowMs
      { world with trace := world.trace ++ [.accounted requestId lookup] } where
  resident := h.resident.trans (supplied_keys_mono requests world.trace _ le_rfl)
  justified := h.justified.concat (by simp)

theorem Looks.sourced (hcache : engine.cache.Honest residents) (hsplits : engine.cache.Splits)
    {entry : Entry} {job : Job} (h : Looks engine nowMs entry world job world')
    (hw : entry.Waiting engine.timelineMode nowMs lostMs) (hrequest : entry.request ∈ requests)
    (hs : Sourced requests residents nowMs world) : Sourced requests residents nowMs world' := by
  cases h with
  | known => exact hs
  | @fresh lookup raw cache _ hraw =>
    have hid : entry.id = entry.request.requestId := hw.tracks.id_eq
    rw [hw.tracks.blocks_eq, hid] at hraw
    have hreported := (hs.report hcache hsplits hrequest hraw).account entry.id lookup
    unfold World.lookedUp
    rw [hid] at hreported ⊢
    rw [List.append_assoc] at hreported
    exact hreported

theorem Scans.sourced (hcache : engine.cache.Honest residents) (hsplits : engine.cache.Splits)
    {tokenBudget seats : ℕ} {entries : List Entry} {scan : Scan}
    (h : Scans engine nowMs tokenBudget seats entries world scan world')
    (hw : ∀ entry ∈ entries, entry.Waiting engine.timelineMode nowMs lostMs)
    (hrequests : ∀ entry ∈ entries, entry.request ∈ requests)
    (hs : Sourced requests residents nowMs world) : Sourced requests residents nowMs world' := by
  induction h with
  | nil => exact hs
  | full => exact hs
  | load hlook _ _ _ ih =>
    exact ih (List.forall_mem_of_forall_mem_cons hw) (List.forall_mem_of_forall_mem_cons hrequests)
      (hlook.sourced hcache hsplits (hw _ List.mem_cons_self) (hrequests _ List.mem_cons_self) hs)
  | finish hlook _ _ _ _ ih =>
    exact ih (List.forall_mem_of_forall_mem_cons hw) (List.forall_mem_of_forall_mem_cons hrequests)
      (hlook.sourced hcache hsplits (hw _ List.mem_cons_self) (hrequests _ List.mem_cons_self) hs)
  | stop hlook =>
    exact hlook.sourced hcache hsplits (hw _ List.mem_cons_self) (hrequests _ List.mem_cons_self) hs
  | enter hlook _ _ _ ih =>
    exact ih (List.forall_mem_of_forall_mem_cons hw) (List.forall_mem_of_forall_mem_cons hrequests)
      (hlook.sourced hcache hsplits (hw _ List.mem_cons_self) (hrequests _ List.mem_cons_self) hs)

theorem Prepares.sourced (hcache : engine.cache.Honest residents) (hsplits : engine.cache.Splits)
    {session : Session} {frontier : Frontier} (h : Prepares engine session world frontier world')
    (hw : session.Wf engine.config engine.timelineMode requests)
    (hs : Sourced requests residents session.nowMs world) :
    Sourced requests residents session.nowMs world' := by
  rcases h.scanned with ⟨-, -, rfl⟩ | ⟨-, hscan⟩
  · exact hs
  · refine hscan.sourced hcache hsplits hw.waiting (fun entry he ↦ ?_) hs
    exact hw.request_mem entry (List.mem_append_right _ he)

/-- A lookup that fails has reported nothing that is not justified. -/
theorem Sourced.look_fails (hcache : engine.cache.Honest residents)
    (hsplits : engine.cache.Splits) {entry : Entry} {e : ReplayError}
    (hs : Sourced requests residents nowMs world)
    (hw : entry.Waiting engine.timelineMode nowMs lostMs) (hrequest : entry.request ∈ requests)
    (h : engine.look nowMs entry world = .error e world') : JustifiedTrace requests world'.trace := by
  have hid : entry.state.requestId = entry.request.requestId := hw.tracks.id_eq
  cases hl : entry.lookup with
  | some lookup =>
    simp only [Engine.look, hl] at h
    cases h
  | none =>
    simp only [Engine.look, hl] at h
    rcases bind_error.mp h with h | ⟨_, _, -, h⟩
    swap
    · cases h
    unfold Engine.lookupRequest at h
    rcases bind_error.mp h with h | ⟨raw, world₁, hcall, h⟩
    · obtain ⟨_, _, -, -, rfl⟩ := zoom_error.mp h
      exact hs.justified
    obtain ⟨cache, hraw, rfl⟩ := zoom_ok.mp hcall
    rw [hw.tracks.blocks_eq, hid] at hraw
    have hreported := hs.report hcache hsplits hrequest hraw
    rw [← hid] at hreported
    rcases bind_error.mp h with h | ⟨_, world₂, hrecord, h⟩
    · cases h
    rw [record_ok.mp hrecord] at h
    rcases bind_error.mp h with h | ⟨lookup, world₃, hacc, h⟩
    · rw [(check_error.mp h).2]
      exact hreported.justified
    rw [(check_ok.mp hacc).2] at h
    rcases bind_error.mp h with h | ⟨_, world₄, haccount, h⟩
    · cases h
    rw [record_ok.mp haccount] at h
    rcases bind_error.mp h with h | ⟨_, _, -, h⟩
    · rw [(check_error.mp h).2]
      exact (hreported.account entry.state.requestId lookup).justified
    · cases h

theorem Sourced.scan_fails (hcache : engine.cache.Honest residents)
    (hsplits : engine.cache.Splits) {entries : List Entry} {tokenBudget seats : ℕ}
    {e : ReplayError} (hs : Sourced requests residents nowMs world)
    (hw : ∀ entry ∈ entries, entry.Waiting engine.timelineMode nowMs lostMs)
    (hrequests : ∀ entry ∈ entries, entry.request ∈ requests)
    (h : engine.scan nowMs tokenBudget seats entries world = .error e world') :
    JustifiedTrace requests world'.trace := by
  induction entries generalizing tokenBudget seats world with
  | nil => cases h
  | cons entry entries ih =>
    obtain ⟨hhead, hrest⟩ := List.forall_mem_cons.mp hw
    obtain ⟨hrequest, hrequests⟩ := List.forall_mem_cons.mp hrequests
    unfold Engine.scan at h
    split_ifs at h with hseats
    · cases h
    rcases bind_error.mp h with h | ⟨job, world₁, hlook, h⟩
    · exact hs.look_fails hcache hsplits hhead hrequest h
    have hs₁ := (looks_of_look hlook).sourced hcache hsplits hhead hrequest hs
    by_cases hr : job.state.remaining = 0
    · rw [if_pos hr] at h
      by_cases hload : job.state.pendingLoad = (0, 0)
      · rw [if_neg (not_not.mpr hload)] at h
        rcases bind_error.mp h with h | ⟨completion, world₂, hdone, h⟩
        · rw [(check_error.mp h).2]
          exact hs₁.justified
        · rw [(check_ok.mp hdone).2] at h
          rcases bind_error.mp h with h | ⟨_, _, -, h⟩
          · exact ih hs₁ hrest hrequests h
          · cases h
      · rw [if_pos hload] at h
        rcases bind_error.mp h with h | ⟨_, _, -, h⟩
        · exact ih hs₁ hrest hrequests h
        · cases h
    · rw [if_neg hr] at h
      by_cases hg : engine.config.grant job.state.remaining tokenBudget = 0
      · rw [if_pos hg] at h
        cases h
      · rw [if_neg hg] at h
        rcases bind_error.mp h with h | ⟨_, _, -, h⟩
        · exact ih hs₁ hrest hrequests h
        · cases h

/-- Nor has a pass that fails. -/
theorem Sourced.pass_fails (hcache : engine.cache.Honest residents)
    (hsplits : engine.cache.Splits) {instanceUuid : String} {session : Session} {e : ReplayError}
    (hs : Sourced requests residents session.nowMs world)
    (hw : session.Wf engine.config engine.timelineMode requests)
    (h : engine.pass instanceUuid session world = .error e world') :
    JustifiedTrace requests world'.trace := by
  unfold Engine.pass at h
  rcases bind_error.mp h with h | ⟨received, world₀, hcheck, h⟩
  · rw [(check_error.mp h).2]
    exact hs.justified
  obtain ⟨hok, hworld⟩ := check_ok.mp hcheck
  rw [hworld] at h
  have hreceive := receives_of_receive hok
  have hwf := hreceive.wf hw
  rw [← hreceive.now_eq] at hs
  by_cases hidle : received.Idle
  · rw [if_pos hidle] at h
    cases hp : received.pending <;> simp only [hp] at h <;> cases h
  rw [if_neg hidle] at h
  rcases bind_error.mp h with h | ⟨frontier, world₁, hfrontier, h⟩
  · unfold Engine.frontier at h
    split_ifs at h
    · cases h
    rcases bind_error.mp h with h | ⟨_, _, -, h⟩
    · refine hs.scan_fails hcache hsplits hwf.waiting (fun entry he ↦ ?_) h
      exact hwf.request_mem entry (List.mem_append_right _ he)
    · cases h
  have hs₁ := (prepares_of_frontier hfrontier).sourced hcache hsplits hwf hs
  rcases bind_error.mp h with h | ⟨_, world₂, hdrain, h⟩
  · cases h
  rw [drain_ok.mp hdrain] at h
  by_cases hempty : frontier.Empty
  · rw [if_pos hempty] at h
    cases hp : received.pending <;> simp only [hp] at h <;> cases h
  · rw [if_neg hempty] at h
    rcases bind_error.mp h with h | ⟨_, _, -, h⟩
    · exact iterate_spares (JustifiedTrace requests) engine instanceUuid received frontier
        (engine.drained world₁) _ _ hs₁.justified h
    · cases h

end Lookups

section Iterations

variable {residents : C → Set String}

/-- A request whose prompt is computed up to `upTo` tokens has reached the end of a block that
its lookup missed. -/
def Reaches (lookup : LookupMetrics) (state : RequestState) (upTo : ℕ) (source : PrefixBlock) :
    Prop :=
  source ∈ lookup.materializationBlocks ∧ (upTo = state.promptTokens ∨
    ∃ endToken ∈ blockEndToken state.promptBlocks source.blockKey, endToken ≤ upTo)

theorem Materializes.supplies (hcache : engine.cache.Honest residents)
    (hpolicy : RepositoryPolicy engine.materializationPolicy) {lookup : LookupMetrics}
    {state : RequestState} {upTo : ℕ} {cache cache' : C} {blocks : List PrefixBlock}
    (h : Materializes engine lookup state upTo cache blocks cache') :
    residents cache' ⊆ residents cache ∪ blockKeys blocks ∧
      ∀ source ∈ blocks, Reaches lookup state upTo source := by
  induction h with
  | none => exact ⟨Set.subset_union_left, by simp⟩
  | chunk hblocks hprompt hcall =>
    obtain ⟨hkept, hends⟩ := hpolicy.chunk hcache hcall
    refine ⟨hkept, fun source hsource ↦ ?_⟩
    obtain ⟨hmem, hend⟩ := hends source hsource
    rw [hblocks] at hmem
    rw [hprompt] at hend
    exact ⟨hmem, .inr hend⟩
  | finish hdone hblocks hcall =>
    obtain ⟨hkept, hmem⟩ := hpolicy.finish hcache hcall
    rw [hblocks] at hmem
    exact ⟨hkept, fun source hsource ↦ ⟨hmem source hsource, .inl hdone⟩⟩
  | append _ _ ih ih' =>
    obtain ⟨hkept, hends⟩ := ih
    obtain ⟨hkept', hends'⟩ := ih'
    refine ⟨?_, List.forall_mem_append.mpr ⟨hends, hends'⟩⟩
    intro key hkey
    rcases hkept' hkey with hkey | ⟨source, hsource, hkey⟩
    · rcases hkept hkey with hkey | ⟨source, hsource, hkey⟩
      · exact .inl hkey
      · exact .inr ⟨source, List.mem_append_left _ hsource, hkey⟩
    · exact .inr ⟨source, List.mem_append_right _ hsource, hkey⟩

/-- What serving a batch makes visible, request by request. -/
structure Supplies (residents : C → Set String) (batch : List (Job × Option ScheduledSlice))
    (world : World C K) (applied : Applied) (world' : World C K) : Prop where
  resident : residents world'.cache ⊆ residents world.cache ∪
    {key | ∃ record ∈ applied.records, key ∈ blockKeys record.materialized}
  reached : ∀ served ∈ (batch.filterMap Prod.snd).zip applied.records,
    ∃ job, (job, some served.1) ∈ batch ∧ ∀ source ∈ served.2.materialized,
      Reaches job.lookup job.state
        (job.state.numComputedTokens + served.1.scheduledPrefillTokens) source

theorem Served.supplies (hcache : engine.cache.Honest residents)
    (hpolicy : RepositoryPolicy engine.materializationPolicy) {startMs finishMs : ℚ} {job : Job}
    {slice : ScheduledSlice} {contribution : IterationLatencyBreakdown}
    {request : Except ReplayError SimulationRequest} {queue : SharedLinkFIFOTransferQueue}
    {progress : SliceProgress} {metric : Option BatchAwareRequestMetrics}
    {world world' world'' : World C K} {batch : List (Job × Option ScheduledSlice)}
    {applied applied' : Applied}
    (h : Served engine startMs finishMs slice contribution job.state job.lookup request queue world
      progress metric world') (hrecords : applied'.records = progress.record :: applied.records)
    (hrest : Supplies residents batch world' applied world'') :
    Supplies residents ((job, some slice) :: batch) world applied' world'' := by
  obtain ⟨hkept, hends⟩ := h.materializes.supplies hcache hpolicy
  constructor
  · rw [hrecords]
    intro key hkey
    rcases hrest.resident hkey with hkey | ⟨record, hrecord, hkey⟩
    · rcases hkept hkey with hkey | hkey
      · exact .inl hkey
      · exact .inr ⟨_, List.mem_cons_self, hkey⟩
    · exact .inr ⟨record, List.mem_cons_of_mem _ hrecord, hkey⟩
  · rw [hrecords]
    refine List.forall_mem_cons.mpr ⟨⟨job, List.mem_cons_self, hends⟩, ?_⟩
    intro served hserved
    obtain ⟨other, hother, hreached⟩ := hrest.reached served hserved
    exact ⟨other, List.mem_cons_of_mem _ hother, hreached⟩

theorem Applies.supplies (hcache : engine.cache.Honest residents)
    (hpolicy : RepositoryPolicy engine.materializationPolicy) {facts : IterationFacts}
    {nowMs lostMs : ℚ} {batch : List (Job × Option ScheduledSlice)}
    {queue : SharedLinkFIFOTransferQueue} {totals : IterationTotals} {world world' : World C K}
    {applied : Applied} (h : Applies engine facts batch queue totals world applied world')
    (hb : ∀ item ∈ batch, Batched engine.timelineMode nowMs lostMs item) :
    Supplies residents batch world applied world' := by
  induction h with
  | nil => exact ⟨Set.subset_union_left, by simp⟩
  | idle _ ih =>
    obtain ⟨hresident, hreached⟩ := ih (List.forall_mem_of_forall_mem_cons hb)
    refine ⟨hresident, fun served hserved ↦ ?_⟩
    obtain ⟨job, hjob, hends⟩ := hreached served hserved
    exact ⟨job, List.mem_cons_of_mem _ hjob, hends⟩
  | advance hslice _ ih =>
    exact ((hb _ List.mem_cons_self).served hslice).supplies hcache hpolicy rfl
      (ih (List.forall_mem_of_forall_mem_cons hb))
  | complete hslice _ ih =>
    exact ((hb _ List.mem_cons_self).served hslice).supplies hcache hpolicy rfl
      (ih (List.forall_mem_of_forall_mem_cons hb))

end Iterations

end InferTwin
