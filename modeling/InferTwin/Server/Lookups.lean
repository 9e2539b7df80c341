import InferTwin.Server.Timeline

namespace InferTwin

open Effect

variable {C K : Type} {engine : Engine C K} {requests : List SimulationRequest}

def TraceEvent.accounted? : TraceEvent → Option (String × LookupMetrics)
  | lookup _ _ _ => none
  | accounted requestId metrics => some (requestId, metrics)
  | iteration _ => none

/-- The lookups that a trace reports, each with the request it was made for. -/
def lookupsOf (trace : List TraceEvent) : List (String × LookupMetrics) :=
  trace.filterMap TraceEvent.accounted?

@[simp] theorem lookups_of_append (trace trace' : List TraceEvent) :
    lookupsOf (trace ++ trace') = lookupsOf trace ++ lookupsOf trace' :=
  List.filterMap_append ..

/-- A request lacks more tokens than a batch may hold. -/
def LookupMetrics.Oversized (config : SchedulerConfig) (lookup : LookupMetrics) : Prop :=
  config.maxNumBatchedTokens < lookup.missTokens

theorem Job.Ready.remaining_eq {timelineMode : TimelineMode} {nowMs lostMs : ℚ} {job : Job}
    (h : job.Ready timelineMode nowMs lostMs) : job.state.remaining = job.lookup.missTokens := by
  have hsum := h.ledger.knows.sum_eq
  have hcached := h.ledger.knows.cached_eq
  have htiles := h.ledger.tiles
  unfold Job.slices at htiles
  rw [h.unserved] at htiles
  have hcomputed : job.state.cachedTokens = job.state.numComputedTokens := htiles
  unfold RequestState.remaining
  omega

/-- A looked-up entry stands in line with this lookup. -/
def Entry.Holds (item : String × LookupMetrics) (entry : Entry) : Prop :=
  entry.id = item.1 ∧ entry.lookup = some item.2

section Scanning

variable {nowMs lostMs : ℚ} {tokenBudget seats : ℕ} {entries : List Entry} {scan : Scan}
  {world world' : World C K}

theorem Looks.lookups {entry : Entry} {job : Job} (h : Looks engine nowMs entry world job world') :
    lookupsOf world'.trace = lookupsOf world.trace ∧ entry.lookup = some job.lookup ∨
      lookupsOf world'.trace = lookupsOf world.trace ++ [(job.id, job.lookup)] := by
  cases h with
  | known hl => exact .inl ⟨rfl, hl⟩
  | fresh =>
    refine .inr ?_
    show lookupsOf (world.trace ++ _) = _
    rw [lookups_of_append]
    rfl

/-- Whoever was looked up while the line was scanned is found in the trace. -/
structure Scan.Reported (scan : Scan) (trace : List TraceEvent) : Prop where
  admitted : ∀ admitted ∈ scan.admitted, (admitted.1.id, admitted.1.lookup) ∈ lookupsOf trace
  completed : ∀ completion ∈ scan.completed,
    (completion.1.id, completion.1.lookup) ∈ lookupsOf trace
  waiting : ∀ entry ∈ scan.waiting, ∀ lookup ∈ entry.lookup,
    (entry.id, lookup) ∈ lookupsOf trace

theorem Looks.reported {entry : Entry} {job : Job}
    (h : Looks engine nowMs entry world job world')
    (he : ∀ lookup ∈ entry.lookup, (entry.id, lookup) ∈ lookupsOf world.trace) :
    (job.id, job.lookup) ∈ lookupsOf world'.trace ∧
      lookupsOf world.trace ⊆ lookupsOf world'.trace := by
  rcases h.lookups with ⟨hsame, hl⟩ | hnew
  · rw [hsame, h.id_eq]
    exact ⟨he _ hl, List.Subset.refl _⟩
  · rw [hnew]
    exact ⟨List.mem_append_right _ (List.mem_singleton_self _), List.subset_append_left _ _⟩

theorem Scans.reported
    (h : Scans engine nowMs tokenBudget seats entries world scan world')
    (he : ∀ entry ∈ entries, ∀ lookup ∈ entry.lookup,
      (entry.id, lookup) ∈ lookupsOf world.trace) :
    scan.Reported world'.trace ∧ lookupsOf world.trace ⊆ lookupsOf world'.trace := by
  induction h with
  | nil => exact ⟨⟨by simp, by simp, by simp⟩, List.Subset.refl _⟩
  | full => exact ⟨⟨by simp, by simp, he⟩, List.Subset.refl _⟩
  | load hlook _ _ _ ih =>
    obtain ⟨hjob, hsub⟩ := hlook.reported (he _ (List.mem_cons_self ..))
    obtain ⟨hrest, hsub'⟩ := ih fun entry hentry lookup hl ↦
      hsub (he entry (List.mem_cons_of_mem _ hentry) lookup hl)
    exact ⟨⟨List.forall_mem_cons.mpr ⟨hsub' hjob, hrest.admitted⟩, hrest.completed,
      hrest.waiting⟩, List.Subset.trans hsub hsub'⟩
  | finish hlook _ _ hdone _ ih =>
    obtain ⟨hjob, hsub⟩ := hlook.reported (he _ (List.mem_cons_self ..))
    obtain ⟨hrest, hsub'⟩ := ih fun entry hentry lookup hl ↦
      hsub (he entry (List.mem_cons_of_mem _ hentry) lookup hl)
    refine ⟨⟨hrest.admitted, List.forall_mem_cons.mpr ⟨?_, hrest.completed⟩, hrest.waiting⟩,
      List.Subset.trans hsub hsub'⟩
    rw [(Job.complete_ok hdone).1]
    exact hsub' hjob
  | stop hlook =>
    obtain ⟨hjob, hsub⟩ := hlook.reported (he _ (List.mem_cons_self ..))
    refine ⟨⟨by simp, by simp, List.forall_mem_cons.mpr ⟨?_, ?_⟩⟩, hsub⟩
    · intro lookup hl
      cases hl
      exact hjob
    · intro entry hentry lookup hl
      exact hsub (he entry (List.mem_cons_of_mem _ hentry) lookup hl)
  | enter hlook _ _ _ ih =>
    obtain ⟨hjob, hsub⟩ := hlook.reported (he _ (List.mem_cons_self ..))
    obtain ⟨hrest, hsub'⟩ := ih fun entry hentry lookup hl ↦
      hsub (he entry (List.mem_cons_of_mem _ hentry) lookup hl)
    exact ⟨⟨List.forall_mem_cons.mpr ⟨hsub' hjob, hrest.admitted⟩, hrest.completed,
      hrest.waiting⟩, List.Subset.trans hsub hsub'⟩

/-- With chunking disabled whoever lacks more than a batch may hold goes on waiting. -/
theorem Scans.oversized
    (h : Scans engine nowMs tokenBudget seats entries world scan world')
    (hc : engine.config.enableChunkedPrefill = false)
    (hb : tokenBudget ≤ engine.config.maxNumBatchedTokens)
    (hw : ∀ entry ∈ entries, entry.Waiting engine.timelineMode nowMs lostMs)
    {item : String × LookupMetrics} (hitem : item.2.Oversized engine.config)
    (hin : (∃ entry ∈ entries, entry.Holds item) ∨
      item ∈ lookupsOf world'.trace ∧ item ∉ lookupsOf world.trace) :
    ∃ entry ∈ scan.waiting, entry.Holds item := by
  -- a request that is dealt with lacks no more than the budget
  have hdealt : ∀ {entry : Entry} {job : Job} {world world' : World C K},
      Looks engine nowMs entry world job world' →
      entry.Waiting engine.timelineMode nowMs lostMs →
      job.state.remaining ≤ engine.config.maxNumBatchedTokens →
      ¬entry.Holds item ∧ (item ∈ lookupsOf world'.trace → item ∈ lookupsOf world.trace) := by
    intro entry job world world' hlook hentry hle
    rw [(hentry.look hlook).remaining_eq] at hle
    rcases hlook.lookups with ⟨hsame, hl⟩ | hnew
    · refine ⟨?_, fun hmem ↦ hsame ▸ hmem⟩
      rintro ⟨-, hl'⟩
      have hsame' : job.lookup = item.2 := Option.some.inj (hl.symm.trans hl')
      rw [hsame'] at hle
      exact absurd hitem (not_lt.mpr hle)
    · constructor
      · rintro ⟨-, hl'⟩
        cases hlook with
        | known => exact absurd (congrArg List.length hnew) (by simp)
        | fresh hl => exact absurd (hl.symm.trans hl') (by simp)
      · intro hmem
        rw [hnew] at hmem
        rcases List.mem_append.mp hmem with hmem | hmem
        · exact hmem
        · rw [List.mem_singleton.mp hmem] at hitem
          exact absurd hitem (not_lt.mpr hle)
  induction h with
  | nil =>
    rcases hin with ⟨entry, he, -⟩ | ⟨hmem, hno⟩
    · cases he
    · exact absurd hmem hno
  | full =>
    rcases hin with hin | ⟨hmem, hno⟩
    · exact hin
    · exact absurd hmem hno
  | load hlook hr _ _ ih =>
    obtain ⟨hhead, hkept⟩ := hdealt hlook (hw _ (List.mem_cons_self ..)) (by omega)
    refine ih hb (List.forall_mem_of_forall_mem_cons hw) ?_
    rcases hin with ⟨entry, he, hholds⟩ | ⟨hmem, hno⟩
    · rcases List.mem_cons.mp he with rfl | he
      · exact absurd hholds hhead
      · exact .inl ⟨entry, he, hholds⟩
    · exact .inr ⟨hmem, fun h ↦ hno (hkept h)⟩
  | finish hlook hr _ _ _ ih =>
    obtain ⟨hhead, hkept⟩ := hdealt hlook (hw _ (List.mem_cons_self ..)) (by omega)
    refine ih hb (List.forall_mem_of_forall_mem_cons hw) ?_
    rcases hin with ⟨entry, he, hholds⟩ | ⟨hmem, hno⟩
    · rcases List.mem_cons.mp he with rfl | he
      · exact absurd hholds hhead
      · exact .inl ⟨entry, he, hholds⟩
    · exact .inr ⟨hmem, fun h ↦ hno (hkept h)⟩
  | @stop _ _ entry entries world job world' hlook _ _ =>
    rcases hin with ⟨other, he, hholds⟩ | ⟨hmem, hno⟩
    · rcases List.mem_cons.mp he with rfl | he
      · refine ⟨job.entry, List.mem_cons_self .., ?_, ?_⟩
        · rw [Job.entry_id, hlook.id_eq]
          exact hholds.1
        · cases hlook with
          | known hl => exact hl.symm.trans hholds.2
          | fresh hl => exact absurd (hl.symm.trans hholds.2) (by simp)
      · exact ⟨other, List.mem_cons_of_mem _ he, hholds⟩
    · rcases hlook.lookups with ⟨hsame, -⟩ | hnew
      · exact absurd (hsame ▸ hmem) hno
      · rw [hnew] at hmem
        have hitem_eq := List.mem_singleton.mp ((List.mem_append.mp hmem).resolve_left hno)
        exact ⟨job.entry, List.mem_cons_self .., by rw [hitem_eq]; exact ⟨rfl, rfl⟩⟩
  | @enter tokenBudget _ entry _ _ job _ _ _ hlook hr hg _ ih =>
    have hle : job.state.remaining ≤ tokenBudget := by
      rw [engine.config.grant_unchunked hc hb] at hg
      by_contra hlt
      exact hg (if_pos (not_le.mp hlt))
    obtain ⟨hhead, hkept⟩ := hdealt hlook (hw _ (List.mem_cons_self ..)) (hle.trans hb)
    refine ih ((Nat.sub_le _ _).trans hb) (List.forall_mem_of_forall_mem_cons hw) ?_
    rcases hin with ⟨other, he, hholds⟩ | ⟨hmem, hno⟩
    · rcases List.mem_cons.mp he with rfl | he
      · exact absurd hholds hhead
      · exact .inl ⟨other, he, hholds⟩
    · exact .inr ⟨hmem, fun h ↦ hno (hkept h)⟩

/-- A scan with seats and tokens left that admits nobody and leaves somebody waiting has
stopped at a request that cannot be cut and does not fit. -/
theorem Scans.stuck
    (h : Scans engine nowMs tokenBudget seats entries world scan world') (hs : 0 < seats)
    (hb : 0 < tokenBudget) (hw : ∀ entry ∈ entries, entry.Waiting engine.timelineMode nowMs lostMs)
    (ha : scan.admitted = []) (hleft : scan.waiting ≠ []) :
    engine.config.enableChunkedPrefill = false ∧ ∃ entry ∈ scan.waiting, ∃ lookup ∈ entry.lookup,
      tokenBudget < lookup.missTokens := by
  induction h with
  | nil => exact absurd rfl hleft
  | full => exact absurd hs (lt_irrefl 0)
  | load => cases ha
  | finish _ _ _ _ _ ih => exact ih hs hb (List.forall_mem_of_forall_mem_cons hw) ha hleft
  | @stop tokenBudget _ _ _ _ job _ hlook hr hg =>
    have hready := (hw _ (List.mem_cons_self ..)).look hlook
    have hpos : ¬(engine.config.enableChunkedPrefill = true ∨
        job.state.remaining ≤ tokenBudget) := fun hc ↦
      (engine.config.grant_pos (Nat.pos_of_ne_zero hr) hb hc).ne' hg
    rw [not_or, Bool.not_eq_true, not_le] at hpos
    refine ⟨hpos.1, job.entry, List.mem_cons_self .., job.lookup, rfl, ?_⟩
    rw [← hready.remaining_eq]
    exact hpos.2
  | enter => cases ha

end Scanning

/-- Whoever was looked up is found in the trace. With chunking disabled, whoever was found
to lack more than a batch may hold is still waiting. -/
structure Session.Remembers (config : SchedulerConfig) (trace : List TraceEvent)
    (session : Session) : Prop where
  waiting : ∀ entry ∈ session.waiting, ∀ lookup ∈ entry.lookup,
    (entry.id, lookup) ∈ lookupsOf trace
  running : ∀ job ∈ session.running, (job.id, job.lookup) ∈ lookupsOf trace
  completed : ∀ completion ∈ session.completed,
    (completion.1.id, completion.1.lookup) ∈ lookupsOf trace
  oversized : config.enableChunkedPrefill = false → ∀ item ∈ lookupsOf trace,
    item.2.Oversized config → ∃ entry ∈ session.waiting, entry.Holds item

theorem Session.start_remembers (config : SchedulerConfig)
    (transferQueue : SharedLinkFIFOTransferQueue) (request : SimulationRequest)
    (pending : List SimulationRequest) :
    (Session.start transferQueue request pending).Remembers config [] where
  waiting := by simp [Session.start]
  running := by simp [Session.start]
  completed := by simp [Session.start]
  oversized := by simp [lookupsOf]

theorem Receives.remembers {session received : Session} {trace : List TraceEvent}
    (h : Receives engine session received) (hr : session.Remembers engine.config trace) :
    received.Remembers engine.config trace := by
  obtain ⟨⟨entries, taken, -, he, -, hall, -⟩, -⟩ := h
  rw [he]
  refine ⟨?_, hr.running, hr.completed, ?_⟩
  · intro entry hentry lookup hl
    rcases List.mem_append.mp hentry with hentry | hentry
    · exact hr.waiting entry hentry lookup hl
    · rw [(hall entry hentry).2.1] at hl
      cases hl
  · intro hc item hitem hover
    obtain ⟨entry, hentry, hholds⟩ := hr.oversized hc item hitem hover
    exact ⟨entry, List.mem_append_left _ hentry, hholds⟩

theorem Prepares.remembers {session : Session} {frontier : Frontier} {world world' : World C K}
    (h : Prepares engine session world frontier world')
    (hw : session.Wf engine.config engine.timelineMode requests)
    (hr : session.Remembers engine.config world.trace) :
    frontier.toScan.Reported world'.trace ∧ lookupsOf world.trace ⊆ lookupsOf world'.trace ∧
      (engine.config.enableChunkedPrefill = false → ∀ item ∈ lookupsOf world'.trace,
        item.2.Oversized engine.config → ∃ entry ∈ frontier.waiting, entry.Holds item) := by
  rcases h.scanned with ⟨-, hscan, rfl⟩ | ⟨-, hscan⟩
  · rw [hscan]
    exact ⟨⟨by simp, by simp, hr.waiting⟩, List.Subset.refl _, hr.oversized⟩
  · obtain ⟨hreported, hsub⟩ := hscan.reported hr.waiting
    refine ⟨hreported, hsub, fun hc item hitem hover ↦ ?_⟩
    apply hscan.oversized hc (Nat.sub_le _ _) hw.waiting hover
    by_cases hold : item ∈ lookupsOf world.trace
    · exact .inl (hr.oversized hc item hold hover)
    · exact .inr ⟨hitem, hold⟩

theorem Outcome.named {facts : IterationFacts} {batch : List (Job × Option ScheduledSlice)}
    {served : List (ScheduledSlice × SliceRecord)} {job : Job} {Q : String → LookupMetrics → Prop}
    (h : Outcome engine facts batch served job)
    (hb : ∀ item ∈ batch, Q item.1.id item.1.lookup) : Q job.id job.lookup := by
  cases h with
  | idle hjob =>
    rw [Job.sitOut_id]
    exact hb _ hjob
  | @served job slice progress _ hjob _ hadvanced =>
    have hid : (job.served slice facts.durationMs progress).id = job.id :=
      (congrArg RequestState.requestId hadvanced.progressed.standing_eq :)
    rw [hid]
    exact hb _ hjob

theorem Iterates.lookups_eq {instanceUuid : String} {session session' : Session}
    {frontier : Frontier} {world world' : World C K} (h : frontier.Prepared engine session)
    (hi : Iterates engine instanceUuid session frontier world session' world') :
    lookupsOf world'.trace = lookupsOf world.trace := by
  obtain ⟨hg, hadm, -, -, hlatency, -, happlies, -⟩ := hi
  rename_i granted admitted shape latency world₁ breakdown applied world₂ metric
  obtain ⟨memo, -, hmemo⟩ := estimate_latency_ok hlatency
  have hworld := (happlies.outcomes (h.batched hg hadm)).world_eq
  show lookupsOf (world₂.trace ++ [_]) = _
  rw [lookups_of_append, hworld, hmemo]
  exact List.append_nil _

theorem Prepares.emptied_remembers {session : Session} {frontier : Frontier}
    {world world' : World C K} (h : Prepares engine session world frontier world')
    (hw : session.Wf engine.config engine.timelineMode requests)
    (hr : session.Remembers engine.config world.trace) (hempty : frontier.Empty) (nowMs : ℚ) :
    (session.emptied frontier nowMs).Remembers engine.config (engine.drained world').trace := by
  obtain ⟨hreported, hsub, hover⟩ := h.remembers hw hr
  refine ⟨by simp [Session.emptied], by simp [Session.emptied], ?_, ?_⟩
  · intro completion hc
    rcases List.mem_append.mp hc with hc | hc
    · exact hsub (hr.completed completion hc)
    · exact hreported.completed completion hc
  · intro hc item hitem hitem'
    obtain ⟨entry, he, -⟩ := hover hc item hitem hitem'
    rw [hempty.1] at he
    cases he

theorem Prepares.iterated_remembers {instanceUuid : String} {session session' : Session}
    {frontier : Frontier} {world world₁ world' : World C K}
    (h : Prepares engine session world frontier world₁)
    (hw : session.Wf engine.config engine.timelineMode requests)
    (hr : session.Remembers engine.config world.trace)
    (hi : Iterates engine instanceUuid session frontier (engine.drained world₁) session' world') :
    session'.Remembers engine.config world'.trace := by
  have hprepared := h.prepared hw
  obtain ⟨hreported, hsub, hover⟩ := h.remembers hw hr
  have hsame : lookupsOf world'.trace = lookupsOf (engine.drained world₁).trace :=
    hi.lookups_eq hprepared
  change lookupsOf world'.trace = lookupsOf world₁.trace at hsame
  obtain ⟨hg, hadm, -, -, -, -, happlies, -⟩ := hi
  have houtcomes := happlies.outcomes (hprepared.batched hg hadm)
  have hid : ∀ job : Job, job.handOver.id = job.id := fun job ↦
    RequestState.consumed_request_id job.state
  have hbatch := hprepared.batch_forall
    (Q := fun job ↦ (job.id, job.lookup) ∈ lookupsOf world₁.trace) hg hadm
    (fun job hj ↦ hsub (hr.running job hj)) hreported.admitted
    (fun job hj ↦ by rw [hid]; exact hj) fun _ hj ↦ hj
  constructor
  · intro entry he lookup hl
    obtain ⟨kept, hk, rfl⟩ := List.mem_map.mp he
    rw [hsame, Entry.sitOut_id]
    exact hreported.waiting kept hk lookup hl
  · intro job hj
    rw [hsame]
    exact (houtcomes.running job hj).named (Q := fun id lookup ↦
      (id, lookup) ∈ lookupsOf world₁.trace) hbatch
  · intro completion hc
    rw [hsame]
    rcases List.mem_append.mp hc with hc | hc
    · rcases List.mem_append.mp hc with hc | hc
      · exact hsub (hr.completed completion hc)
      · exact hreported.completed completion hc
    · exact (houtcomes.completed completion hc).named (Q := fun id lookup ↦
        (id, lookup) ∈ lookupsOf world₁.trace) hbatch
  · intro hc item hitem hitem'
    obtain ⟨entry, he, hholds⟩ := hover hc item (hsame ▸ hitem) hitem'
    exact ⟨_, List.mem_map_of_mem he, (Entry.sitOut_id ..).trans hholds.1, hholds.2⟩

theorem Passes.remembers {instanceUuid : String} {session : Session} {flow : Flow Session}
    {world world' : World C K} (h : Passes engine instanceUuid session world flow world')
    (hw : session.Wf engine.config engine.timelineMode requests)
    (hr : session.Remembers engine.config world.trace) :
    flow.state.Remembers engine.config world'.trace := by
  cases h with
  | jump hreceive =>
    have hrec := hreceive.remembers hr
    exact ⟨hrec.waiting, hrec.running, hrec.completed, hrec.oversized⟩
  | idle hreceive => exact hreceive.remembers hr
  | skip hreceive _ hprepares hempty =>
    exact hprepares.emptied_remembers (hreceive.wf hw) (hreceive.remembers hr) hempty _
  | finish hreceive _ hprepares hempty =>
    exact hprepares.emptied_remembers (hreceive.wf hw) (hreceive.remembers hr) hempty _
  | batch hreceive _ hprepares _ hiterates =>
    exact hprepares.iterated_remembers (hreceive.wf hw) (hreceive.remembers hr) hiterates

/-- A batch is empty only when chunking is disabled and somebody lacks more than a batch may
hold. -/
theorem Prepares.stuck {session : Session} {frontier : Frontier} {world world' : World C K}
    (h : Prepares engine session world frontier world')
    (hw : session.Wf engine.config engine.timelineMode requests)
    (hr : session.Remembers engine.config world.trace) (hleft : ¬frontier.Empty)
    (hg : frontier.granted = []) (ha : frontier.admitted = []) :
    engine.config.enableChunkedPrefill = false ∧
      ∃ item ∈ lookupsOf world'.trace, item.2.Oversized engine.config := by
  have htokens := engine.config.tokens_pos
  have hseats := engine.config.seqs_pos
  obtain ⟨hreported, -⟩ := h.remembers hw hr
  have hidle : frontier.idle = [] := by
    have hserved := h.served
    cases hrun : session.running with
    | nil =>
      rw [hrun] at hserved
      exact (congrArg Prod.snd hserved).symm
    | cons job jobs =>
      rw [hrun] at hserved
      unfold serve at hserved
      rw [if_neg (by omega)] at hserved
      rw [hg] at hserved
      cases hserved
  have hwaiting : frontier.waiting ≠ [] := fun hn ↦ hleft ⟨hn, ha, hg, hidle⟩
  rcases h.scanned with ⟨hb, -⟩ | ⟨hb, hscan⟩
  · rw [hg] at hb
    exact absurd hb (by simp [grantedTokens]; omega)
  · rw [hg] at hscan
    obtain ⟨hc, entry, he, lookup, hl, hlt⟩ := hscan.stuck hseats htokens hw.waiting ha hwaiting
    exact ⟨hc, (entry.id, lookup), hreported.waiting entry he lookup hl, hlt⟩

end InferTwin
