import InferTwin.Replay.Estimates
import InferTwin.Sample

namespace InferTwin

open Effect

variable {C K : Type}

/-! Only `_estimate_latency` touches the memo. -/

/-- However the computation ends, it leaves the memo as it is. -/
abbrev KeepsMemo {α : Type} (x : Replay C K α) : Prop :=
  ∀ memo, Keeps (fun world : World C K ↦ world.memo = memo) x

section Frame

variable (engine : Engine C K)

theorem record_keeps_memo (event : TraceEvent) :
    KeepsMemo (record event : Replay C K Unit) := fun _ _ h ↦ h

theorem drain_keeps_memo : KeepsMemo engine.drainCacheEvents := fun _ _ h ↦ h

theorem on_cache_keeps_memo {α : Type} (x : EStateM CacheError C α) :
    KeepsMemo (onCache x : Replay C K α) := fun _ ↦ .zoom _ fun _ _ h ↦ h

theorem on_materialization_keeps_memo {α : Type} (x : EStateM MaterializationError C α) :
    KeepsMemo (onMaterialization x : Replay C K α) := fun _ ↦ .zoom _ fun _ _ h ↦ h

theorem ensure_lookup_keeps_memo (nowMs : ℚ) (ref : ℕ) (request : SimulationRequest)
    (locals : Locals) : KeepsMemo (engine.ensureLookup nowMs ref request locals) := by
  intro memo
  unfold Engine.ensureLookup Engine.lookupRequest
  split_ifs
  · exact .pure _
  refine .bind ?_ fun _ ↦ .pure _
  refine .bind (on_cache_keeps_memo _ memo) fun lookup ↦ .bind (record_keeps_memo _ memo) fun _ ↦ ?_
  refine .bind (.check _) fun metrics ↦ .bind (record_keeps_memo _ memo) fun _ ↦ ?_
  exact .bind (.check _) fun _ ↦ .pure _

theorem prepare_running_keeps_memo (nowMs : ℚ) (refs : List ℕ) (locals : Locals) :
    KeepsMemo (engine.prepareRunning nowMs refs locals) := by
  intro memo
  induction refs generalizing locals with
  | nil => exact .pure _
  | cons ref refs ih =>
    unfold Engine.prepareRunning
    refine .bind (.check _) fun request ↦ ?_
    exact .bind (ensure_lookup_keeps_memo engine _ _ _ _ memo) fun locals ↦ ih locals

theorem scan_waiting_keeps_memo (nowMs : ℚ) (index : ℕ) (refs : List ℕ) (frontier : FrontierPlan)
    (locals : Locals) : KeepsMemo (engine.scanWaiting nowMs index refs frontier locals) := by
  intro memo
  induction refs generalizing index frontier locals with
  | nil => exact .pure _
  | cons ref refs ih =>
    unfold Engine.scanWaiting
    by_cases hseats : frontier.plannedSlices ≥ engine.config.maxNumSeqs
    · rw [if_pos hseats]
      exact .pure _
    rw [if_neg hseats]
    refine .bind (.check _) fun request ↦ ?_
    refine .bind (ensure_lookup_keeps_memo engine _ _ _ _ memo) fun locals ↦ ?_
    refine .bind (.check _) fun remaining ↦ ?_
    split_ifs
    · refine .bind (.check _) fun pendingKvLoad ↦ ?_
      split_ifs
      · exact ih _ _ _
      · refine .bind (.check _) fun _ ↦ .bind (.check _) fun _ ↦ .bind (.check _) fun locals ↦ ?_
        exact ih _ _ locals
    · exact .pure _
    · refine .bind (.check _) fun plannedTokens ↦ ?_
      split_ifs
      · exact .pure _
      · exact ih _ _ _

theorem prepare_scheduler_frontier_keeps_memo (nowMs : ℚ) (locals : Locals) :
    KeepsMemo (engine.prepareSchedulerFrontier nowMs locals) := by
  intro memo
  unfold Engine.prepareSchedulerFrontier
  refine .bind (prepare_running_keeps_memo engine _ _ _ memo) fun locals ↦ ?_
  refine .bind (.check _) fun locals ↦ .bind ?_ fun _ ↦ .pure _
  unfold Engine.prepareWaitingFrontier
  refine .bind (.check _) fun planned ↦ ?_
  obtain ⟨done, frontier⟩ := planned
  dsimp only
  split_ifs
  · exact .pure _
  · exact scan_waiting_keeps_memo engine _ _ _ _ _ memo

theorem plan_pass_keeps_memo (instanceUuid : String) (state : LoopState) :
    KeepsMemo (engine.planPass instanceUuid state) := by
  intro memo
  unfold Engine.planPass
  refine .bind (.check _) fun moved ↦ ?_
  obtain ⟨pending, pendingIndex, locals⟩ := moved
  dsimp only
  split_ifs
  · cases pending with
    | nil => exact .throw _
    | cons request pending => exact .pure _
  refine .bind (prepare_scheduler_frontier_keeps_memo engine _ _ memo) fun prepared ↦ ?_
  refine .bind (drain_keeps_memo engine memo) fun _ ↦ ?_
  obtain ⟨frontier, locals⟩ := prepared
  dsimp only
  split_ifs
  · cases pending with
    | nil => exact .pure _
    | cons request pending => exact .pure _
  refine .bind (.check _) fun scheduled ↦ ?_
  obtain ⟨shape, admission⟩ := scheduled
  dsimp only
  split_ifs
  · exact .bind (.throw _) fun _ ↦ .pure _
  · exact .pure _

theorem advance_slice_keeps_memo (slice : ScheduledSlice) (lookup : LookupMetrics) (finishMs : ℚ)
    (progress : SliceProgress) :
    KeepsMemo (engine.advanceSlice slice lookup finishMs progress) := by
  intro memo
  unfold Engine.advanceSlice
  split_ifs
  · exact .bind (.check _) fun _ ↦ .pure _
  · refine .bind (.check _) fun state ↦ ?_
    cases hmode : engine.timelineMode
    all_goals simp only [Engine.materializeScheduledChunk, hmode]
    · exact .pure _
    · exact .bind (on_materialization_keeps_memo _ memo) fun _ ↦ .pure _

theorem complete_slice_keeps_memo (lookup : LookupMetrics)
    (request : Except ReplayError SimulationRequest) (finishMs : ℚ) (progress : SliceProgress) :
    KeepsMemo (engine.completeSlice lookup request finishMs progress) := by
  intro memo
  unfold Engine.completeSlice
  split_ifs
  · refine .bind (.pure _) fun _ ↦ .bind (.check _) fun _ ↦ .bind (.check _) fun _ ↦ .pure _
  · refine .bind ?_ fun _ ↦ .bind (.check _) fun _ ↦ .bind (.check _) fun _ ↦ .pure _
    cases hmode : engine.timelineMode
    all_goals
      simp only [Engine.materializeFinishedRequest, hmode]
      exact .bind (on_materialization_keeps_memo _ memo) fun _ ↦ .pure _
  · cases engine.timelineMode <;> exact .pure _

theorem apply_slices_keeps_memo (startTimeMs finishMs : ℚ)
    (contributions : Dict String IterationLatencyBreakdown) (slices : List ScheduledSlice)
    (totals : IterationTotals) (records : List SliceRecord) (locals : Locals) :
    KeepsMemo
      (engine.applySlices startTimeMs finishMs contributions slices totals records locals) := by
  intro memo
  induction slices generalizing totals records locals with
  | nil => exact .pure _
  | cons slice slices ih =>
    unfold Engine.applySlices Engine.applySlice
    refine .bind (.check _) fun ref ↦ .bind (.check _) fun lookup ↦ ?_
    refine .bind (.check _) fun contribution ↦ .bind ?_ fun _ ↦ ih _ _ _
    refine .bind (.check _) fun progress ↦ ?_
    refine .bind (advance_slice_keeps_memo engine _ _ _ _ memo) fun progress ↦ ?_
    exact complete_slice_keeps_memo engine _ _ _ _ memo

theorem finish_pass_keeps_memo (state : LoopState) (planned : Engine.PlannedPass)
    (latency : LatencyResult) : KeepsMemo (engine.finishPass state planned latency) := by
  intro memo
  unfold Engine.finishPass Engine.applyScheduleResult
  refine .bind (.check _) fun waited ↦ .bind ?_ fun _ ↦ .bind (drain_keeps_memo engine memo) fun _ ↦
    .pure _
  refine .bind (.check _) fun contributions ↦ ?_
  refine .bind (apply_slices_keeps_memo engine _ _ _ _ _ _ _ memo) fun applied ↦ ?_
  exact .bind (.check _) fun metric ↦ .bind (record_keeps_memo _ memo) fun _ ↦ .pure _

end Frame

/-! What a memo remembers of the estimates it was asked for. -/

/-- The backend has a result for each shape of this key. -/
def BatchLatencyBackend.Answers (backend : BatchLatencyBackend) (key : ShapeKey) : Prop :=
  ∀ shape, backend.shapeKey shape = key →
    ∃ result, backend.estimateIteration shape = .ok result ∧ result.shapeKey = key

/-- A result of the backend for this key, as the memo stores it. -/
def BatchLatencyBackend.ResultOf (backend : BatchLatencyBackend) (key : ShapeKey)
    (result : LatencyResult) : Prop :=
  ∃ shape computed, backend.shapeKey shape = key ∧
    backend.estimateIteration shape = .ok computed ∧ result = { computed with memoized := false }

/-- The memo holds what it held at first and the results of the log, none of which was computed
twice. -/
structure Remembers (backend : BatchLatencyBackend) (initial : ShapeMemo) (log : List Estimate)
    (memo : ShapeMemo) : Prop where
  kept : ∀ key result, initial.lookup key = some result → memo.lookup key = some result
  filled : ∀ key result, memo.lookup key = some result →
    initial.lookup key = some result ∨ backend.ResultOf key result
  occurred : ∀ estimate ∈ log, backend.Answers estimate.key →
    ∃ result, memo.lookup estimate.key = some result
  once : ∀ key, backend.Answers key → log.count { key, computed := true } ≤ 1
  fresh : ∀ estimate ∈ log, estimate.computed = true → initial.lookup estimate.key = none

section Remembers

variable {backend : BatchLatencyBackend} {initial memo : ShapeMemo} {log : List Estimate}

theorem Remembers.start (backend : BatchLatencyBackend) (initial : ShapeMemo) :
    Remembers backend initial [] initial where
  kept _ _ h := h
  filled _ _ h := .inl h
  occurred := by simp
  once := by simp
  fresh := by simp

theorem Remembers.initial_none (h : Remembers backend initial log memo) {key : ShapeKey}
    (hnone : memo.lookup key = none) : initial.lookup key = none := by
  cases hinitial : initial.lookup key with
  | none => rfl
  | some result =>
    have hkept := h.kept key result hinitial
    rw [hnone] at hkept
    cases hkept

/-- A stored result is served without a call. -/
theorem Remembers.served (h : Remembers backend initial log memo) {key : ShapeKey}
    {stored : LatencyResult} (hstored : memo.lookup key = some stored) :
    Remembers backend initial (log ++ [{ key, computed := false }]) memo where
  kept := h.kept
  filled := h.filled
  occurred := by
    intro estimate hmem hanswers
    rcases List.mem_append.mp hmem with hold | hnew
    · exact h.occurred estimate hold hanswers
    · rw [List.mem_singleton.mp hnew]
      exact ⟨stored, hstored⟩
  once := by
    intro other hanswers
    rw [List.count_append, List.count_singleton]
    simpa using h.once other hanswers
  fresh := by
    intro estimate hmem hcomputed
    rcases List.mem_append.mp hmem with hold | hnew
    · exact h.fresh estimate hold hcomputed
    · rw [List.mem_singleton.mp hnew] at hcomputed
      cases hcomputed

/-- A call whose result is not stored. -/
theorem Remembers.lost (h : Remembers backend initial log memo) {key : ShapeKey}
    (hnone : memo.lookup key = none) (hlost : ¬ backend.Answers key) :
    Remembers backend initial (log ++ [{ key, computed := true }]) memo where
  kept := h.kept
  filled := h.filled
  occurred := by
    intro estimate hmem hanswers
    rcases List.mem_append.mp hmem with hold | hnew
    · exact h.occurred estimate hold hanswers
    · rw [List.mem_singleton.mp hnew] at hanswers
      exact absurd hanswers hlost
  once := by
    intro other hanswers
    have hne : key ≠ other := by
      rintro rfl
      exact hlost hanswers
    rw [List.count_append, List.count_singleton]
    simpa [hne] using h.once other hanswers
  fresh := by
    intro estimate hmem hcomputed
    rcases List.mem_append.mp hmem with hold | hnew
    · exact h.fresh estimate hold hcomputed
    · rw [List.mem_singleton.mp hnew]
      exact h.initial_none hnone

theorem Remembers.grown (h : Remembers backend initial log memo) {key : ShapeKey}
    {result : LatencyResult} (hnone : memo.lookup key = none)
    (hresult : backend.ResultOf key result) :
    Remembers backend initial (log ++ [{ key, computed := true }]) (memo.insert key result) where
  kept := by
    intro other stored hstored
    have hother := h.kept other stored hstored
    have hne : other ≠ key := by
      rintro rfl
      rw [hnone] at hother
      cases hother
    rw [Finmap.lookup_insert_of_ne _ hne]
    exact hother
  filled := by
    intro other stored hstored
    rcases eq_or_ne other key with rfl | hne
    · rw [Finmap.lookup_insert] at hstored
      cases hstored
      exact .inr hresult
    · rw [Finmap.lookup_insert_of_ne _ hne] at hstored
      exact h.filled other stored hstored
  occurred := by
    intro estimate hmem hanswers
    rcases eq_or_ne estimate.key key with heq | hne
    · exact ⟨result, by rw [heq, Finmap.lookup_insert]⟩
    · rw [Finmap.lookup_insert_of_ne _ hne]
      rcases List.mem_append.mp hmem with hold | hnew
      · exact h.occurred estimate hold hanswers
      · exact absurd (congrArg Estimate.key (List.mem_singleton.mp hnew)) hne
  once := by
    intro other hanswers
    rw [List.count_append, List.count_singleton]
    rcases eq_or_ne key other with rfl | hne
    · have hcount : log.count { key, computed := true } = 0 := by
        rw [List.count_eq_zero]
        intro hmem
        obtain ⟨stored, hstored⟩ := h.occurred _ hmem hanswers
        rw [hnone] at hstored
        cases hstored
      rw [hcount]
      simp
    · simpa [hne] using h.once other hanswers
  fresh := by
    intro estimate hmem hcomputed
    rcases List.mem_append.mp hmem with hold | hnew
    · exact h.fresh estimate hold hcomputed
    · rw [List.mem_singleton.mp hnew]
      exact h.initial_none hnone

/-- One call of `get_or_compute`, whether it returns or not. -/
theorem Remembers.estimate (h : Remembers backend initial log memo) (shape : BatchShape) :
    Remembers backend initial
      (log ++ [{
        key := backend.shapeKey shape
        computed := (memo.lookup (backend.shapeKey shape)).isNone }])
      (after (ShapeMemo.getOrCompute (backend.shapeKey shape) (backend.estimateIteration shape)
        memo)) := by
  unfold ShapeMemo.getOrCompute ShapeMemo.get
  cases hstored : memo.lookup (backend.shapeKey shape) with
  | some stored => exact h.served hstored
  | none =>
    cases hresult : backend.estimateIteration shape with
    | error e =>
      refine h.lost hstored fun hanswers ↦ ?_
      obtain ⟨result, hok, -⟩ := hanswers shape rfl
      rw [hresult] at hok
      cases hok
    | ok result =>
      simp only [Option.map_none, Option.isNone_none]
      split_ifs with hkey
      · refine h.lost hstored fun hanswers ↦ ?_
        obtain ⟨other, hok, hother⟩ := hanswers shape rfl
        rw [hresult] at hok
        cases hok
        exact hkey hother
      · rw [not_not] at hkey
        have hput : memo.put result =
            memo.insert (backend.shapeKey shape) { result with memoized := false } := by
          rw [ShapeMemo.put, hkey]
        rw [after_ok, hput]
        exact h.grown hstored ⟨shape, result, rfl, hresult, rfl⟩

end Remembers

section Logs

variable {backend : BatchLatencyBackend} {initial : ShapeMemo}

/-- What the log and the memo of a replay have to do with each other. -/
abbrev WorldRemembers (backend : BatchLatencyBackend) (initial : ShapeMemo)
    (logged : List Estimate × World C K) : Prop :=
  Remembers backend initial logged.1 logged.2.memo

abbrev SharedRemembers (backend : BatchLatencyBackend) (initial : ShapeMemo)
    (logged : List Estimate × Shared K) : Prop :=
  Remembers backend initial logged.1 logged.2.memo

theorem quiet_remembers {α : Type} {x : Replay C K α} (h : KeepsMemo x) :
    Keeps (WorldRemembers backend initial) (quiet x) := by
  rintro ⟨log, world⟩ hr
  have hmemo := h world.memo world rfl
  unfold quiet zoom
  dsimp only
  generalize x world = u at hmemo ⊢
  cases u with
  | ok a world' =>
    rw [after_ok] at hmemo
    show Remembers backend initial log world'.memo
    rw [hmemo]
    exact hr
  | error e world' =>
    rw [after_error] at hmemo
    show Remembers backend initial log world'.memo
    rw [hmemo]
    exact hr

variable {engine : Engine C K}

theorem estimate_latency_remembers (hbackend : engine.latencyBackend = backend)
    (shape : BatchShape) :
    Keeps (WorldRemembers backend initial) (engine.estimateLatencyLogged shape) := by
  rintro ⟨log, world⟩ hr
  have hestimate := Remembers.estimate hr shape
  unfold Engine.estimateLatencyLogged quiet Engine.estimateLatency onMemo
  subst hbackend
  simp only [bind_apply, modify_apply, zoom]
  cases hget : ShapeMemo.getOrCompute (engine.latencyBackend.shapeKey shape)
    (engine.latencyBackend.estimateIteration shape) world.memo with
  | ok latency memo =>
    rw [hget] at hestimate
    exact hestimate
  | error e memo =>
    rw [hget] at hestimate
    exact hestimate

theorem loop_body_remembers (hbackend : engine.latencyBackend = backend) (instanceUuid : String)
    (state : LoopState) :
    Keeps (WorldRemembers backend initial) (engine.loopBodyLogged instanceUuid state) := by
  unfold Engine.loopBodyLogged
  refine .bind (quiet_remembers (plan_pass_keeps_memo engine instanceUuid state)) fun planned ↦ ?_
  cases planned with
  | inl flow => exact .pure flow
  | inr planned =>
    refine .bind (estimate_latency_remembers hbackend planned.shape) fun latency ↦ ?_
    exact quiet_remembers (finish_pass_keeps_memo engine state planned latency)

theorem run_loop_remembers (hbackend : engine.latencyBackend = backend) (instanceUuid : String)
    (fuel : ℕ) (state : LoopState) :
    Keeps (WorldRemembers backend initial) (engine.runLoopLogged instanceUuid fuel state) := by
  induction fuel generalizing state with
  | zero => exact .throw _
  | succ fuel ih =>
    unfold Engine.runLoopLogged
    split_ifs
    · exact .pure _
    refine .bind (loop_body_remembers hbackend instanceUuid state) fun flow ↦ ?_
    cases flow with
    | stop state => exact .pure _
    | proceed state => exact ih state

theorem run_instance_remembers (hbackend : engine.latencyBackend = backend)
    (instanceUuid : String) (fuel : ℕ) (requests : List SimulationRequest) :
    Keeps (WorldRemembers backend initial)
      (engine.runInstanceLogged instanceUuid fuel requests) := by
  unfold Engine.runInstanceLogged
  cases SimulationRequest.sorted requests with
  | nil => exact .pure _
  | cons request pending =>
    refine .bind (quiet_remembers fun _ ↦ .check _) fun queue ↦ ?_
    refine .bind (run_loop_remembers hbackend instanceUuid fuel _) fun state ↦ ?_
    exact .bind (quiet_remembers (drain_keeps_memo engine)) fun _ ↦ .pure _

theorem on_instance_remembers {α : Type} (cache : C) {x : Logged (World C K) α}
    (h : Keeps (WorldRemembers backend initial) x) :
    Keeps (SharedRemembers backend initial) (onInstanceLogged cache x) := by
  rintro ⟨log, shared⟩ hr
  have hx := h (log, { cache, sink := shared.sink, memo := shared.memo }) hr
  unfold onInstanceLogged within zoom
  dsimp only
  generalize x _ = u at hx ⊢
  cases u with
  | ok a logged => exact hx
  | error e logged => exact hx

theorem run_remembers {engine : BatchAwareReplayEngine C K}
    (hbackend : engine.latencyBackend = backend) (fuel : ℕ) (requests : List SimulationRequest) :
    Keeps (SharedRemembers backend initial) (engine.runLogged fuel requests) := by
  have hgroups (groups : List (String × List SimulationRequest)) :
      Keeps (SharedRemembers backend initial) (engine.runGroupsLogged fuel groups) := by
    induction groups with
    | nil => exact .pure _
    | cons group groups ih =>
      obtain ⟨instanceUuid, requests⟩ := group
      unfold BatchAwareReplayEngine.runGroupsLogged
      have hinstance := @run_instance_remembers _ _ backend initial
        (engine.forInstance instanceUuid) hbackend instanceUuid fuel requests
      exact .bind (on_instance_remembers _ hinstance) fun result ↦ .bind ih fun rest ↦ .pure _
  unfold BatchAwareReplayEngine.runLogged
  refine .bind (hgroups _) fun result ↦ .bind ?_ fun shared ↦ .pure _
  exact fun _ hr ↦ hr

end Logs

/-! Engines that are constructed with a memo of the caller. -/

/-- The memo objects by reference, the engines with the references of their memos, and the log of
all runs. -/
structure Fleet (C K : Type) where
  memos : ℕ → ShapeMemo
  nextRef : ℕ
  engines : List (BatchAwareReplayEngine C K × ℕ) := []
  log : List Estimate := []

namespace Fleet

/-- A caller with a memo `M`, under the reference zero. -/
def start (M : ShapeMemo) : Fleet C K where
  memos := Function.update (fun _ ↦ ∅) 0 M
  nextRef := 1

/-- `self.shape_memo = shape_memo or ShapeMemo()`: a memo is falsy when its length is zero. -/
def construct (engine : BatchAwareReplayEngine C K) (shapeMemo : Option ℕ) (fleet : Fleet C K) :
    Fleet C K :=
  match shapeMemo with
  | some ref =>
    if (fleet.memos ref).len ≠ 0 then { fleet with engines := fleet.engines ++ [(engine, ref)] }
    else { fleet with
      memos := Function.update fleet.memos fleet.nextRef ∅
      nextRef := fleet.nextRef + 1
      engines := fleet.engines ++ [(engine, fleet.nextRef)] }
  | none => { fleet with
      memos := Function.update fleet.memos fleet.nextRef ∅
      nextRef := fleet.nextRef + 1
      engines := fleet.engines ++ [(engine, fleet.nextRef)] }

/-- A run of one of the engines; a caller may catch its exception. -/
def runEngine (index fuel : ℕ) (sink : K) (requests : List SimulationRequest)
    (fleet : Fleet C K) : Fleet C K :=
  match fleet.engines[index]? with
  | none => fleet
  | some (engine, ref) =>
    let logged := after (engine.runLogged fuel requests
      (fleet.log, { sink, memo := fleet.memos ref }))
    { fleet with memos := Function.update fleet.memos ref logged.2.memo, log := logged.1 }

end Fleet

/-- What a caller does with the memo. -/
inductive FleetCommand (C K : Type)
  | construct (engine : BatchAwareReplayEngine C K)
  | run (index fuel : ℕ) (sink : K) (requests : List SimulationRequest)

namespace Fleet

def step (fleet : Fleet C K) : FleetCommand C K → Fleet C K
  | .construct engine => fleet.construct engine (some 0)
  | .run index fuel sink requests => fleet.runEngine index fuel sink requests

def runAll (M : ShapeMemo) (commands : List (FleetCommand C K)) : Fleet C K :=
  commands.foldl step (start M)

end Fleet

/-- The memo of the caller is the one that is used: it is the memo of each engine, no result that
it held at first was asked of the backend, none was asked for twice, and it holds the result of
each key that occurred. -/
structure Fleet.SharesMemo (backend : BatchLatencyBackend) (M : ShapeMemo) (fleet : Fleet C K) :
    Prop where
  shared : ∀ held ∈ fleet.engines, held.2 = 0
  fresh : ∀ estimate ∈ fleet.log, estimate.computed = true → M.lookup estimate.key = none
  once : ∀ key, backend.Answers key → fleet.log.count { key, computed := true } ≤ 1
  occurred : ∀ estimate ∈ fleet.log, backend.Answers estimate.key →
    ∃ result, (fleet.memos 0).lookup estimate.key = some result ∧
      (M.lookup estimate.key = some result ∨
        M.lookup estimate.key = none ∧ backend.ResultOf estimate.key result)

section Sharing

variable {backend : BatchLatencyBackend} {M : ShapeMemo} {fleet : Fleet C K}

/-- What holds between two commands if the memo was not empty at first. -/
structure Fleet.Sharing (backend : BatchLatencyBackend) (M : ShapeMemo) (fleet : Fleet C K) :
    Prop where
  shared : ∀ held ∈ fleet.engines, held.2 = 0 ∧ held.1.latencyBackend = backend
  remembers : Remembers backend M fleet.log (fleet.memos 0)

theorem Fleet.Sharing.step (hM : M.len ≠ 0) (h : fleet.Sharing backend M)
    {command : FleetCommand C K}
    (hcommand : ∀ engine, command = .construct engine → engine.latencyBackend = backend) :
    (fleet.step command).Sharing backend M := by
  cases command with
  | construct engine =>
    have hlen : (fleet.memos 0).len ≠ 0 := by
      obtain ⟨key, result, hresult⟩ := Dict.len_ne_zero_iff.mp hM
      exact Dict.len_ne_zero_iff.mpr ⟨key, result, h.remembers.kept key result hresult⟩
    unfold Fleet.step Fleet.construct
    simp only [if_pos hlen]
    refine ⟨fun held hheld ↦ ?_, h.remembers⟩
    rcases List.mem_append.mp hheld with hold | hnew
    · exact h.shared held hold
    · rw [List.mem_singleton.mp hnew]
      exact ⟨rfl, hcommand engine rfl⟩
  | run index fuel sink requests =>
    unfold Fleet.step Fleet.runEngine
    dsimp only
    split
    · exact h
    · rename_i engine ref hengine
      obtain ⟨href, hbackend⟩ := h.shared _ (List.mem_of_getElem? hengine)
      dsimp only at href hbackend
      subst href
      refine ⟨h.shared, ?_⟩
      dsimp only
      rw [Function.update_self]
      exact run_remembers hbackend fuel requests (fleet.log, { sink, memo := fleet.memos 0 })
        h.remembers

theorem Fleet.Sharing.shares (h : fleet.Sharing backend M) : fleet.SharesMemo backend M where
  shared held hheld := (h.shared held hheld).1
  fresh := h.remembers.fresh
  once := h.remembers.once
  occurred estimate hmem hanswers := by
    obtain ⟨result, hresult⟩ := h.remembers.occurred estimate hmem hanswers
    refine ⟨result, hresult, ?_⟩
    rcases h.remembers.filled _ _ hresult with hfirst | hcomputed
    · exact .inl hfirst
    · cases hM : M.lookup estimate.key with
      | none => exact .inr ⟨rfl, hcomputed⟩
      | some stored =>
        have hkept := h.remembers.kept _ _ hM
        rw [hresult] at hkept
        exact .inl hkept.symm

/-- What holds between two commands if the memo was empty at first: it is the memo of no engine. -/
structure Fleet.Unshared (fleet : Fleet C K) : Prop where
  empty : (fleet.memos 0).len = 0
  next_pos : 0 < fleet.nextRef
  unshared : ∀ held ∈ fleet.engines, held.2 ≠ 0

theorem Fleet.Unshared.step (h : fleet.Unshared) (command : FleetCommand C K) :
    (fleet.step command).Unshared := by
  cases command with
  | construct engine =>
    unfold Fleet.step Fleet.construct
    simp only [h.empty, ne_eq, not_true_eq_false, if_false]
    refine ⟨?_, Nat.succ_pos _, fun held hheld ↦ ?_⟩
    · dsimp only
      rw [Function.update_of_ne h.next_pos.ne]
      exact h.empty
    · rcases List.mem_append.mp hheld with hold | hnew
      · exact h.unshared held hold
      · rw [List.mem_singleton.mp hnew]
        exact h.next_pos.ne'
  | run index fuel sink requests =>
    unfold Fleet.step Fleet.runEngine
    dsimp only
    split
    · exact h
    · rename_i engine ref hengine
      have href : ref ≠ 0 := h.unshared _ (List.mem_of_getElem? hengine)
      refine ⟨?_, h.next_pos, h.unshared⟩
      dsimp only
      rw [Function.update_of_ne href.symm]
      exact h.empty

/-- A command makes an engine if it constructs one. -/
theorem Fleet.step_engines (fleet : Fleet C K) (command : FleetCommand C K) :
    (fleet.step command).engines ≠ [] ↔
      fleet.engines ≠ [] ∨ ∃ engine, command = .construct engine := by
  cases command with
  | construct engine =>
    unfold Fleet.step Fleet.construct
    dsimp only
    split_ifs <;> simp
  | run index fuel sink requests =>
    unfold Fleet.step Fleet.runEngine
    dsimp only
    split <;> simp

theorem Fleet.run_engines (commands : List (FleetCommand C K)) (fleet : Fleet C K) :
    (commands.foldl step fleet).engines ≠ [] ↔
      fleet.engines ≠ [] ∨ ∃ engine, .construct engine ∈ commands := by
  induction commands generalizing fleet with
  | nil => simp
  | cons command commands ih =>
    rw [List.foldl_cons, ih, fleet.step_engines]
    constructor
    · rintro ((h | ⟨engine, rfl⟩) | ⟨engine, h⟩)
      · exact .inl h
      · exact .inr ⟨engine, List.mem_cons_self⟩
      · exact .inr ⟨engine, List.mem_cons_of_mem _ h⟩
    · rintro (h | ⟨engine, h⟩)
      · exact .inl (.inl h)
      · rcases List.mem_cons.mp h with heq | h
        · exact .inl (.inr ⟨engine, heq.symm⟩)
        · exact .inr ⟨engine, h⟩

/-- Without an engine there is no run. -/
theorem Fleet.run_idle (commands : List (FleetCommand C K))
    (h : ∀ engine, .construct engine ∉ commands) (hfleet : fleet.engines = []) :
    commands.foldl step fleet = fleet := by
  induction commands with
  | nil => rfl
  | cons command commands ih =>
    have hstep : fleet.step command = fleet := by
      cases command with
      | construct engine => exact absurd List.mem_cons_self (h engine)
      | run index fuel sink requests =>
        unfold Fleet.step Fleet.runEngine
        simp only [hfleet, List.getElem?_nil]
    rw [List.foldl_cons, hstep]
    exact ih fun engine hmem ↦ h engine (List.mem_cons_of_mem _ hmem)

theorem Fleet.start_memo (M : ShapeMemo) : (Fleet.start M : Fleet C K).memos 0 = M := by
  simp [Fleet.start]

theorem Fleet.start_sharing (backend : BatchLatencyBackend) (M : ShapeMemo) :
    (Fleet.start M : Fleet C K).Sharing backend M := by
  refine ⟨by simp [Fleet.start], ?_⟩
  rw [Fleet.start_memo]
  exact .start backend M

theorem Fleet.run_sharing (hM : M.len ≠ 0) (commands : List (FleetCommand C K))
    (hcommands : ∀ engine, .construct engine ∈ commands → engine.latencyBackend = backend)
    (h : fleet.Sharing backend M) : (commands.foldl step fleet).Sharing backend M := by
  induction commands generalizing fleet with
  | nil => exact h
  | cons command commands ih =>
    refine ih (fun engine hmem ↦ hcommands engine (List.mem_cons_of_mem _ hmem)) ?_
    refine h.step hM fun engine heq ↦ hcommands engine ?_
    rw [heq]
    exact List.mem_cons_self

theorem Fleet.run_unshared (hM : M.len = 0) (commands : List (FleetCommand C K)) :
    (Fleet.runAll M commands).Unshared := by
  have hstart : (Fleet.start M : Fleet C K).Unshared := by
    refine ⟨?_, Nat.one_pos, by simp [Fleet.start]⟩
    rw [Fleet.start_memo]
    exact hM
  exact List.foldlRecOn commands _ hstart fun fleet h command _ ↦ h.step command

/-- A caller's memo is the one that is used if and only if it is not empty when the first engine is
constructed with it. -/
theorem shares_memo_iff (commands : List (FleetCommand C K))
    (hcommands : ∀ engine, .construct engine ∈ commands → engine.latencyBackend = backend) :
    (Fleet.runAll M commands).SharesMemo backend M ↔
      (M.len ≠ 0 ∨ ∀ engine, .construct engine ∉ commands) := by
  constructor
  · intro h
    by_contra hcond
    push Not at hcond
    obtain ⟨hM, hconstruct⟩ := hcond
    have hengines := (Fleet.run_engines commands (Fleet.start M)).mpr (.inr hconstruct)
    obtain ⟨held, hheld⟩ := List.exists_mem_of_ne_nil _ hengines
    exact (Fleet.run_unshared hM commands).unshared held hheld (h.shared held hheld)
  · rintro (hM | hconstruct)
    · exact (Fleet.run_sharing hM commands hcommands (Fleet.start_sharing backend M)).shares
    · rw [Fleet.runAll, Fleet.run_idle commands hconstruct rfl]
      exact (Fleet.start_sharing backend M).shares

/-- An engine, a second one with the same memo, and a run of each. -/
def twoEngines : List (FleetCommand InfiniteState Unit) := [
  .construct (Sample.fleet Sample.config .progressive),
  .construct (Sample.fleet Sample.config .progressive),
  .run 0 13 () Sample.pair,
  .run 1 13 () Sample.pair]

theorem two_engines_backend (engine : BatchAwareReplayEngine InfiniteState Unit)
    (h : .construct engine ∈ twoEngines) :
    engine.latencyBackend = Sample.formula.toBackend := by
  simp only [twoEngines, List.mem_cons, FleetCommand.construct.injEq, reduceCtorEq,
    List.not_mem_nil, or_false, or_self] at h
  rw [h]
  rfl

def warmKey : ShapeKey where
  backend := "formula"
  modelName := "model"
  hardwareName := "hardware"
  batchSize := 1
  scheduledPrefillTokens := 1
  scheduledDecodeTokens := 0
  maxQueryLen := 1
  totalContextTokens := 1
  kvLoadTokens := 0
  kvLoadBytes := 0
  kvLoadRequestCount := 0

/-- A memo with one result. -/
def warmMemo : ShapeMemo :=
  ShapeMemo.put ∅ {
    durationMs := 1
    backend := "formula"
    shapeKey := warmKey
    duration_nonneg := zero_le_one }

theorem warm_memo_len : warmMemo.len ≠ 0 :=
  Dict.len_ne_zero_iff.mpr ⟨warmKey, _, Finmap.lookup_insert _⟩

theorem shares_memo_iff_warm :
    (Fleet.runAll warmMemo twoEngines).SharesMemo Sample.formula.toBackend warmMemo :=
  (shares_memo_iff twoEngines two_engines_backend).mpr (.inl warm_memo_len)

/-- The empty memo of the caller is still empty after the runs. -/
theorem empty_memo_not_shared :
    ((Fleet.runAll ∅ twoEngines).memos 0).len = 0 ∧
      ¬ (Fleet.runAll ∅ twoEngines).SharesMemo Sample.formula.toBackend ∅ := by
  have hunshared := Fleet.run_unshared (M := ∅) Dict.len_empty twoEngines
  refine ⟨hunshared.empty, fun h ↦ ?_⟩
  have hengines := (Fleet.run_engines twoEngines (Fleet.start ∅)).mpr
    (.inr ⟨_, List.mem_cons_self⟩)
  obtain ⟨held, hheld⟩ := List.exists_mem_of_ne_nil _ hengines
  exact hunshared.unshared held hheld (h.shared held hheld)

end Sharing

end InferTwin
