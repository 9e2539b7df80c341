import InferTwin.Server.Session

namespace InferTwin

open Effect

variable {C K : Type}

/-- The state of a request whose lookup has just been recorded. -/
def RequestState.withLookup (state : RequestState) (lookup : LookupMetrics) : RequestState :=
  { state with
    cachedTokens := lookup.effectiveHitTokens
    missTokens := some lookup.missTokens
    numComputedTokens := lookup.effectiveHitTokens
    pendingKvLoadTokens := lookup.ddrHitTokens
    pendingKvLoadBytes := lookup.ddrHitBytes
    kvLoadScheduled := false
    cacheLookupDone := true }

theorem RequestState.set_cache_lookup_ok {state state' : RequestState} {lookup : LookupMetrics} :
    state.setCacheLookup lookup.effectiveHitTokens lookup.missTokens lookup.ddrHitTokens
        lookup.ddrHitBytes = .ok state' ↔
      state.cacheLookupDone = false ∧
        lookup.effectiveHitTokens + lookup.missTokens = state.promptTokens ∧
        state' = state.withLookup lookup := by
  unfold setCacheLookup
  by_cases hd : state.cacheLookupDone = true
  · simp [hd]
  · by_cases hs : lookup.effectiveHitTokens + lookup.missTokens = state.promptTokens
    · simp [hd, hs, withLookup, eq_comm]
    · simp [hd, hs]

/-- The world after a lookup. -/
def World.lookedUp (world : World C K) (cache : C) (requestId : String) (nowMs : ℚ)
    (raw : PrefixLookupResult) (lookup : LookupMetrics) : World C K :=
  { world with
    cache
    trace := world.trace ++ [.lookup requestId nowMs raw, .accounted requestId lookup] }

theorem lookup_request_ok {engine : Engine C K} {nowMs : ℚ} {state state' : RequestState}
    {request : SimulationRequest} {lookup : LookupMetrics} {world world' : World C K} :
    engine.lookupRequest nowMs state request world = .ok (state', lookup) world' ↔
      ∃ raw cache, engine.cache.lookupPrefix state.promptBlocks nowMs state.requestId
          state.instanceUuid world.cache = .ok raw cache ∧
        LookupMetrics.fromResult raw request = .ok lookup ∧
        state.cacheLookupDone = false ∧
        lookup.effectiveHitTokens + lookup.missTokens = state.promptTokens ∧
        state' = state.withLookup lookup ∧
        world' = world.lookedUp cache state.requestId nowMs raw lookup := by
  unfold Engine.lookupRequest
  simp only [bind_ok, check_ok, onCache, zoom_ok, RequestState.set_cache_lookup_ok]
  constructor
  · rintro ⟨raw, _, ⟨cache, hraw, rfl⟩, _, _, hr, l, _, ⟨hl, rfl⟩, _, _, hr', _, _,
      ⟨⟨hd, hs, rfl⟩, rfl⟩, hp⟩
    cases hr
    cases hr'
    cases hp
    exact ⟨raw, cache, hraw, hl, hd, hs, rfl, by simp [World.lookedUp]⟩
  · rintro ⟨raw, cache, hraw, hl, hd, hs, rfl, rfl⟩
    refine ⟨raw, _, ⟨cache, hraw, rfl⟩, (), _, rfl, lookup, _, ⟨hl, rfl⟩, (), _, rfl, _, _,
      ⟨⟨hd, hs, rfl⟩, rfl⟩, ?_⟩
    simp [World.lookedUp]

/-- How a waiting request comes by its lookup. -/
inductive Looks (engine : Engine C K) (nowMs : ℚ) (entry : Entry) (world : World C K) :
    Job → World C K → Prop
  | known {lookup : LookupMetrics} (hl : entry.lookup = some lookup) :
      Looks engine nowMs entry world
        { request := entry.request, state := entry.state, lostMs := entry.lostMs, lookup } world
  | fresh {lookup : LookupMetrics} {raw : PrefixLookupResult} {cache : C}
      (hl : entry.lookup = none)
      (hraw : engine.cache.lookupPrefix entry.state.promptBlocks nowMs entry.id
        entry.state.instanceUuid world.cache = .ok raw cache)
      (hacc : LookupMetrics.fromResult raw entry.request = .ok lookup)
      (hdone : entry.state.cacheLookupDone = false)
      (hsum : lookup.effectiveHitTokens + lookup.missTokens = entry.state.promptTokens) :
      Looks engine nowMs entry world
        { request := entry.request, state := entry.state.withLookup lookup,
          lostMs := entry.lostMs, lookup }
        (world.lookedUp cache entry.id nowMs raw lookup)

theorem looks_of_look {engine : Engine C K} {nowMs : ℚ} {entry : Entry} {job : Job}
    {world world' : World C K} (h : engine.look nowMs entry world = .ok job world') :
    Looks engine nowMs entry world job world' := by
  cases hl : entry.lookup with
  | some lookup =>
    simp only [Engine.look, hl] at h
    cases h
    exact .known hl
  | none =>
    simp only [Engine.look, hl, bind_ok] at h
    obtain ⟨⟨state, lookup⟩, _, hlook, h⟩ := h
    cases h
    obtain ⟨raw, cache, hraw, hacc, hdone, hsum, rfl, rfl⟩ := lookup_request_ok.mp hlook
    exact .fresh hl hraw hacc hdone hsum

namespace Looks

variable {engine : Engine C K} {nowMs : ℚ} {entry : Entry} {job : Job} {world world' : World C K}

theorem request_eq (h : Looks engine nowMs entry world job world') :
    job.request = entry.request := by cases h <;> rfl

theorem id_eq (h : Looks engine nowMs entry world job world') : job.id = entry.id := by
  cases h <;> rfl

theorem seq_eq (h : Looks engine nowMs entry world job world') : job.seq = entry.seq := by
  cases h <;> rfl

theorem services_eq (h : Looks engine nowMs entry world job world') : job.services = [] := by
  cases h <;> rfl

theorem status_eq (h : Looks engine nowMs entry world job world') :
    job.state.status = entry.state.status := by cases h <;> rfl

end Looks

/-- What a scan of the waiting line can do, one turn after the other. -/
inductive Scans (engine : Engine C K) (nowMs : ℚ) :
    ℕ → ℕ → List Entry → World C K → Scan → World C K → Prop
  | nil {tokenBudget seats world} : Scans engine nowMs tokenBudget seats [] world {} world
  | full {tokenBudget entry entries world} :
      Scans engine nowMs tokenBudget 0 (entry :: entries) world
        { waiting := entry :: entries } world
  | load {tokenBudget seats entry entries world job world' scan world''}
      (hlook : Looks engine nowMs entry world job world') (hr : job.state.remaining = 0)
      (hload : job.state.pendingLoad ≠ (0, 0))
      (hrest : Scans engine nowMs tokenBudget seats entries world' scan world'') :
      Scans engine nowMs tokenBudget (seats + 1) (entry :: entries) world
        { scan with admitted := (job, 0) :: scan.admitted } world''
  | finish {tokenBudget seats entry entries world job world' completion scan world''}
      (hlook : Looks engine nowMs entry world job world') (hr : job.state.remaining = 0)
      (hload : job.state.pendingLoad = (0, 0)) (hdone : job.complete nowMs = .ok completion)
      (hrest : Scans engine nowMs tokenBudget (seats + 1) entries world' scan world'') :
      Scans engine nowMs tokenBudget (seats + 1) (entry :: entries) world
        { scan with completed := completion :: scan.completed } world''
  | stop {tokenBudget seats entry entries world job world'}
      (hlook : Looks engine nowMs entry world job world') (hr : job.state.remaining ≠ 0)
      (hg : engine.config.grant job.state.remaining tokenBudget = 0) :
      Scans engine nowMs tokenBudget (seats + 1) (entry :: entries) world
        { waiting := job.entry :: entries } world'
  | enter {tokenBudget seats entry entries world job world' scan world''}
      (hlook : Looks engine nowMs entry world job world') (hr : job.state.remaining ≠ 0)
      (hg : engine.config.grant job.state.remaining tokenBudget ≠ 0)
      (hrest : Scans engine nowMs
        (tokenBudget - engine.config.grant job.state.remaining tokenBudget) seats entries world'
        scan world'') :
      Scans engine nowMs tokenBudget (seats + 1) (entry :: entries) world
        { scan with admitted :=
          (job, engine.config.grant job.state.remaining tokenBudget) :: scan.admitted } world''

theorem scans_of_scan {engine : Engine C K} {nowMs : ℚ} {entries : List Entry}
    {tokenBudget seats : ℕ} {scan : Scan} {world world' : World C K}
    (h : engine.scan nowMs tokenBudget seats entries world = .ok scan world') :
    Scans engine nowMs tokenBudget seats entries world scan world' := by
  induction entries generalizing tokenBudget seats scan world with
  | nil =>
    cases h
    exact .nil
  | cons entry entries ih =>
    unfold Engine.scan at h
    cases seats with
    | zero =>
      cases h
      exact .full
    | succ seats =>
      rw [if_neg (Nat.succ_ne_zero seats), Nat.add_sub_cancel] at h
      simp only [bind_ok] at h
      obtain ⟨job, world₁, hlook, h⟩ := h
      have hlook := looks_of_look hlook
      by_cases hr : job.state.remaining = 0
      · rw [if_pos hr] at h
        by_cases hload : job.state.pendingLoad = (0, 0)
        · rw [if_neg (not_not.mpr hload)] at h
          simp only [bind_ok, check_ok] at h
          obtain ⟨completion, _, ⟨hdone, rfl⟩, rest, _, hrest, h⟩ := h
          cases h
          exact .finish hlook hr hload hdone (ih hrest)
        · rw [if_pos hload] at h
          simp only [bind_ok] at h
          obtain ⟨rest, _, hrest, h⟩ := h
          cases h
          exact .load hlook hr hload (ih hrest)
      · rw [if_neg hr] at h
        by_cases hg : engine.config.grant job.state.remaining tokenBudget = 0
        · rw [if_pos hg] at h
          cases h
          exact .stop hlook hr hg
        · rw [if_neg hg] at h
          simp only [bind_ok] at h
          obtain ⟨rest, _, hrest, h⟩ := h
          cases h
          exact .enter hlook hr hg (ih hrest)

end InferTwin
