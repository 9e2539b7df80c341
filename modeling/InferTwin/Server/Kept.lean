import InferTwin.Cache.Serving
import InferTwin.Latency.Answers
import InferTwin.Server.Failure

namespace InferTwin

open Effect

variable {C K : Type} {engine : Engine C K}

/-- Nothing that the engine calls makes `P` false. -/
structure Engine.Kept (engine : Engine C K) (P : World C K → Prop) : Prop where
  lookup : ∀ blocks nowMs requestId instanceUuid, Keeps P (onCache
    (engine.cache.lookupPrefix blocks nowMs requestId instanceUuid) : Replay C K _)
  report : ∀ event, Keeps P (record event : Replay C K Unit)
  chunk : ∀ call before after, Keeps P (onMaterialization
    (engine.materializationPolicy.materializeScheduledChunk engine.cache call before after) :
      Replay C K _)
  finish : ∀ call, Keeps P (onMaterialization
    (engine.materializationPolicy.materializeFinishedRequest engine.cache call) : Replay C K _)
  latency : ∀ shape, Keeps P (engine.estimateLatency shape)
  drain : Keeps P engine.drainCacheEvents

namespace Engine.Kept

variable {P : World C K → Prop}

theorem look (h : engine.Kept P) (nowMs : ℚ) (entry : Entry) :
    Keeps P (engine.look nowMs entry) := by
  unfold Engine.look
  split
  · exact .pure _
  · unfold Engine.lookupRequest
    refine .bind ?_ fun _ ↦ .pure _
    refine .bind (h.lookup _ _ _ _) fun raw ↦ .bind (h.report _) fun _ ↦ ?_
    exact .bind (.check _) fun lookup ↦ .bind (h.report _) fun _ ↦ .bind (.check _) fun _ ↦ .pure _

theorem scan (h : engine.Kept P) (nowMs : ℚ) (tokenBudget seats : ℕ) (entries : List Entry) :
    Keeps P (engine.scan nowMs tokenBudget seats entries) := by
  induction entries generalizing tokenBudget seats with
  | nil => exact .pure _
  | cons entry entries ih =>
    unfold Engine.scan
    split_ifs
    · exact .pure _
    refine .bind (h.look nowMs entry) fun job ↦ ?_
    dsimp only
    split_ifs
    · exact .bind (ih _ _) fun _ ↦ .pure _
    · exact .bind (.check _) fun _ ↦ .bind (ih _ _) fun _ ↦ .pure _
    · exact .pure _
    · exact .bind (ih _ _) fun _ ↦ .pure _

theorem frontier (h : engine.Kept P) (session : Session) : Keeps P (engine.frontier session) := by
  unfold Engine.frontier
  dsimp only
  split_ifs
  · exact .pure _
  · exact .bind (h.scan _ _ _ _) fun _ ↦ .pure _

theorem applySlice (h : engine.Kept P) (startMs finishMs : ℚ) (slice : ScheduledSlice)
    (contribution : IterationLatencyBreakdown) (state : RequestState) (lookup : LookupMetrics)
    (request : Except ReplayError SimulationRequest) (queue : SharedLinkFIFOTransferQueue)
    (totals : IterationTotals) :
    Keeps P (engine.applySlice startMs finishMs slice contribution state lookup request queue
      totals) := by
  unfold Engine.applySlice
  refine .bind (.check _) fun charged ↦ .bind ?_ fun advanced ↦ ?_
  · unfold Engine.advanceSlice
    split_ifs
    · exact .bind (.check _) fun _ ↦ .pure _
    · refine .bind (.check _) fun _ ↦ ?_
      unfold Engine.materializeScheduledChunk
      split
      · exact .pure _
      · exact .bind (h.chunk _ _ _) fun _ ↦ .pure _
  · unfold Engine.completeSlice
    split_ifs
    · exact .bind (.pure _) fun _ ↦ .bind (.check _) fun _ ↦ .bind (.check _) fun _ ↦ .pure _
    · refine .bind ?_ fun _ ↦ .bind (.check _) fun _ ↦ .bind (.check _) fun _ ↦ .pure _
      unfold Engine.materializeFinishedRequest
      split
      all_goals exact .bind (h.finish _) fun _ ↦ .pure _
    · split <;> exact .pure _

theorem applyBatch (h : engine.Kept P) (facts : IterationFacts)
    (batch : List (Job × Option ScheduledSlice)) (queue : SharedLinkFIFOTransferQueue)
    (totals : IterationTotals) : Keeps P (engine.applyBatch facts batch queue totals) := by
  induction batch generalizing queue totals with
  | nil => exact .pure _
  | cons item batch ih =>
    obtain ⟨job, slice⟩ := item
    cases slice with
    | none => exact .bind (ih _ _) fun _ ↦ .pure _
    | some slice =>
      refine .bind (h.applySlice _ _ _ _ _ _ _ _ _) fun served ↦ .bind (ih _ _) fun applied ↦ ?_
      split <;> exact .pure _

theorem iterate (h : engine.Kept P) (instanceUuid : String) (session : Session)
    (frontier : Frontier) : Keeps P (engine.iterate instanceUuid session frontier) := by
  unfold Engine.iterate
  refine .bind (.check _) fun granted ↦ .bind (.check _) fun admitted ↦ .bind (.check _) fun shape ↦ ?_
  split_ifs
  · exact .bind (.throw _) fun _ ↦ .bind (h.latency _) fun latency ↦ .bind (.check _) fun _ ↦
      .bind (h.applyBatch _ _ _ _) fun _ ↦ .bind (.check _) fun _ ↦ .bind (h.report _) fun _ ↦
        .bind h.drain fun _ ↦ .pure _
  · exact .bind (h.latency _) fun latency ↦ .bind (.check _) fun _ ↦
      .bind (h.applyBatch _ _ _ _) fun _ ↦ .bind (.check _) fun _ ↦ .bind (h.report _) fun _ ↦
        .bind h.drain fun _ ↦ .pure _

/-- Neither does a pass. -/
theorem pass (h : engine.Kept P) (instanceUuid : String) (session : Session) :
    Keeps P (engine.pass instanceUuid session) := by
  unfold Engine.pass
  refine .bind (.check _) fun received ↦ ?_
  split_ifs
  · split <;> exact .pure _
  · refine .bind (h.frontier received) fun frontier ↦ .bind h.drain fun _ ↦ ?_
    split_ifs
    · split <;> exact .pure _
    · exact .bind (h.iterate _ _ _) fun _ ↦ .pure _

end Engine.Kept

/-- The cache is in a good state, and the memo has its results from the backend. -/
structure World.Sound (engine : Engine C K) (good : C → Prop) (world : World C K) : Prop where
  cache : good world.cache
  memo : world.memo.FilledBy engine.latencyBackend

section Sound

variable {good : C → Prop}

theorem cache_call_keeps {α ε : Type} {wrap : ε → ReplayError} {x : EStateM ε C α}
    (h : Keeps good x) : Keeps (World.Sound engine good)
      (zoom wrap World.cache (fun cache world ↦ { world with cache }) x : Replay C K α) := by
  rintro world ⟨hcache, hmemo⟩
  have hx := h world.cache hcache
  unfold zoom
  generalize x world.cache = result at hx ⊢
  cases result with
  | ok a cache => exact ⟨hx, hmemo⟩
  | error e cache => exact ⟨hx, hmemo⟩

theorem materialize_blocks_keeps {cache : PrefixCache C} (hcache : cache.Serves good)
    (call : MaterializationCall) (blocks : List PrefixBlock) (reason : String) :
    Keeps good (materializeBlocks cache call blocks reason) := by
  intro c hc
  obtain ⟨c', hwrite, hc'⟩ := hcache.materialize_blocks hc call blocks reason
  rw [hwrite]
  exact hc'

theorem RepositoryPolicy.chunk_keeps {policy : MaterializationPolicy C} {cache : PrefixCache C}
    (hpolicy : RepositoryPolicy policy) (hcache : cache.Serves good) (call : MaterializationCall)
    (before after : ℕ) : Keeps good (policy.materializeScheduledChunk cache call before after) := by
  cases hpolicy with
  | finishTime => exact .pure _
  | progressive =>
    exact .bind (.check _) fun _ ↦ .bind (materialize_blocks_keeps hcache _ _ _) fun _ ↦ .pure _

theorem RepositoryPolicy.finish_keeps {policy : MaterializationPolicy C} {cache : PrefixCache C}
    (hpolicy : RepositoryPolicy policy) (hcache : cache.Serves good) (call : MaterializationCall) :
    Keeps good (policy.materializeFinishedRequest cache call) := by
  cases hpolicy with
  | finishTime => exact .bind (materialize_blocks_keeps hcache _ _ _) fun _ ↦ .pure _
  | progressive =>
    simp only [ProgressiveFullBlockMaterializationPolicy]
    split_ifs
    · exact .pure _
    · exact .bind (.check _) fun _ ↦ .bind (materialize_blocks_keeps hcache _ _ _) fun _ ↦ .pure _

/-- The caches, the policies and the backends of the repository keep a world sound. -/
theorem World.sound_kept (hcache : engine.cache.Serves good)
    (hpolicy : RepositoryPolicy engine.materializationPolicy)
    (hbackend : ServingBackend engine.latencyBackend) :
    engine.Kept (World.Sound engine good) where
  lookup blocks nowMs requestId instanceUuid := by
    refine cache_call_keeps fun c hc ↦ ?_
    obtain ⟨_, c', hlookup, hc'⟩ := hcache.lookup hc blocks nowMs requestId instanceUuid
    rw [hlookup]
    exact hc'
  report _ _ h := ⟨h.cache, h.memo⟩
  chunk call before after := cache_call_keeps (hpolicy.chunk_keeps hcache call before after)
  finish call := cache_call_keeps (hpolicy.finish_keeps hcache call)
  latency shape := by
    rintro world ⟨hcache, hmemo⟩
    have hanswer := hmemo.getOrCompute hbackend.memoizable shape
    unfold Engine.estimateLatency onMemo zoom
    cases hresult : engine.latencyBackend.estimateIteration shape with
    | ok result =>
      rw [hresult] at hanswer
      obtain ⟨latency, memo, hget, -, hfilled⟩ := hanswer
      rw [hget]
      exact ⟨hcache, hfilled⟩
    | error e =>
      rw [hresult] at hanswer
      have hget : ShapeMemo.getOrCompute (engine.latencyBackend.shapeKey shape) (.error e)
          world.memo = .error (.backend e) world.memo := hanswer
      rw [hget]
      exact ⟨hcache, hmemo⟩
  drain _ h := ⟨hcache.drain h.cache, h.memo⟩

end Sound

end InferTwin
