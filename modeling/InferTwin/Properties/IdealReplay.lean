import InferTwin.Foundation.StableSort
import InferTwin.Instance.Replay
import InferTwin.Sample
import Mathlib.Data.Finset.Order
import Mathlib.Data.List.TakeWhile

namespace InferTwin

open Effect

namespace InfiniteHBMCache

theorem mem_addBlock {nowMs : ℚ} {blocks : InfiniteState} {block : PrefixBlock} {key : String} :
    key ∈ addBlock nowMs blocks block ↔ key = block.blockKey ∨ key ∈ blocks := by
  unfold addBlock
  split_ifs with hmem
  · refine ⟨Or.inr, ?_⟩
    rintro (rfl | h)
    · exact hmem
    · exact h
  · exact Finmap.mem_insert

theorem mem_materialized {nowMs : ℚ} {blocks : InfiniteState} {written : List PrefixBlock}
    {key : String} :
    key ∈ written.foldl (addBlock nowMs) blocks ↔
      key ∈ written.map PrefixBlock.blockKey ∨ key ∈ blocks := by
  induction written generalizing blocks with
  | nil => simp
  | cons block written ih =>
    rw [List.foldl_cons, ih, mem_addBlock, List.map_cons, List.mem_cons]
    tauto

/-- A lookup hits as long as keys are present, and changes no key. -/
theorem lookup_hits_present (nowMs : ℚ) (asked : List PrefixBlock) (blocks : InfiniteState) :
    (lookupHits nowMs asked blocks).1 = asked.takeWhile (fun block ↦ block.blockKey ∈ blocks) ∧
      ∀ key, key ∈ (lookupHits nowMs asked blocks).2 ↔ key ∈ blocks := by
  induction asked generalizing blocks with
  | nil => exact ⟨rfl, fun _ ↦ Iff.rfl⟩
  | cons block asked ih =>
    rw [lookupHits]
    cases hl : blocks.lookup block.blockKey with
    | none =>
      have habsent : block.blockKey ∉ blocks := Finmap.lookup_eq_none.mp hl
      exact ⟨by simp [habsent], fun _ ↦ Iff.rfl⟩
    | some existing =>
      have hpresent : block.blockKey ∈ blocks := Dict.mem_iff_lookup.mpr ⟨existing, hl⟩
      have hkeys : ∀ key value, key ∈ blocks.insert block.blockKey value ↔ key ∈ blocks := by
        intro key value
        rw [Finmap.mem_insert]
        exact or_iff_right_of_imp fun h ↦ h ▸ hpresent
      obtain ⟨hhits, hafter⟩ := ih (blocks.insert block.blockKey { existing with
        hitCount := existing.hitCount + 1, lastAccessTimeMs := nowMs })
      refine ⟨?_, fun key ↦ (hafter key).trans (hkeys key _)⟩
      simp only [hhits, hkeys, List.takeWhile_cons, hpresent, decide_true, if_true]

end InfiniteHBMCache

theorem MaterializeEvent.finish_le {a b : MaterializeEvent} (h : a.sortKey ≤ b.sortKey) :
    a.finishTimeMs ≤ b.finishTimeMs := Prod.Lex.monotone_fst _ _ h

namespace InfiniteReplayState

/-- What the cache of an instance holds, nothing as long as it has none. -/
def cacheOf (state : InfiniteReplayState) (instanceUuid : String) : InfiniteState :=
  (state.instances.lookup instanceUuid).getD ∅

/-- A key is cached already, or an event that is due by `timeMs` brings it. -/
def VisibleBy (state : InfiniteReplayState) (timeMs : ℚ) (instanceUuid key : String) : Prop :=
  key ∈ state.cacheOf instanceUuid ∨ ∃ event ∈ state.events, event.instanceUuid = instanceUuid ∧
    event.finishTimeMs ≤ timeMs ∧ key ∈ event.blocks.map PrefixBlock.blockKey

/-- The events lie in the order in which they are popped. -/
def EventsOrdered (state : InfiniteReplayState) : Prop :=
  state.events.Pairwise fun a b ↦ a.sortKey ≤ b.sortKey

theorem cacheOf_insert (state : InfiniteReplayState) (instanceUuid : String)
    (cache : InfiniteState) (other : String) :
    ({ state with instances := state.instances.insert instanceUuid cache } :
      InfiniteReplayState).cacheOf other =
        if other = instanceUuid then cache else state.cacheOf other := by
  unfold cacheOf
  split_ifs with h
  · rw [h, Finmap.lookup_insert, Option.getD_some]
  · rw [Finmap.lookup_insert_of_ne _ h]

/-- Where no event is due, what is visible is what is cached. -/
theorem visible_iff_cached {state : InfiniteReplayState} {timeMs : ℚ}
    (h : ∀ event ∈ state.events, timeMs < event.finishTimeMs) (instanceUuid key : String) :
    state.VisibleBy timeMs instanceUuid key ↔ key ∈ state.cacheOf instanceUuid := by
  refine or_iff_left ?_
  rintro ⟨event, hevent, -, hdue, -⟩
  exact absurd hdue (not_le.mpr (h event hevent))

end InfiniteReplayState

theorem onCacheFor_ok {α : Type} {instanceUuid : String} {x : EStateM CacheError InfiniteState α}
    {state : InfiniteReplayState} {a : α} {cache : InfiniteState}
    (h : x (state.cacheOf instanceUuid) = .ok a cache) :
    onCacheFor instanceUuid x state =
      .ok a { state with instances := state.instances.insert instanceUuid cache } :=
  zoom_ok.mpr ⟨cache, h, rfl⟩

namespace InfiniteHBMReplayEngine

open InfiniteReplayState

/-- A due event moves its keys into the cache of its instance. -/
theorem visible_after_pop {state : InfiniteReplayState} {event : MaterializeEvent}
    {events : List MaterializeEvent} (hevents : state.events = event :: events) {timeMs : ℚ}
    (hdue : event.finishTimeMs ≤ timeMs) (instanceUuid key : String) :
    ({ state with
        events
        instances := state.instances.insert event.instanceUuid (event.blocks.foldl
          (InfiniteHBMCache.addBlock event.finishTimeMs) (state.cacheOf event.instanceUuid)) } :
      InfiniteReplayState).VisibleBy timeMs instanceUuid key ↔
        state.VisibleBy timeMs instanceUuid key := by
  unfold VisibleBy
  rw [hevents, List.exists_mem_cons_iff]
  simp only [cacheOf]
  rcases eq_or_ne instanceUuid event.instanceUuid with rfl | hne
  · rw [Finmap.lookup_insert, Option.getD_some, InfiniteHBMCache.mem_materialized]
    simp only [hdue, true_and]
    tauto
  · rw [Finmap.lookup_insert_of_ne _ hne]
    simp only [hne.symm, false_and, false_or]

/-- Flushing never fails. It takes the events that are due, and what becomes visible later does
not depend on it. -/
theorem flush_events (nowMs : WithTop ℚ) {events : List MaterializeEvent}
    {state : InfiniteReplayState} (hevents : state.events = events)
    (hordered : state.EventsOrdered) :
    ∃ state', flushEvents nowMs events state = .ok () state' ∧ state'.EventsOrdered ∧
      (∀ event ∈ state'.events, nowMs < event.finishTimeMs) ∧
      ∀ timeMs : ℚ, nowMs ≤ timeMs → ∀ instanceUuid key,
        state'.VisibleBy timeMs instanceUuid key ↔ state.VisibleBy timeMs instanceUuid key := by
  induction events generalizing state with
  | nil =>
    refine ⟨state, rfl, hordered, ?_, fun _ _ _ _ ↦ Iff.rfl⟩
    intro event hevent
    rw [hevents] at hevent
    cases hevent
  | cons event events ih =>
    obtain ⟨hfirst, hrest⟩ : (∀ other ∈ events, event.sortKey ≤ other.sortKey) ∧
        events.Pairwise fun a b ↦ a.sortKey ≤ b.sortKey := by
      rw [EventsOrdered, hevents] at hordered
      exact List.pairwise_cons.mp hordered
    by_cases hdue : (event.finishTimeMs : WithTop ℚ) ≤ nowMs
    · let popped : InfiniteReplayState := { state with
        events
        instances := state.instances.insert event.instanceUuid (event.blocks.foldl
          (InfiniteHBMCache.addBlock event.finishTimeMs) (state.cacheOf event.instanceUuid)) }
      have hpop : onCacheFor event.instanceUuid (InfiniteHBMCache.materialize event.blocks
          event.finishTimeMs "" "" "finish_time_materialization") { state with events } =
            .ok () popped := onCacheFor_ok rfl
      have hpopped : popped.EventsOrdered := hrest
      obtain ⟨state', hflush, hordered', hlate, hvisible⟩ := ih rfl hpopped
      refine ⟨state', ?_, hordered', hlate, ?_⟩
      · simp only [flushEvents, if_pos hdue, bind_apply, modify_apply, hpop, hflush]
      · intro timeMs hnow instanceUuid key
        have htime : event.finishTimeMs ≤ timeMs := WithTop.coe_le_coe.mp (hdue.trans hnow)
        exact (hvisible timeMs hnow instanceUuid key).trans
          (visible_after_pop hevents htime instanceUuid key)
    · refine ⟨state, ?_, hordered, ?_, fun _ _ _ _ ↦ Iff.rfl⟩
      · simp only [flushEvents, if_neg hdue]
        rfl
      · intro other hother
        rw [hevents] at hother
        have hlate : nowMs < event.finishTimeMs := not_le.mp hdue
        rcases List.mem_cons.mp hother with rfl | hother
        · exact hlate
        · exact hlate.trans_le (WithTop.coe_le_coe.mpr (MaterializeEvent.finish_le (hfirst other hother)))

variable (engine : InfiniteHBMReplayEngine)

/-- The earlier requests on the instance of a request that have finished when it starts. -/
def finishedBefore (earlier : List SimulationRequest) (request : SimulationRequest) :
    List SimulationRequest :=
  earlier.filter fun done ↦ done.instanceUuid = request.instanceUuid ∧
    engine.finishTimeMs done ≤ request.startTimeMs

/-- The longest prefix of the blocks of a request of which each is among the blocks of a request
that has finished. -/
def idealHits (earlier : List SimulationRequest) (request : SimulationRequest) :
    List PrefixBlock :=
  request.promptBlocks.takeWhile fun block ↦ ∃ done ∈ engine.finishedBefore earlier request,
    block.blockKey ∈ done.promptBlocks.map PrefixBlock.blockKey

def idealLookup (earlier : List SimulationRequest) (request : SimulationRequest) :
    PrefixLookupResult where
  hbmHitBlocks := engine.idealHits earlier request
  ddrHitBlocks := []
  missBlocks := request.promptBlocks.drop (engine.idealHits earlier request).length

/-- What a replay without any state emits for a request. -/
def idealMetrics (earlier : List SimulationRequest) (request : SimulationRequest) :
    Except ReplayError RequestMetrics :=
  (accountPrefixLookup (engine.idealLookup earlier request) request.promptTokens
    request.blockConversionResult).map (engine.requestMetrics request)

/-- Request by request, each with those before it. -/
def idealReplay : List SimulationRequest → List SimulationRequest →
    Except ReplayError (List RequestMetrics)
  | _, [] => .ok []
  | earlier, request :: requests => do
    let metrics ← engine.idealMetrics earlier request
    let rest ← idealReplay (earlier ++ [request]) requests
    return metrics :: rest

/-- From `nowMs` on, what is visible is what the requests processed so far have computed by
then, the blocks they have hit included. -/
structure Replayed (earlier : List SimulationRequest) (nowMs : ℚ) (state : InfiniteReplayState) :
    Prop where
  ordered : state.EventsOrdered
  visible : ∀ timeMs, nowMs ≤ timeMs → ∀ instanceUuid key,
    state.VisibleBy timeMs instanceUuid key ↔ ∃ done ∈ earlier, done.instanceUuid = instanceUuid ∧
      engine.finishTimeMs done ≤ timeMs ∧
        key ∈ done.promptBlocks.map PrefixBlock.blockKey

variable {engine}

theorem Replayed.later {earlier : List SimulationRequest} {nowMs laterMs : ℚ}
    {state : InfiniteReplayState} (h : engine.Replayed earlier nowMs state)
    (hlater : nowMs ≤ laterMs) : engine.Replayed earlier laterMs state :=
  ⟨h.ordered, fun timeMs htime ↦ h.visible timeMs (hlater.trans htime)⟩

theorem Replayed.fresh (nowMs : ℚ) : engine.Replayed [] nowMs {} := by
  refine ⟨List.Pairwise.nil, fun timeMs _ instanceUuid key ↦ ?_⟩
  constructor
  · rintro (hcached | ⟨event, hevent, -⟩)
    · exact absurd hcached Finmap.notMem_empty
    · cases hevent
  · rintro ⟨done, hdone, -⟩
    cases hdone

/-- The lookup of a request after the requests before it: the raw hits are the ideal ones, and
no event is left that is due. -/
theorem Replayed.lookupRequest {earlier : List SimulationRequest} {request : SimulationRequest}
    {state : InfiniteReplayState} (h : engine.Replayed earlier request.startTimeMs state) :
    ∃ state', lookupRequest request state = .ok (engine.idealLookup earlier request) state' ∧
      engine.Replayed earlier request.startTimeMs state' ∧
      ∀ block ∈ engine.idealHits earlier request,
        block.blockKey ∈ state'.cacheOf request.instanceUuid := by
  obtain ⟨flushed, hflush, hordered, hlate, hvisible⟩ :=
    flush_events request.startTimeMs rfl h.ordered
  let looked := InfiniteHBMCache.lookupHits request.startTimeMs request.promptBlocks
    (flushed.cacheOf request.instanceUuid)
  obtain ⟨hhits, hkeys⟩ := InfiniteHBMCache.lookup_hits_present request.startTimeMs
    request.promptBlocks (flushed.cacheOf request.instanceUuid)
  have hcached : ∀ key, key ∈ flushed.cacheOf request.instanceUuid ↔
      ∃ done ∈ engine.finishedBefore earlier request,
        key ∈ done.promptBlocks.map PrefixBlock.blockKey := by
    intro key
    rw [← visible_iff_cached (fun event hevent ↦ WithTop.coe_lt_coe.mp (hlate event hevent)),
      hvisible _ le_rfl, h.visible _ le_rfl]
    simp only [finishedBefore, List.mem_filter, decide_eq_true_eq]
    tauto
  have hideal : looked.1 = engine.idealHits earlier request := by
    rw [idealHits]
    simp only [looked, hhits, hcached]
  let state' : InfiniteReplayState := { flushed with
    instances := flushed.instances.insert request.instanceUuid looked.2 }
  have hsame : ∀ instanceUuid key,
      key ∈ state'.cacheOf instanceUuid ↔ key ∈ flushed.cacheOf instanceUuid := by
    intro instanceUuid key
    rw [cacheOf_insert]
    split_ifs with huuid
    · rw [huuid]
      exact hkeys key
    · rfl
  refine ⟨state', ?_, ⟨hordered, ?_⟩, ?_⟩
  · have hlookup : onCacheFor request.instanceUuid (InfiniteHBMCache.lookupPrefix
        request.promptBlocks request.startTimeMs "" "") flushed =
          .ok (engine.idealLookup earlier request) state' := by
      refine onCacheFor_ok ?_
      rw [idealLookup, ← hideal]
      rfl
    rw [InfiniteHBMReplayEngine.lookupRequest, bind_apply, flushEventsUntil, bind_apply, get_apply]
    simp only [hflush]
    exact hlookup
  · intro timeMs htime instanceUuid key
    rw [← h.visible timeMs htime, ← hvisible timeMs (WithTop.coe_le_coe.mpr htime), VisibleBy,
      hsame]
    rfl
  · intro block hblock
    rw [hsame, hcached]
    simpa using List.mem_takeWhile_imp hblock

/-- A request counts as processed when its misses become visible as it finishes. Its hits need no
event: they are cached. -/
theorem Replayed.processed {earlier : List SimulationRequest} {request : SimulationRequest}
    {state state' : InfiniteReplayState}
    (h : engine.Replayed earlier request.startTimeMs state)
    (hhits : ∀ block ∈ engine.idealHits earlier request,
      block.blockKey ∈ state.cacheOf request.instanceUuid)
    (hordered : state'.EventsOrdered)
    (hvisible : ∀ timeMs instanceUuid key, state'.VisibleBy timeMs instanceUuid key ↔
      state.VisibleBy timeMs instanceUuid key ∨ (request.instanceUuid = instanceUuid ∧
        engine.finishTimeMs request ≤ timeMs ∧
          key ∈ (engine.idealLookup earlier request).missBlocks.map PrefixBlock.blockKey)) :
    engine.Replayed (earlier ++ [request]) request.startTimeMs state' := by
  refine ⟨hordered, fun timeMs htime instanceUuid key ↦ ?_⟩
  have hsplit : request.promptBlocks =
      engine.idealHits earlier request ++ (engine.idealLookup earlier request).missBlocks :=
    (List.prefix_iff_eq_append.mp (List.takeWhile_prefix _)).symm
  have hhit : request.instanceUuid = instanceUuid →
      key ∈ (engine.idealHits earlier request).map PrefixBlock.blockKey →
        state.VisibleBy timeMs instanceUuid key := by
    rintro rfl hkey
    obtain ⟨block, hblock, rfl⟩ := List.mem_map.mp hkey
    exact Or.inl (hhits block hblock)
  have hlast : (∃ done ∈ [request], done.instanceUuid = instanceUuid ∧
      engine.finishTimeMs done ≤ timeMs ∧
        key ∈ done.promptBlocks.map PrefixBlock.blockKey) ↔
      request.instanceUuid = instanceUuid ∧
        engine.finishTimeMs request ≤ timeMs ∧
          (key ∈ (engine.idealHits earlier request).map PrefixBlock.blockKey ∨
            key ∈ (engine.idealLookup earlier request).missBlocks.map PrefixBlock.blockKey) := by
    rw [← List.mem_append, ← List.map_append, ← hsplit]
    simp
  rw [hvisible]
  simp only [List.mem_append, or_and_right, exists_or]
  rw [hlast, ← h.visible timeMs htime]
  tauto

theorem Replayed.scheduleMaterialize {earlier : List SimulationRequest}
    {request : SimulationRequest} {state : InfiniteReplayState}
    (h : engine.Replayed earlier request.startTimeMs state)
    (hhits : ∀ block ∈ engine.idealHits earlier request,
      block.blockKey ∈ state.cacheOf request.instanceUuid) :
    ∃ state', scheduleMaterialize request.instanceUuid (engine.idealLookup earlier request).missBlocks
        (engine.finishTimeMs request) state = .ok () state' ∧
      engine.Replayed (earlier ++ [request]) request.startTimeMs state' := by
  unfold InfiniteHBMReplayEngine.scheduleMaterialize
  by_cases hmiss : (engine.idealLookup earlier request).missBlocks = []
  · refine ⟨state, by rw [if_neg (not_not.mpr hmiss)]; rfl, h.processed hhits h.ordered ?_⟩
    intro timeMs instanceUuid key
    simp [hmiss]
  · rw [if_pos hmiss]
    refine ⟨_, rfl, h.processed hhits (h.ordered.orderedInsert _ _) ?_⟩
    intro timeMs instanceUuid key
    unfold VisibleBy
    simp only [List.mem_orderedInsert, or_and_right, exists_or, exists_eq_left, cacheOf]
    rw [or_right_comm, or_assoc]

/-- One turn of the loop does what the ideal replay does. -/
theorem Replayed.runRequest {earlier : List SimulationRequest} {request : SimulationRequest}
    {state : InfiniteReplayState} (h : engine.Replayed earlier request.startTimeMs state) :
    (∃ metrics state', engine.idealMetrics earlier request = .ok metrics ∧
      engine.runRequest request state = .ok metrics state' ∧
      engine.Replayed (earlier ++ [request]) request.startTimeMs state') ∨
    ∃ failure state', engine.idealMetrics earlier request = .error failure ∧
      engine.runRequest request state = .error failure state' := by
  obtain ⟨looked, hlookup, hlooked, hhits⟩ := h.lookupRequest
  unfold InfiniteHBMReplayEngine.runRequest idealMetrics
  cases haccount : accountPrefixLookup (engine.idealLookup earlier request) request.promptTokens
      request.blockConversionResult with
  | error failure =>
    refine Or.inr ⟨failure, looked, rfl, ?_⟩
    simp only [bind_apply, hlookup, haccount, check_error_apply]
  | ok accounted =>
    have hmissed : accounted.materializationBlocks =
        (engine.idealLookup earlier request).missBlocks :=
      (account_spec haccount).2.2.2.2.2
    obtain ⟨state', hschedule, hnext⟩ := hlooked.scheduleMaterialize hhits
    refine Or.inl ⟨_, state', rfl, ?_, hnext⟩
    simp only [bind_apply, hlookup, haccount, check_ok_apply, hmissed, hschedule]
    rfl

/-- The loop does what the ideal replay does, on requests whose start times do not decrease. -/
theorem Replayed.calls {requests earlier : List SimulationRequest} {state : InfiniteReplayState}
    {nowMs : ℚ} (hsorted : requests.Pairwise fun a b ↦ a.startTimeMs ≤ b.startTimeMs)
    (hnow : ∀ request ∈ requests, request.startTimeMs ≤ nowMs)
    (h : ∀ request ∈ requests, engine.Replayed earlier request.startTimeMs state)
    (hlast : engine.Replayed earlier nowMs state) :
    (∃ metrics state', engine.idealReplay earlier requests = .ok metrics ∧
      Effect.calls engine.runRequest requests state = .ok metrics state' ∧
      engine.Replayed (earlier ++ requests) nowMs state') ∨
    ∃ failure state', engine.idealReplay earlier requests = .error failure ∧
      Effect.calls engine.runRequest requests state = .error failure state' := by
  induction requests generalizing earlier state with
  | nil => exact Or.inl ⟨[], state, rfl, rfl, by rwa [List.append_nil]⟩
  | cons request requests ih =>
    obtain ⟨hfirst, hsorted⟩ := List.pairwise_cons.mp hsorted
    obtain ⟨hnowFirst, hnow⟩ := List.forall_mem_cons.mp hnow
    unfold idealReplay Effect.calls
    rcases (h request List.mem_cons_self).runRequest with
      ⟨metrics, next, hideal, hrun, hnext⟩ | ⟨failure, next, hideal, hrun⟩
    · rcases ih hsorted hnow (fun later hlater ↦ hnext.later (hfirst later hlater))
          (hnext.later hnowFirst) with
        ⟨rest, state', hideals, hruns, hend⟩ | ⟨failure, state', hideals, hruns⟩
      · refine Or.inl ⟨metrics :: rest, state', ?_, ?_, ?_⟩
        · rw [hideal, except_ok_bind, hideals]
          rfl
        · simp only [bind_apply, hrun, hruns]
          rfl
        · rwa [List.append_assoc] at hend
      · refine Or.inr ⟨failure, state', ?_, ?_⟩
        · rw [hideal, except_ok_bind, hideals]
          rfl
        · simp only [bind_apply, hrun, hruns]
    · refine Or.inr ⟨failure, next, ?_, ?_⟩
      · rw [hideal]
        rfl
      · simp only [bind_apply, hrun]

theorem exists_latest (requests : List SimulationRequest) :
    ∃ nowMs : ℚ, ∀ request ∈ requests, request.startTimeMs ≤ nowMs := by
  obtain ⟨nowMs, hnow⟩ := (requests.map SimulationRequest.startTimeMs).toFinset.exists_le
  exact ⟨nowMs, fun request hrequest ↦
    hnow _ (List.mem_toFinset.mpr (List.mem_map_of_mem hrequest))⟩

theorem run_ideal {requests : List SimulationRequest}
    (horder : (inServiceOrder requests).Pairwise fun a b ↦ a.startTimeMs ≤ b.startTimeMs) :
    outcome (engine.run requests {}) = engine.idealReplay [] (inServiceOrder requests) := by
  obtain ⟨nowMs, hnow⟩ := exists_latest (inServiceOrder requests)
  have hfresh : ∀ nowMs, engine.Replayed [] nowMs {} := Replayed.fresh
  unfold run
  rcases Replayed.calls horder hnow (fun _ _ ↦ hfresh _) (hfresh _) with
    ⟨metrics, state, hideal, hcalls, hend⟩ | ⟨failure, state, hideal, hcalls⟩
  · obtain ⟨state', hflush, -⟩ := flush_events ⊤ rfl hend.ordered
    simp only [hideal, bind_apply, hcalls, flushEventsUntil, get_apply, hflush]
    rfl
  · simp only [hideal, bind_apply, hcalls]
    rfl

/-- At each request that the loop reaches, the lookup is the ideal one. -/
theorem lookup_ideal {requests earlier later : List SimulationRequest} {request : SimulationRequest}
    (horder : (inServiceOrder requests).Pairwise fun a b ↦ a.startTimeMs ≤ b.startTimeMs)
    (hsplit : inServiceOrder requests = earlier ++ request :: later)
    {metrics : List RequestMetrics} {state : InfiniteReplayState}
    (hcalls : calls engine.runRequest earlier {} = .ok metrics state) :
    ∃ state', lookupRequest request state = .ok (engine.idealLookup earlier request) state' := by
  rw [hsplit] at horder
  obtain ⟨hsorted, -, hbefore⟩ := List.pairwise_append.mp horder
  have hfresh : ∀ nowMs, engine.Replayed [] nowMs {} := Replayed.fresh
  rcases Replayed.calls hsorted (fun done hdone ↦ hbefore done hdone request List.mem_cons_self)
      (fun _ _ ↦ hfresh _) (hfresh _) with
    ⟨_, _, -, hcalls', hend⟩ | ⟨_, _, -, hcalls'⟩
  · rw [hcalls] at hcalls'
    cases hcalls'
    obtain ⟨state', hlookup, -⟩ := hend.lookupRequest
    exact ⟨state', hlookup⟩
  · rw [hcalls] at hcalls'
    cases hcalls'

section Isolation

/-- The requests of one instance. -/
def ofInstance (instanceUuid : String) (requests : List SimulationRequest) :
    List SimulationRequest :=
  requests.filter fun request ↦ request.instanceUuid = instanceUuid

theorem ideal_metrics_instance {earlier : List SimulationRequest} {request : SimulationRequest}
    {metrics : RequestMetrics} (h : engine.idealMetrics earlier request = .ok metrics) :
    metrics.instanceUuid = request.instanceUuid := by
  obtain ⟨accounted, -, rfl⟩ := except_map_ok.mp h
  rfl

/-- Only the requests of its own instance matter to a request. -/
theorem ideal_metrics_ofInstance (earlier : List SimulationRequest) (request : SimulationRequest) :
    engine.idealMetrics (ofInstance request.instanceUuid earlier) request =
      engine.idealMetrics earlier request := by
  have hfinished : engine.finishedBefore (ofInstance request.instanceUuid earlier) request =
      engine.finishedBefore earlier request := by
    unfold finishedBefore ofInstance
    rw [List.filter_filter]
    congr 1
    funext done
    simp only [Bool.decide_and]
    rw [Bool.and_right_comm, Bool.and_self]
  unfold idealMetrics idealLookup idealHits
  rw [hfinished]

theorem ideal_replay_ofInstance (instanceUuid : String) {earlier requests : List SimulationRequest}
    {metrics : List RequestMetrics} (h : engine.idealReplay earlier requests = .ok metrics) :
    engine.idealReplay (ofInstance instanceUuid earlier) (ofInstance instanceUuid requests) =
      .ok (metrics.filter fun row ↦ row.instanceUuid = instanceUuid) := by
  induction requests generalizing earlier metrics with
  | nil =>
    cases h
    rfl
  | cons request requests ih =>
    obtain ⟨first, hfirst, h⟩ := except_bind_ok.mp h
    obtain ⟨rest, hrest, h⟩ := except_bind_ok.mp h
    cases h
    have hrest := ih hrest
    have hinstance := ideal_metrics_instance hfirst
    by_cases huuid : request.instanceUuid = instanceUuid
    · subst huuid
      have hmine : ofInstance request.instanceUuid (request :: requests) =
          request :: ofInstance request.instanceUuid requests := by simp [ofInstance]
      have hearlier : ofInstance request.instanceUuid (earlier ++ [request]) =
          ofInstance request.instanceUuid earlier ++ [request] := by simp [ofInstance]
      rw [hearlier] at hrest
      rw [hmine, idealReplay, ideal_metrics_ofInstance, hfirst, except_ok_bind, hrest,
        List.filter_cons_of_pos (by simpa using hinstance)]
      rfl
    · have hmine : ofInstance instanceUuid (request :: requests) =
          ofInstance instanceUuid requests := by simp [ofInstance, huuid]
      have hearlier : ofInstance instanceUuid (earlier ++ [request]) =
          ofInstance instanceUuid earlier := by simp [ofInstance, huuid]
      rw [hearlier] at hrest
      rw [hmine, hrest, List.filter_cons_of_neg (by simpa [hinstance] using huuid)]

theorem inServiceOrder_ofInstance (instanceUuid : String) (requests : List SimulationRequest) :
    inServiceOrder (ofInstance instanceUuid requests) =
      ofInstance instanceUuid (inServiceOrder requests) :=
  (StableSort.filter_sort_key (fun request : SimulationRequest ↦
    request.serviceStartTime.microseconds) _ requests).symm

end Isolation

end InfiniteHBMReplayEngine

open InfiniteHBMReplayEngine in
/-- The event-driven replay is the ideal replay: it looks up and emits, request by request, what
follows from the earlier requests that have finished, and it fails where the accounting of such a
lookup does. What it emits for an instance, it emits without the other instances too. -/
theorem infinite_replay_ideal (engine : InfiniteHBMReplayEngine) (requests : List SimulationRequest)
    (horder : (inServiceOrder requests).Pairwise fun a b ↦ a.startTimeMs ≤ b.startTimeMs) :
    (∀ earlier request later, inServiceOrder requests = earlier ++ request :: later →
      ∀ metrics state, calls engine.runRequest earlier {} = .ok metrics state →
        ∃ state', lookupRequest request state = .ok (engine.idealLookup earlier request) state') ∧
    outcome (engine.run requests {}) = engine.idealReplay [] (inServiceOrder requests) ∧
    ∀ instanceUuid metrics, outcome (engine.run requests {}) = .ok metrics →
      outcome (engine.run (ofInstance instanceUuid requests) {}) =
        .ok (metrics.filter fun row ↦ row.instanceUuid = instanceUuid) := by
  refine ⟨fun earlier request later hsplit metrics state hcalls ↦ lookup_ideal horder hsplit hcalls,
    run_ideal horder, fun instanceUuid metrics hmetrics ↦ ?_⟩
  rw [run_ideal horder] at hmetrics
  have halone : (inServiceOrder (ofInstance instanceUuid requests)).Pairwise
      fun a b ↦ a.startTimeMs ≤ b.startTimeMs := by
    rw [inServiceOrder_ofInstance]
    exact horder.filter _
  rw [run_ideal halone, inServiceOrder_ofInstance]
  exact ideal_replay_ofInstance instanceUuid hmetrics

/-- Two equal prompts one after the other, and a third at the same time on another instance. -/
def repeatedPrompts : List SimulationRequest :=
  [Sample.request "first" 0 [Sample.block "a" 0 2, Sample.block "b" 1 1],
    Sample.request "second" 5 [Sample.block "a" 0 2, Sample.block "b" 1 1],
    { Sample.request "third" 5 [Sample.block "a" 0 2, Sample.block "b" 1 1] with
      instanceUuid := "other" }]

theorem infinite_replay_ideal_repeated :
    outcome (InfiniteHBMReplayEngine.run { defaultTtftMs := 5 } repeatedPrompts {}) =
      InfiniteHBMReplayEngine.idealReplay { defaultTtftMs := 5 } []
        (InfiniteHBMReplayEngine.inServiceOrder repeatedPrompts) ∧
    (InfiniteHBMReplayEngine.idealReplay { defaultTtftMs := 5 } []
        (InfiniteHBMReplayEngine.inServiceOrder repeatedPrompts)).toOption.map
      (List.map RequestMetrics.hbmHitTokens) = some [0, 2, 0] :=
  ⟨(infinite_replay_ideal _ repeatedPrompts (by decide)).2.1, by decide +kernel⟩

end InferTwin
