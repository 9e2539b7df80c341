import InferTwin.Cache.EventLog
import InferTwin.Properties.CacheContents

namespace InferTwin

open Effect

/-- A call on a cache, with the events that it drains. -/
def drainedBy {σ : Type} (serve : CacheCall → EStateM CacheError σ (Option PrefixLookupResult))
    (takeEvents : σ → List CacheEvent × σ) : CacheCall → EStateM CacheError σ (List CacheEvent)
  | .takeEvents => do
    let drained := takeEvents (← get)
    set drained.2
    return drained.1
  | op => do
    let _ ← serve op
    return []

def CacheCall.isDrain : CacheCall → Bool
  | .takeEvents => true
  | _ => false

/-- The calls without the drains among them. -/
def withoutDrains (ops : List CacheCall) : List CacheCall := ops.filter fun op ↦ !op.isDrain

section Hbm

variable {capacityBlocks : ℕ} (capacity_pos : 0 < capacityBlocks)

theorem HBMCache.told (call : TierCall) : (HBMCache.tier capacityBlocks capacity_pos).Told ∅ call where
  writes := rfl
  told h := by cases h

/-- The residents of an HBM cache. -/
def TierState.residents (state : TierState) : Residency := { hbm := state.blocks.keys }

theorem HBMCache.serve_logs {op : CacheCall} (hop : op.isDrain = false) {state : TierState}
    {order : List String} (h : (HBMCache.tier capacityBlocks capacity_pos).Holds state order) :
    ∃ state' log, (∃ order', (HBMCache.tier capacityBlocks capacity_pos).Holds state' order') ∧
      state.residents.Faithful log ∧ state.residents.fold log = state'.residents ∧ ∀ events,
        drainedBy (HBMCache.serve capacityBlocks capacity_pos) LruTier.takeEvents op
          { state with events } = .ok [] { state' with events := events ++ log } := by
  cases op with
  | lookupPrefix blocks call =>
    obtain ⟨state', log, hlogs, -, hholds⟩ := LruTier.Logs.lookupPrefix
      (HBMCache.told capacity_pos
        { nowMs := call.nowMs, requestId := call.requestId, instanceUuid := call.instanceUuid })
      h blocks
    refine ⟨state', log, ⟨_, hholds⟩, hlogs.faithful, hlogs.fold, fun events ↦ ?_⟩
    simp only [drainedBy, HBMCache.serve, HBMCache.lookupPrefix, map_apply, bind_apply, hlogs.runs]
    rfl
  | write blocks call reason =>
    obtain ⟨state', log, hlogs, -, hholds⟩ := LruTier.Logs.write
      (HBMCache.told capacity_pos
        { nowMs := call.nowMs, requestId := call.requestId, instanceUuid := call.instanceUuid })
      h reason blocks
    refine ⟨state', log, ⟨_, hholds⟩, hlogs.faithful, hlogs.fold, fun events ↦ ?_⟩
    simp only [drainedBy, HBMCache.serve, HBMCache.materialize, bind_apply, hlogs.runs]
    rfl
  | takeEvents => cases hop

/-- An HBM cache reports its calls. -/
def HBMCache.reporter (capacityBlocks : ℕ) (capacity_pos : 0 < capacityBlocks) :
    EventLog.Reporter Residency CacheEvent CacheCall CacheError TierState where
  apply := Residency.apply
  Reports := Residency.Reports
  call := drainedBy (HBMCache.serve capacityBlocks capacity_pos) LruTier.takeEvents
  isDrain := CacheCall.isDrain
  put events state := { state with events }
  view := TierState.residents
  Valid state := ∃ order, (HBMCache.tier capacityBlocks capacity_pos).Holds state order
  drains op hop state _ events := by
    cases op with
    | takeEvents => rfl
    | _ => cases hop
  logs op hop state h := by
    obtain ⟨order, h⟩ := h
    exact HBMCache.serve_logs capacity_pos hop h
  put_inj events events' state state' h := by
    have hresidents := congrArg TierState.residents h
    exact ⟨congrArg TierState.events h, hresidents⟩

end Hbm

section Tiered

variable {capacity : TieredCapacity}

def TieredState.residents (state : TieredState) : Residency where
  hbm := state.hbm.blocks.keys
  ddr := state.ddr.blocks.keys

/-- What a call on a tiered cache reports: first the HBM tier, then the DDR tier. -/
structure TieredState.Logs {α : Type} (x : EStateM CacheError TieredState α) (state : TieredState)
    (a : α) (state' : TieredState) (hbmLog ddrLog : List CacheEvent) : Prop where
  runs : ∀ events, x { state with events } =
    .ok a { state' with events := events ++ (hbmLog ++ ddrLog) }
  faithful : state.residents.Faithful (hbmLog ++ ddrLog)
  fold : state.residents.fold (hbmLog ++ ddrLog) = state'.residents
  hbm_own : ∀ event ∈ hbmLog, event.cacheTier = .hbm ∧ event.ddrUsedBlocks = 0
  ddr_own : ∀ event ∈ ddrLog, event.cacheTier = .ddr

/-- Both tiers hold what their reference lists do, and their own buffers are empty. -/
structure TieredCapacity.Quiet (capacity : TieredCapacity) (state : TieredState)
    (orders : List String × List String) : Prop where
  holds : capacity.Holds state orders
  hbm_empty : state.hbm.events = []
  ddr_empty : state.ddr.events = []

/-- What the DDR tier is told after the HBM tier has come to a state. -/
def TieredCapacity.callAfter (capacity : TieredCapacity) (nowMs : ℚ)
    (requestId instanceUuid : String) (hbm : TierState) : TierCall :=
  TieredPrefixCache.ddrCall capacity nowMs requestId instanceUuid { hbm }

theorem TieredCapacity.told (capacity : TieredCapacity) (nowMs : ℚ)
    (requestId instanceUuid : String) (hbm : TierState) :
    (DDRLRUCache.tier capacity.ddrBlocks capacity.ddr_pos).Told hbm.blocks.keys
      (capacity.callAfter nowMs requestId instanceUuid hbm) where
  writes := rfl
  told _ := rfl

/-- The HBM tier works, its events are moved, the DDR tier works, its events are moved. -/
theorem TieredState.Logs.of_tiers {α β γ : Type} {state : TieredState}
    {orders : List String × List String} (h : capacity.Quiet state orders)
    {x : EStateM CacheError TierState α} {y : α → TierCall → EStateM CacheError TierState β}
    {f : α → β → γ} {a : α} {b : β} {hbm ddr : TierState} {hbmLog ddrLog : List CacheEvent}
    {nowMs : ℚ} {requestId instanceUuid : String}
    (hx : (HBMCache.tier capacity.hbmBlocks capacity.hbm_pos).Logs state.ddr.blocks.keys x state.hbm
      a hbm hbmLog)
    (hy : (DDRLRUCache.tier capacity.ddrBlocks capacity.ddr_pos).Logs hbm.blocks.keys
      (y a (capacity.callAfter nowMs requestId instanceUuid hbm)) state.ddr b ddr ddrLog) :
    state.Logs (do
        let first ← TieredPrefixCache.onHbm x
        modify TieredPrefixCache.drainHbmEvents
        let call := TieredPrefixCache.ddrCall capacity nowMs requestId instanceUuid (← get)
        let second ← TieredPrefixCache.onDdr (y first call)
        modify TieredPrefixCache.drainDdrEvents
        return f first second)
      (f a b) { hbm := { hbm with events := [] }, ddr := { ddr with events := [] } } hbmLog
      ddrLog := by
  have hfold : state.residents.fold hbmLog =
      { hbm := hbm.blocks.keys, ddr := state.ddr.blocks.keys } := hx.fold
  refine ⟨fun events ↦ ?_, ?_, ?_, fun event hmem ↦ ?_, fun event hmem ↦ (hy.own event hmem).1⟩
  · have hhbm := hx.runs state.hbm.events
    have hddr := hy.runs state.ddr.events
    rw [h.hbm_empty] at hhbm
    rw [h.ddr_empty] at hddr
    have hcall : TieredPrefixCache.ddrCall capacity nowMs requestId instanceUuid {
        hbm := { hbm with events := [] }
        ddr := state.ddr
        events := events ++ hbmLog } = capacity.callAfter nowMs requestId instanceUuid hbm := rfl
    have hhbm' : x state.hbm = .ok a { hbm with events := hbmLog } := by
      rw [← List.nil_append hbmLog, ← hhbm, ← h.hbm_empty]
    have hddr' : y a (capacity.callAfter nowMs requestId instanceUuid hbm) state.ddr =
        .ok b { ddr with events := ddrLog } := by
      rw [← List.nil_append ddrLog, ← hddr, ← h.ddr_empty]
    simp only [bind_apply, TieredPrefixCache.onHbm, zoom, hhbm', modify_apply,
      TieredPrefixCache.drainHbmEvents, LruTier.takeEvents, get_apply, TieredPrefixCache.onDdr,
      hcall, hddr', TieredPrefixCache.drainDdrEvents, List.append_assoc]
    rfl
  · refine EventLog.faithful_append.mpr ⟨hx.faithful, ?_⟩
    change EventLog.Faithful _ _ (state.residents.fold hbmLog) ddrLog
    rw [hfold]
    exact hy.faithful
  · rw [Residency.fold_append, hfold]
    exact hy.fold
  · exact ⟨(hx.own event hmem).1, (hx.own event hmem).2 rfl⟩

/-- A lookup reports each block in the HBM tier, and each block that this one missed in the DDR
tier. -/
theorem TieredPrefixCache.lookup_logs {state : TieredState} {hbm ddr : List String}
    (h : capacity.Quiet state (hbm, ddr)) (blocks : List PrefixBlock) (nowMs : ℚ)
    (requestId instanceUuid : String) :
    ∃ answer state' hbmLog ddrLog,
      state.Logs (TieredPrefixCache.lookupPrefix capacity blocks nowMs requestId instanceUuid)
        answer state' hbmLog ddrLog ∧
      hbmLog.length = blocks.length ∧
      ddrLog.length = (Lru.misses PrefixBlock.blockKey hbm blocks).length ∧
      capacity.Quiet state'
        (Lru.lookup PrefixBlock.blockKey hbm blocks,
          Lru.lookup PrefixBlock.blockKey ddr (Lru.misses PrefixBlock.blockKey hbm blocks)) := by
  obtain ⟨hhbm, hddr⟩ := h.holds
  obtain ⟨hbm', hbmLog, hlogs, hlength, hhbm'⟩ := @LruTier.Logs.lookupPrefix _
    state.ddr.blocks.keys { nowMs, requestId, instanceUuid } _ _ ⟨rfl, by rintro ⟨⟩⟩ hhbm blocks
  obtain ⟨ddr', ddrLog, hlogs', hlength', hddr'⟩ := LruTier.Logs.lookupPrefix
    (capacity.told nowMs requestId instanceUuid hbm') hddr (Lru.misses PrefixBlock.blockKey hbm blocks)
  have hhbmLookup := hlogs.then_pure fun found : List PrefixBlock × List PrefixBlock ↦
    ({ hbmHitBlocks := found.1, ddrHitBlocks := [], missBlocks := found.2 } : PrefixLookupResult)
  have hddrLookup := hlogs'.then_pure fun found : List PrefixBlock × List PrefixBlock ↦
    ({ hbmHitBlocks := [], ddrHitBlocks := found.1, missBlocks := found.2 } : PrefixLookupResult)
  let ask (found : PrefixLookupResult) (call : TierCall) : EStateM CacheError TierState _ :=
    DDRLRUCache.lookupPrefix capacity.ddrBlocks capacity.ddr_pos found.missBlocks call
  let join (found found' : PrefixLookupResult) : PrefixLookupResult := {
    hbmHitBlocks := found.hbmHitBlocks
    ddrHitBlocks := found'.ddrHitBlocks
    missBlocks := found'.missBlocks }
  have htiers := @TieredState.Logs.of_tiers capacity _ _ _ state _ h _ ask join _ _ hbm' ddr' hbmLog
    ddrLog nowMs requestId instanceUuid hhbmLookup hddrLookup
  exact ⟨_, _, hbmLog, ddrLog, htiers, hlength, hlength',
    ⟨hhbm'.of_events [], hddr'.of_events []⟩, rfl, rfl⟩

/-- Writing reports the blocks that a tier stores. -/
theorem TieredPrefixCache.write_logs {state : TieredState} {hbm ddr : List String}
    (h : capacity.Quiet state (hbm, ddr)) (blocks : List PrefixBlock) (nowMs : ℚ)
    (requestId instanceUuid reason : String) :
    ∃ state' hbmLog ddrLog,
      state.Logs (TieredPrefixCache.materialize capacity blocks nowMs requestId instanceUuid reason)
        () state' hbmLog ddrLog ∧
      (hbmLog = [] ↔ ∀ block ∈ blocks, block.blockKey ∈ hbm) ∧
      (ddrLog = [] ↔ ∀ block ∈ blocks, block.blockKey ∈ ddr) ∧
      capacity.Quiet state'
        (Lru.write PrefixBlock.blockKey capacity.hbmBlocks hbm blocks,
          Lru.write PrefixBlock.blockKey capacity.ddrBlocks ddr blocks) := by
  obtain ⟨hhbm, hddr⟩ := h.holds
  obtain ⟨hbm', hbmLog, hlogs, hsilent, hhbm'⟩ := @LruTier.Logs.write _ state.ddr.blocks.keys
    { nowMs, requestId, instanceUuid } _ _ ⟨rfl, by rintro ⟨⟩⟩ hhbm reason blocks
  obtain ⟨ddr', ddrLog, hlogs', hsilent', hddr'⟩ := LruTier.Logs.write
    (capacity.told nowMs requestId instanceUuid hbm') hddr (ddrStoreReason reason) blocks
  let store (_ : Unit) (call : TierCall) : EStateM CacheError TierState Unit :=
    DDRLRUCache.store capacity.ddrBlocks capacity.ddr_pos blocks call (ddrStoreReason reason)
  have htiers := @TieredState.Logs.of_tiers capacity _ _ _ state _ h _ store (fun _ _ ↦ ()) _ _ hbm'
    ddr' hbmLog ddrLog nowMs requestId instanceUuid hlogs hlogs'
  exact ⟨_, hbmLog, ddrLog, htiers, hsilent, hsilent',
    ⟨hhbm'.of_events [], hddr'.of_events []⟩, rfl, rfl⟩

theorem TieredPrefixCache.serve_logs {op : CacheCall} (hop : op.isDrain = false)
    {state : TieredState} {orders : List String × List String} (h : capacity.Quiet state orders) :
    ∃ state' log, (∃ orders', capacity.Quiet state' orders') ∧ state.residents.Faithful log ∧
      state.residents.fold log = state'.residents ∧ ∀ events,
        drainedBy (TieredPrefixCache.serve capacity) TieredPrefixCache.takeEvents op
          { state with events } = .ok [] { state' with events := events ++ log } := by
  obtain ⟨hbm, ddr⟩ := orders
  cases op with
  | lookupPrefix blocks call =>
    obtain ⟨answer, state', hbmLog, ddrLog, hlogs, -, -, hquiet⟩ :=
      lookup_logs h blocks call.nowMs call.requestId call.instanceUuid
    refine ⟨state', _, ⟨_, hquiet⟩, hlogs.faithful, hlogs.fold, fun events ↦ ?_⟩
    simp only [drainedBy, TieredPrefixCache.serve, map_apply, bind_apply, hlogs.runs]
    rfl
  | write blocks call reason =>
    obtain ⟨state', hbmLog, ddrLog, hlogs, -, -, hquiet⟩ :=
      write_logs h blocks call.nowMs call.requestId call.instanceUuid reason
    refine ⟨state', _, ⟨_, hquiet⟩, hlogs.faithful, hlogs.fold, fun events ↦ ?_⟩
    simp only [drainedBy, TieredPrefixCache.serve, bind_apply, hlogs.runs]
    rfl
  | takeEvents => cases hop

theorem TieredPrefixCache.drain_eq {state : TieredState} {orders : List String × List String}
    (h : capacity.Quiet state orders) (events : List CacheEvent) :
    drainedBy (TieredPrefixCache.serve capacity) TieredPrefixCache.takeEvents .takeEvents
      { state with events } = .ok events { state with events := [] } := by
  have hhbm : ({ state.hbm with events := [] } : TierState) = state.hbm := by
    rw [← h.hbm_empty]
  have hddr : ({ state.ddr with events := [] } : TierState) = state.ddr := by
    rw [← h.ddr_empty]
  simp only [drainedBy, bind_apply, get_apply, TieredPrefixCache.takeEvents,
    TieredPrefixCache.drainDdrEvents, TieredPrefixCache.drainHbmEvents, LruTier.takeEvents,
    h.hbm_empty, h.ddr_empty, hhbm, hddr, List.append_nil]
  rfl

/-- A tiered cache reports its calls. -/
def TieredPrefixCache.reporter (capacity : TieredCapacity) :
    EventLog.Reporter Residency CacheEvent CacheCall CacheError TieredState where
  apply := Residency.apply
  Reports := Residency.Reports
  call := drainedBy (TieredPrefixCache.serve capacity) TieredPrefixCache.takeEvents
  isDrain := CacheCall.isDrain
  put events state := { state with events }
  view := TieredState.residents
  Valid state := ∃ orders, capacity.Quiet state orders
  drains op hop state h events := by
    obtain ⟨orders, h⟩ := h
    cases op with
    | takeEvents => exact TieredPrefixCache.drain_eq h events
    | _ => cases hop
  logs op hop state h := by
    obtain ⟨orders, h⟩ := h
    exact TieredPrefixCache.serve_logs hop h
  put_inj events events' state state' h := by
    have hresidents := congrArg TieredState.residents h
    exact ⟨congrArg TieredState.events h, hresidents⟩

end Tiered

/-- What a log tells of the calls that it is the log of: however drains are placed among them, all
that was drained in the end is the log, and it shows the residents. -/
def LogOf {σ : Type} (call : CacheCall → EStateM CacheError σ (List CacheEvent)) (fresh : σ)
    (residents : σ → Residency) (ops : List CacheCall) (log : List CacheEvent) : Prop :=
  Residency.Faithful {} log ∧ ∀ ops', withoutDrains ops' = withoutDrains ops →
    ∃ drained state, calls call (ops' ++ [.takeEvents]) fresh = .ok drained state ∧
      drained.flatten = log ∧ Residency.fold {} log = residents state

theorem HBMCache.log_of (capacityBlocks : ℕ) (capacity_pos : 0 < capacityBlocks)
    (ops : List CacheCall) : ∃ log,
      LogOf (drainedBy (HBMCache.serve capacityBlocks capacity_pos) LruTier.takeEvents) {}
        TierState.residents ops log := by
  obtain ⟨log, hfaithful, hlog⟩ := (HBMCache.reporter capacityBlocks capacity_pos).one_log ops
    (s := {}) ⟨[], .fresh _⟩
  refine ⟨log, hfaithful, fun ops' hops' ↦ ?_⟩
  obtain ⟨drained, state, hcalls, hdrained, hfold⟩ := hlog ops' hops' .takeEvents rfl
  exact ⟨drained, _, hcalls, hdrained, hfold⟩

theorem TieredPrefixCache.log_of (capacity : TieredCapacity) (ops : List CacheCall) : ∃ log,
    LogOf (drainedBy (TieredPrefixCache.serve capacity) TieredPrefixCache.takeEvents) {}
      TieredState.residents ops log := by
  obtain ⟨log, hfaithful, hlog⟩ := (TieredPrefixCache.reporter capacity).one_log ops (s := {})
    ⟨([], []), ⟨.fresh _, .fresh _⟩, rfl, rfl⟩
  refine ⟨log, hfaithful, fun ops' hops' ↦ ?_⟩
  obtain ⟨drained, state, hcalls, hdrained, hfold⟩ := hlog ops' hops' .takeEvents rfl
  exact ⟨drained, _, hcalls, hdrained, hfold⟩

/-- The event logs of the finite caches are faithful. -/
theorem cache_event_log_faithful :
    (∀ capacityBlocks (capacity_pos : 0 < capacityBlocks) (ops : List CacheCall), ∃ log,
      LogOf (drainedBy (HBMCache.serve capacityBlocks capacity_pos) LruTier.takeEvents) {}
        TierState.residents ops log) ∧
    ∀ (capacity : TieredCapacity) (ops : List CacheCall), ∃ log,
      LogOf (drainedBy (TieredPrefixCache.serve capacity) TieredPrefixCache.takeEvents) {}
        TieredState.residents ops log :=
  ⟨HBMCache.log_of, TieredPrefixCache.log_of⟩

def oneAndTwo : TieredCapacity := ⟨1, 2, Nat.one_pos, Nat.two_pos⟩

/-- A tiered cache evicts from both tiers, and it does not matter when its events are drained. -/
theorem cache_event_log_faithful_overfull :
    (∃ log, LogOf (drainedBy (HBMCache.serve 2 (by decide)) LruTier.takeEvents) {}
      TierState.residents overfullCalls log) ∧
    ∃ drained state drained' state',
      calls (drainedBy (TieredPrefixCache.serve oneAndTwo) TieredPrefixCache.takeEvents)
        (overfullCalls ++ [.takeEvents]) {} = .ok drained state ∧
      calls (drainedBy (TieredPrefixCache.serve oneAndTwo) TieredPrefixCache.takeEvents)
        (withoutDrains overfullCalls ++ [.takeEvents]) {} = .ok drained' state' ∧
      drained.flatten = drained'.flatten ∧
      ∀ tier, ∃ event ∈ drained.flatten, event.eventType = .evict ∧ event.cacheTier = tier := by
  refine ⟨cache_event_log_faithful.1 2 (by decide) overfullCalls, ?_⟩
  obtain ⟨log, -, hlog⟩ := cache_event_log_faithful.2 oneAndTwo overfullCalls
  obtain ⟨drained, state, hcalls, hdrained, -⟩ := hlog overfullCalls rfl
  obtain ⟨drained', state', hcalls', hdrained', -⟩ := hlog (withoutDrains overfullCalls) rfl
  refine ⟨drained, state, drained', state', hcalls, hcalls', hdrained.trans hdrained'.symm, ?_⟩
  have hevicts : ∀ drained ∈ (outcome (calls (drainedBy (TieredPrefixCache.serve oneAndTwo)
      TieredPrefixCache.takeEvents) (overfullCalls ++ [.takeEvents]) {})).toOption,
      (∃ event ∈ drained.flatten, event.eventType = .evict ∧ event.cacheTier = .hbm) ∧
      ∃ event ∈ drained.flatten, event.eventType = .evict ∧ event.cacheTier = .ddr := by
    decide +kernel
  obtain ⟨hhbm, hddr⟩ := hevicts drained (by rw [hcalls]; rfl)
  intro tier
  cases tier
  · exact hhbm
  · exact hddr

end InferTwin
