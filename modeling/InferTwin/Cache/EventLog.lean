import InferTwin.Cache.LruContents
import InferTwin.Foundation.EventLog

namespace InferTwin

open Effect

/-- Which keys are resident, tier by tier. -/
@[ext] structure Residency where
  hbm : Finset String := ∅
  ddr : Finset String := ∅

namespace Residency

/-- What an event does to the residents of its tier. -/
def apply (residency : Residency) (event : CacheEvent) : Residency :=
  match event.cacheTier, event.eventType with
  | .hbm, .materialize => { residency with hbm := insert event.blockKey residency.hbm }
  | .hbm, .evict => { residency with hbm := residency.hbm.erase event.blockKey }
  | .ddr, .store => { residency with ddr := insert event.blockKey residency.ddr }
  | .ddr, .evict => { residency with ddr := residency.ddr.erase event.blockKey }
  | _, _ => residency

def fold (residency : Residency) (events : List CacheEvent) : Residency :=
  events.foldl apply residency

/-- An event that tells the truth about what it does to the residents: an added key was absent, a
removed one was there, and the usage is that right after the event. -/
structure Reports (residency : Residency) (event : CacheEvent) : Prop where
  added_hbm : event.cacheTier = .hbm → event.eventType = .materialize →
    event.blockKey ∉ residency.hbm
  removed_hbm : event.cacheTier = .hbm → event.eventType = .evict → event.blockKey ∈ residency.hbm
  added_ddr : event.cacheTier = .ddr → event.eventType = .store → event.blockKey ∉ residency.ddr
  removed_ddr : event.cacheTier = .ddr → event.eventType = .evict → event.blockKey ∈ residency.ddr
  hbm_used : event.hbmUsedBlocks = (residency.apply event).hbm.card
  ddr_used : event.cacheTier = .ddr → event.ddrUsedBlocks = (residency.apply event).ddr.card

/-- Each event of a log tells the truth, on the residents that the events before it leave. -/
abbrev Faithful (residency : Residency) (events : List CacheEvent) : Prop :=
  EventLog.Faithful apply Reports residency events

theorem fold_append (residency : Residency) (events events' : List CacheEvent) :
    residency.fold (events ++ events') = (residency.fold events).fold events' :=
  List.foldl_append

end Residency

namespace LruTier

variable {α β : Type} (tier : LruTier)

/-- The residents, as a tier sees its own; those of the other tier are given. -/
def residency (other : Finset String) (state : TierState) : Residency :=
  match tier.tier with
  | .hbm => { hbm := state.blocks.keys, ddr := other }
  | .ddr => { hbm := other, ddr := state.blocks.keys }

/-- Whatever was in the buffer, a computation appends `log` to it, and the log is faithful. -/
structure Logs (other : Finset String) (x : EStateM CacheError TierState α) (state : TierState)
    (a : α) (state' : TierState) (log : List CacheEvent) : Prop where
  runs : ∀ events, x { state with events } = .ok a { state' with events := events ++ log }
  faithful : (tier.residency other state).Faithful log
  fold : (tier.residency other state).fold log = tier.residency other state'
  own : ∀ event ∈ log, event.cacheTier = tier.tier ∧ (tier.tier = .hbm → event.ddrUsedBlocks = 0)

/-- The tier writes with the event that adds to it, and the DDR tier is told the usage of the HBM
tier. -/
structure Told (other : Finset String) (call : TierCall) : Prop where
  writes : tier.writeEvent = match tier.tier with
    | .hbm => .materialize
    | .ddr => .store
  told : tier.tier = .ddr → call.hbmUsedBlocks = other.card

variable {tier} {other : Finset String} {call : TierCall} {state state' : TierState}

theorem residency_congr (h : state'.blocks.keys = state.blocks.keys) :
    tier.residency other state' = tier.residency other state := by
  unfold residency
  rw [h]

namespace Logs

variable {x : EStateM CacheError TierState α} {a : α} {log log' : List CacheEvent}

theorem pure (a : α) (state : TierState) : tier.Logs other (Pure.pure a) state a state [] where
  runs events := by simp
  faithful := trivial
  fold := rfl
  own := by simp

theorem bind {f : α → EStateM CacheError TierState β} {b : β} {state'' : TierState}
    (hx : tier.Logs other x state a state' log)
    (hf : tier.Logs other (f a) state' b state'' log') :
    tier.Logs other (x >>= f) state b state'' (log ++ log') where
  runs events := by
    rw [bind_apply, hx.runs]
    dsimp only
    rw [hf.runs, List.append_assoc]
  faithful := by
    have hrest := hf.faithful
    rw [← hx.fold] at hrest
    exact EventLog.faithful_append.mpr ⟨hx.faithful, hrest⟩
  fold := by rw [Residency.fold_append, hx.fold, hf.fold]
  own event hmem := (List.mem_append.mp hmem).elim (hx.own event) (hf.own event)

theorem then_pure (h : tier.Logs other x state a state' log) (f : α → β) :
    tier.Logs other (x >>= fun a ↦ Pure.pure (f a)) state (f a) state' log := by
  have hbind : tier.Logs other (x >>= fun a ↦ Pure.pure (f a)) state (f a) state' (log ++ []) :=
    h.bind (Logs.pure (f a) state')
  rwa [List.append_nil] at hbind

theorem congr {y : EStateM CacheError TierState α} (h : tier.Logs other y state a state' log)
    (hxy : ∀ events, x { state with events } = y { state with events }) :
    tier.Logs other x state a state' log where
  runs events := (hxy events).trans (h.runs events)
  faithful := h.faithful
  fold := h.fold
  own := h.own

theorem result (h : tier.Logs other x state a state' log) :
    x state = .ok a { state' with events := state.events ++ log } := h.runs state.events

/-- What is known of the contents after the computation is known of the state without its
events. -/
theorem holds {order : List String} (h : tier.Logs other x state a state' log)
    (hresult : ∃ result, x state = .ok a result ∧ tier.Holds result order) :
    tier.Holds state' order := by
  obtain ⟨result, hx, hholds⟩ := hresult
  rw [h.result] at hx
  cases hx
  exact hholds.of_events state'.events

end Logs

section Events

variable (eventType : CacheEventType) (instanceUuid key : String) (blockIndex tokenCount : ℕ)
  (reason : String) (sourceTier targetTier : Option CacheTier) (storeTokens : ℕ)

/-- The usage that an event reports is the one of the state it is made in. -/
theorem event_used (ht : tier.Told other call) (state : TierState) :
    let event := tier.event call state eventType instanceUuid key blockIndex tokenCount reason
      sourceTier targetTier storeTokens
    event.hbmUsedBlocks = (tier.residency other state).hbm.card ∧
      (event.cacheTier = .ddr → event.ddrUsedBlocks = (tier.residency other state).ddr.card) := by
  cases htier : tier.tier with
  | hbm => simp [event, residency, htier, residentBlocks, Dict.len]
  | ddr => simp [event, residency, htier, residentBlocks, Dict.len, ht.told htier]

theorem event_own (state : TierState) :
    let event := tier.event call state eventType instanceUuid key blockIndex tokenCount reason
      sourceTier targetTier storeTokens
    event.cacheTier = tier.tier ∧ (tier.tier = .hbm → event.ddrUsedBlocks = 0) := by
  refine ⟨rfl, fun htier ↦ ?_⟩
  simp only [event, htier]

end Events

/-- The event of a lookup adds and removes nothing. -/
theorem lookup_event_reports {event : CacheEvent} {residency : Residency}
    (htype : event.eventType = .lookupHit ∨ event.eventType = .lookupMiss)
    (hhbm : event.hbmUsedBlocks = residency.hbm.card)
    (hddr : event.cacheTier = .ddr → event.ddrUsedBlocks = residency.ddr.card) :
    residency.apply event = residency ∧ residency.Reports event := by
  have happly : residency.apply event = residency := by
    unfold Residency.apply
    cases event.cacheTier <;> rcases htype with htype | htype <;> rw [htype]
  refine ⟨happly, ?_⟩
  constructor
  · intro _ h
    rcases htype with htype | htype <;> rw [htype] at h <;> cases h
  · intro _ h
    rcases htype with htype | htype <;> rw [htype] at h <;> cases h
  · intro _ h
    rcases htype with htype | htype <;> rw [htype] at h <;> cases h
  · intro _ h
    rcases htype with htype | htype <;> rw [htype] at h <;> cases h
  · rw [happly, hhbm]
  · intro h
    rw [happly, hddr h]

namespace Logs

variable {order : List String}

/-- One event that leaves the contents alone. -/
theorem emit_lookup (ht : tier.Told other call) {eventType : CacheEventType}
    (htype : eventType = .lookupHit ∨ eventType = .lookupMiss) (block : PrefixBlock)
    (reason : String) (sourceTier targetTier : Option CacheTier) (storeTokens : ℕ) :
    ∃ event, tier.Logs other
      (tier.emit call eventType block reason sourceTier targetTier storeTokens) state () state
      [event] := by
  obtain ⟨hhbm, hddr⟩ := event_used eventType call.instanceUuid block.blockKey block.blockIndex
    block.tokenCount reason sourceTier targetTier storeTokens ht state
  obtain ⟨happly, hreports⟩ := lookup_event_reports htype hhbm hddr
  refine ⟨_, fun events ↦ rfl, ⟨hreports, trivial⟩, happly, fun event hmem ↦ ?_⟩
  rw [List.mem_singleton.mp hmem]
  exact event_own _ _ _ _ _ _ _ _ _ _

theorem access (h : tier.Holds state order) {key : String} {block : BlockMeta}
    (hblock : state.blocks.lookup key = some block) (countHit : Bool) :
    ∃ state', tier.Logs other (LruTier.access call key block countHit) state () state' [] := by
  have hmem := (h.mem_blocks key).mp (Dict.mem_iff_lookup.mpr ⟨_, hblock⟩)
  let used : BlockMeta := { block with
    lastAccessTimeMs := call.nowMs
    lastAccessSeq := state.accessSeq + 1
    hitCount := if countHit then block.hitCount + 1 else block.hitCount }
  refine ⟨{ state with
    accessSeq := state.accessSeq + 1
    blocks := state.blocks.insert key used
    recency := Lru.touch state.recency key }, fun events ↦ ?_, trivial, ?_, by simp⟩
  · rw [List.append_nil]
    exact @access_eq call key block countHit { state with events } (h.recency_eq ▸ hmem)
  · refine (residency_congr ?_).symm
    dsimp only
    rw [Dict.keys_insert]
    exact Finset.insert_eq_of_mem (Finmap.mem_keys.mpr (Dict.mem_iff_lookup.mpr ⟨_, hblock⟩))

theorem lookupHits (ht : tier.Told other call) (h : tier.Holds state order)
    (blocks : List PrefixBlock) :
    ∃ state' log, tier.Logs other (tier.lookupHits call blocks) state
        (Lru.hits PrefixBlock.blockKey order blocks) state' log ∧
      log.length = (Lru.hits PrefixBlock.blockKey order blocks).length ∧
      tier.Holds state' (Lru.lookup PrefixBlock.blockKey order blocks) := by
  induction blocks generalizing state order with
  | nil => exact ⟨state, [], .pure _ _, rfl, h⟩
  | cons block blocks ih =>
    unfold LruTier.lookupHits
    cases hblock : state.blocks.lookup block.blockKey with
    | none =>
      have hmem := h.lookup_eq_none_iff.mp hblock
      rw [Lru.hits_cons_of_not_mem hmem, Lru.lookup_cons_of_not_mem hmem]
      refine ⟨state, [], (Logs.pure [] state).congr fun events ↦ ?_, rfl, h⟩
      simp only [bind_apply, get_apply, hblock]
    | some existing =>
      have hmem := (h.mem_blocks _).mp (Dict.mem_iff_lookup.mpr ⟨_, hblock⟩)
      obtain ⟨used, haccess⟩ := @access _ other call _ _ h _ _ hblock true
      have hused := haccess.holds (h.access hblock call true)
      obtain ⟨event, hemit⟩ := @emit_lookup _ _ _ used ht _ (.inl rfl) block "prefix_hit"
        tier.ddrLabel none 0
      obtain ⟨final, log, hrest, hlength, hfinal⟩ := ih hused
      rw [Lru.hits_touch hmem] at hrest hlength
      rw [Lru.hits_cons_of_mem hmem, Lru.lookup_cons_of_mem hmem]
      have hlogs : tier.Logs other (do
            LruTier.access call block.blockKey existing true
            tier.emit call .lookupHit block "prefix_hit" tier.ddrLabel none 0
            let hits ← tier.lookupHits call blocks
            return block :: hits) state (block :: Lru.hits PrefixBlock.blockKey order blocks) final
          ([] ++ ([event] ++ (log ++ []))) :=
        haccess.bind (hemit.bind (hrest.bind (.pure _ _)))
      refine ⟨final, _, hlogs.congr fun events ↦ ?_, ?_, hfinal⟩
      · simp only [bind_apply, get_apply, hblock]
      · simp [hlength]

theorem emitMisses (ht : tier.Told other call) (state : TierState) (blocks : List PrefixBlock) :
    ∃ log, tier.Logs other (tier.emitMisses call blocks) state () state log ∧
      log.length = blocks.length := by
  induction blocks with
  | nil => exact ⟨[], .pure _ _, rfl⟩
  | cons block blocks ih =>
    obtain ⟨event, hemit⟩ := @emit_lookup _ _ _ state ht _ (.inr rfl) block "prefix_miss" none none 0
    obtain ⟨log, hrest, hlength⟩ := ih
    exact ⟨_, hemit.bind hrest, by simp [hlength]⟩

/-- A lookup reports each block it was asked for. -/
theorem lookupPrefix (ht : tier.Told other call) (h : tier.Holds state order)
    (blocks : List PrefixBlock) :
    ∃ state' log, tier.Logs other (tier.lookupPrefix call blocks) state
        (Lru.hits PrefixBlock.blockKey order blocks, Lru.misses PrefixBlock.blockKey order blocks)
        state' log ∧
      log.length = blocks.length ∧
      tier.Holds state' (Lru.lookup PrefixBlock.blockKey order blocks) := by
  obtain ⟨used, log, hhits, hlength, hused⟩ := lookupHits ht h blocks
  obtain ⟨log', hmisses, hlength'⟩ := emitMisses ht used (Lru.misses PrefixBlock.blockKey order blocks)
  have hlogs : tier.Logs other (do
        let hits ← tier.lookupHits call blocks
        tier.emitMisses call (Lru.misses PrefixBlock.blockKey order blocks)
        return (hits, Lru.misses PrefixBlock.blockKey order blocks)) state
      (Lru.hits PrefixBlock.blockKey order blocks, Lru.misses PrefixBlock.blockKey order blocks) used
      (log ++ (log' ++ [])) := hhits.bind (hmisses.bind (.pure _ _))
  refine ⟨used, _, hlogs.congr fun events ↦ ?_, ?_, hused⟩
  · unfold LruTier.lookupPrefix
    simp only [bind_apply, hhits.runs, Lru.misses_eq_drop]
  · rw [List.append_nil, List.length_append, hlength, hlength', ← List.length_append,
      Lru.hits_append_misses]

/-- The event of an eviction is made after the victim is gone. -/
theorem evictOne (ht : tier.Told other call) {oldest : String} {rest : List String}
    (h : tier.Holds state (oldest :: rest)) :
    ∃ state' event, tier.Logs other (tier.evictOne call) state () state' [event] := by
  obtain ⟨block, hblock⟩ := Dict.mem_iff_lookup.mp ((h.mem_blocks oldest).mpr List.mem_cons_self)
  have hkey : oldest ∈ state.blocks.keys :=
    Finmap.mem_keys.mpr (Dict.mem_iff_lookup.mpr ⟨_, hblock⟩)
  have hlen : state.blocks.len ≠ 0 := h.len_eq ▸ Nat.succ_ne_zero _
  let evicted : TierState := { state with blocks := state.blocks.erase oldest, recency := rest }
  let instanceUuid := if call.instanceUuid ≠ "" then call.instanceUuid else block.instanceUuid
  let event := tier.event call evicted .evict instanceUuid oldest block.blockIndex block.tokenCount
    "capacity" none none 0
  obtain ⟨hhbm, hddr⟩ := event_used .evict instanceUuid oldest block.blockIndex block.tokenCount
    "capacity" none none 0 ht evicted
  have happly : (tier.residency other state).apply event = tier.residency other evicted := by
    unfold Residency.apply residency
    cases htier : tier.tier <;> simp [event, LruTier.event, evicted, htier]
  have hreports : (tier.residency other state).Reports event := by
    constructor
    · intro _ hwrite
      cases hwrite
    · intro htier _
      have htier : tier.tier = .hbm := htier
      simp only [residency, htier]
      exact hkey
    · intro _ hwrite
      cases hwrite
    · intro htier _
      have htier : tier.tier = .ddr := htier
      simp only [residency, htier]
      exact hkey
    · rw [happly]
      exact hhbm
    · rw [happly]
      exact hddr
  refine ⟨evicted, event, fun events ↦ ?_, ⟨hreports, trivial⟩, happly, fun other hmem ↦ ?_⟩
  · unfold LruTier.evictOne LRUEvictionPolicy.selectVictim LRUEvictionPolicy.onRemove
    simp only [bind_apply, get_apply, h.recency_eq, hlen, hblock, if_false, check_ok_apply,
      modify_apply, List.mem_cons_self, if_true, List.erase_cons_head]
    rfl
  · rw [List.mem_singleton.mp hmem]
    exact event_own _ _ _ _ _ _ _ _ _ _

theorem evictLoop (ht : tier.Told other call) (h : tier.Holds state order) :
    ∃ state' log, tier.Logs other (tier.evictLoop call state.blocks.len) state () state' log ∧
      tier.Holds state' (if order.length < tier.capacityBlocks then order else order.tail) := by
  by_cases hroom : order.length < tier.capacityBlocks
  · rw [if_pos hroom]
    refine ⟨state, [], ⟨fun events ↦ ?_, trivial, rfl, by simp⟩, h⟩
    rw [List.append_nil]
    exact (h.of_events events).evictLoop_of_room call hroom _
  · rw [if_neg hroom]
    obtain ⟨oldest, rest, rfl⟩ : ∃ oldest rest, order = oldest :: rest :=
      List.exists_cons_of_length_pos (tier.capacity_pos.trans_le (not_lt.mp hroom))
    obtain ⟨evicted, event, hevict⟩ := evictOne ht h
    have hevicted := hevict.holds (h.evictOne call)
    refine ⟨evicted, [event], ⟨fun events ↦ ?_, hevict.faithful, hevict.fold, hevict.own⟩, hevicted⟩
    have hrest := (hevicted.of_events (events ++ [event])).evictLoop_of_room call h.length_le
      rest.length
    rw [h.len_eq, List.length_cons]
    unfold LruTier.evictLoop
    simp only [bind_apply, get_apply, h.len_eq, ge_iff_le, not_lt.mp hroom, if_true, hevict.runs,
      hrest]

/-- A block that is not there is stored, and then reported. -/
theorem store (ht : tier.Told other call) (h : tier.Holds state order) {block : PrefixBlock}
    (hnot : block.blockKey ∉ order) (reason : String) (storeTokens : ℕ) :
    ∃ state' event, tier.Logs other (do
      LruTier.insertBlock call block
      tier.emit call tier.writeEvent block reason none tier.ddrLabel storeTokens) state () state'
      [event] := by
  have hkey : block.blockKey ∉ state.blocks.keys := fun hmem ↦
    hnot ((h.mem_blocks _).mp (Finmap.mem_keys.mp hmem))
  let stored : TierState := { state with
    accessSeq := state.accessSeq + 1
    blocks := state.blocks.insert block.blockKey {
      blockIndex := block.blockIndex
      tokenCount := block.tokenCount
      sizeBytes := block.sizeBytes
      createdTimeMs := call.nowMs
      lastAccessTimeMs := call.nowMs
      lastAccessSeq := state.accessSeq + 1
      writtenByRequestId := call.requestId
      instanceUuid := call.instanceUuid }
    recency := LRUEvictionPolicy.onInsert state.recency block.blockKey }
  let event := tier.event call stored tier.writeEvent call.instanceUuid block.blockKey
    block.blockIndex block.tokenCount reason none tier.ddrLabel storeTokens
  obtain ⟨hhbm, hddr⟩ := event_used tier.writeEvent call.instanceUuid block.blockKey
    block.blockIndex block.tokenCount reason none tier.ddrLabel storeTokens ht stored
  have hwrites := ht.writes
  have happly : (tier.residency other state).apply event = tier.residency other stored := by
    unfold Residency.apply residency
    cases htier : tier.tier <;> rw [htier] at hwrites <;>
      simp [event, LruTier.event, stored, htier, hwrites, Dict.keys_insert]
  have hreports : (tier.residency other state).Reports event := by
    constructor
    · intro htier _
      have htier : tier.tier = .hbm := htier
      simp only [residency, htier]
      exact hkey
    · intro htier hevict
      have hevict : tier.writeEvent = .evict := hevict
      rw [hwrites] at hevict
      cases h : tier.tier <;> rw [h] at hevict <;> cases hevict
    · intro htier _
      have htier : tier.tier = .ddr := htier
      simp only [residency, htier]
      exact hkey
    · intro htier hevict
      have hevict : tier.writeEvent = .evict := hevict
      rw [hwrites] at hevict
      cases h : tier.tier <;> rw [h] at hevict <;> cases hevict
    · rw [happly]
      exact hhbm
    · rw [happly]
      exact hddr
  refine ⟨stored, event, fun events ↦ rfl, ⟨hreports, trivial⟩, happly, fun other hmem ↦ ?_⟩
  rw [List.mem_singleton.mp hmem]
  exact event_own _ _ _ _ _ _ _ _ _ _

/-- Writing reports the blocks that it stores; it stores none if all of them are there. -/
theorem write (ht : tier.Told other call) (h : tier.Holds state order) (reason : String)
    (blocks : List PrefixBlock) :
    ∃ state' log, tier.Logs other (tier.write call reason blocks) state () state' log ∧
      (log = [] ↔ ∀ block ∈ blocks, block.blockKey ∈ order) ∧
      tier.Holds state' (Lru.write PrefixBlock.blockKey tier.capacityBlocks order blocks) := by
  induction blocks generalizing state order with
  | nil => exact ⟨state, [], .pure _ _, by simp, h⟩
  | cons block blocks ih =>
    unfold LruTier.write
    cases hblock : state.blocks.lookup block.blockKey with
    | none =>
      have hmem := h.lookup_eq_none_iff.mp hblock
      obtain ⟨roomy, evictions, hevict, hroomy⟩ := evictLoop ht h
      have hnot : block.blockKey ∉
          if order.length < tier.capacityBlocks then order else order.tail := by
        split_ifs
        · exact hmem
        · exact fun htail ↦ hmem (List.mem_of_mem_tail htail)
      obtain ⟨stored, event, hstore⟩ := store ht hroomy hnot reason
        (if tier.tier = .ddr then block.tokenCount else 0)
      have hstored := hstore.holds (by
        obtain ⟨inserted, hinsert, hinserted⟩ := hroomy.insertBlock call
          (Lru.length_tail_lt tier.capacity_pos h.length_le) hnot
        obtain ⟨told, hemit, htold⟩ := hinserted.emit call tier.writeEvent block reason none
          tier.ddrLabel (if tier.tier = .ddr then block.tokenCount else 0)
        exact ⟨told, by simp only [bind_apply, hinsert, hemit], htold⟩)
      obtain ⟨final, log, hrest, -, hfinal⟩ := ih hstored
      have hlogs : tier.Logs other (do
            tier.evictLoop call state.blocks.len
            (do
              LruTier.insertBlock call block
              tier.emit call tier.writeEvent block reason none tier.ddrLabel
                (if tier.tier = .ddr then block.tokenCount else 0))
            tier.write call reason blocks) state () final (evictions ++ ([event] ++ log)) :=
        hevict.bind (hstore.bind hrest)
      refine ⟨final, _, hlogs.congr fun events ↦ ?_, ?_, ?_⟩
      · simp only [bind_apply, get_apply, hblock, bind_assoc]
      · simp [hmem]
      · rwa [Lru.write, List.foldl_cons, Lru.store, if_neg hmem]
    | some existing =>
      have hmem := (h.mem_blocks _).mp (Dict.mem_iff_lookup.mpr ⟨_, hblock⟩)
      obtain ⟨used, haccess⟩ := @access _ other call _ _ h _ _ hblock false
      obtain ⟨final, log, hrest, hsilent, hfinal⟩ := ih (haccess.holds (h.access hblock call false))
      have hlogs : tier.Logs other (do
            LruTier.access call block.blockKey existing false
            tier.write call reason blocks) state () final ([] ++ log) := haccess.bind hrest
      refine ⟨final, _, hlogs.congr fun events ↦ ?_, ?_, ?_⟩
      · simp only [bind_apply, get_apply, hblock]
      · rw [List.nil_append, hsilent]
        simp [hmem, Lru.mem_touch_of_mem hmem]
      · rwa [Lru.write, List.foldl_cons, Lru.store, if_pos hmem]

end Logs

end LruTier

end InferTwin
