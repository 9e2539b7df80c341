import InferTwin.Properties.Accounts
import InferTwin.Properties.PrefixKeys
import InferTwin.Refinement.ListReplay
import InferTwin.Server.Outcome
import InferTwin.Server.Provenance

namespace InferTwin

open Effect HashChain

section Prefixes

variable {sha256 : List UInt8 → List UInt8} {settings settings' : BlockSettings}
  {tokenIds tokenIds' : List ℕ} {parent : List UInt8} {blockIndex : ℕ}
  {blocks blocks' : List PrefixBlock}

theorem encode_field_short {value : String} {bytes : List UInt8}
    (h : encodeField value = .ok bytes) : value.utf8ByteSize < 2 ^ 32 := by
  have hlength := text_bytes_length value
  unfold encodeField toBytes at h
  dsimp only at h
  split_ifs at h with hshort
  rw [← hlength]
  exact hshort

/-- A key that could be made is made of texts that fit into their fields. -/
theorem chain_message_short {message : List UInt8} {block : PrefixBlock}
    (h : chainMessage settings parent block.contentHash = .ok message) :
    keyItem settings block ∈ shortItems := by
  unfold chainMessage at h
  unfold keyItem BlockSettings.keyTenant
  cases hscope : settings.cacheScope with
  | tenantIsolated =>
    simp only [hscope, except_bind_ok] at h
    obtain ⟨model, hmodel, tenant, htenant, content, hcontent, -⟩ := h
    refine ⟨encode_field_short hmodel, ?_, encode_field_short hcontent⟩
    rintro text htext
    cases htext
    exact encode_field_short htenant
  | modelShared =>
    simp only [hscope, except_bind_ok] at h
    obtain ⟨model, hmodel, tenant, -, content, hcontent, -⟩ := h
    exact ⟨encode_field_short hmodel, by simp, encode_field_short hcontent⟩
  | other text =>
    simp only [hscope, except_bind_ok] at h
    obtain ⟨model, -, tenant, htenant, -⟩ := h
    cases htenant

theorem token_bytes_fit {tokens : List ℕ} {bytes : List UInt8} (h : tokenBytes tokens = .ok bytes) :
    ∀ token ∈ tokens, token < 2 ^ 128 := by
  induction tokens generalizing bytes with
  | nil => simp
  | cons token tokens ih =>
    unfold tokenBytes toBytes at h
    split_ifs at h with hfits
    obtain ⟨rest, hrest, -⟩ := except_bind_ok.mp h
    exact List.forall_mem_cons.mpr ⟨by simpa using hfits, ih hrest⟩

namespace Hashes

theorem items_fit (h : Hashes sha256 settings parent blockIndex tokenIds blocks) :
    ∀ item ∈ blocks.map (keyItem settings), item ∈ shortItems := by
  induction h with
  | nil => simp
  | cons _ _ _ hmessage _ _ _ _ ih =>
    exact List.forall_mem_cons.mpr ⟨chain_message_short hmessage, ih⟩

/-- The tokens up to the end of a block, chunk by chunk. -/
theorem take_tokens (h : Hashes sha256 settings parent blockIndex tokenIds blocks) {n : ℕ}
    (hn : n ≤ blocks.length) : tokenIds.take (blockTokens (blocks.take n)) =
      (List.range n).flatMap (chunkTokens settings.blockSizeTokens tokenIds) := by
  induction h generalizing n with
  | nil =>
    obtain rfl : n = 0 := Nat.le_zero.mp hn
    simp
  | @cons _ _ tokenIds _ _ block rest _ _ _ _ _ _ hcount _ ih =>
    cases n with
    | zero => simp
    | succ n =>
      have hsplit : tokenIds.take block.tokenCount = tokenIds.take settings.blockSizeTokens := by
        rw [hcount, List.length_take, ← List.take_take, List.take_of_length_le le_rfl]
      have hrest : tokenIds.drop block.tokenCount = tokenIds.drop settings.blockSizeTokens := by
        rw [hcount, List.length_take]
        rcases le_total settings.blockSizeTokens tokenIds.length with hle | hle
        · rw [Nat.min_eq_left hle]
        · rw [Nat.min_eq_right hle, List.drop_length, List.drop_of_length_le hle]
      have hchunks : (List.range (n + 1)).flatMap (chunkTokens settings.blockSizeTokens tokenIds) =
          tokenIds.take settings.blockSizeTokens ++ (List.range n).flatMap
            (chunkTokens settings.blockSizeTokens (tokenIds.drop settings.blockSizeTokens)) := by
        rw [List.range_succ_eq_map, List.flatMap_cons, List.flatMap_map]
        congr 1
        · rw [chunkTokens, Nat.zero_mul, List.drop_zero]
        · exact List.flatMap_congr fun i _ ↦ chunk_tokens_succ _ _ _
      rw [List.take_succ_cons, blockTokens_cons, List.take_add, hsplit, hrest,
        ih (Nat.le_of_succ_le_succ hn), hchunks]

end Hashes

/-- Without collisions a shared key tells a shared prefix: the same sharers, and the same tokens
up to the end of the block. -/
theorem key_tells_prefix (hlength : ∀ message, (sha256 message).length = 32)
    (hbuild : buildPrefixBlocks sha256 tokenIds settings = .ok blocks)
    (hbuild' : buildPrefixBlocks sha256 tokenIds' settings' = .ok blocks')
    (hinj : Set.InjOn sha256
      (hashInputs sha256 settings tokenIds ∪ hashInputs sha256 settings' tokenIds'))
    {i j : ℕ} {block block' : PrefixBlock} (hblock : blocks[i]? = some block)
    (hblock' : blocks'[j]? = some block') (hkey : block.blockKey = block'.blockKey) :
    i = j ∧ settings.model = settings'.model ∧ settings.keyTenant = settings'.keyTenant ∧
      blockTokens (blocks.take (i + 1)) = blockTokens (blocks'.take (j + 1)) ∧
      tokenIds.take (blockTokens (blocks.take (i + 1))) =
        tokenIds'.take (blockTokens (blocks'.take (j + 1))) := by
  have hhashes := build_hashes hbuild
  have hhashes' := build_hashes hbuild'
  have hi := (List.getElem?_eq_some_iff.mp hblock).1
  have hj := (List.getElem?_eq_some_iff.mp hblock').1
  rw [hhashes.block_key hblock, hhashes'.block_key hblock', hex_injective.eq_iff] at hkey
  have hitems := digest_injective (key_link_parts hlength)
    (fun item hitem ↦ hhashes.items_fit item (List.mem_of_mem_take hitem))
    (fun item hitem ↦ hhashes'.items_fit item (List.mem_of_mem_take hitem))
    (hinj.mono (by
      rintro message (rfl | hmessage | hmessage)
      · exact .inl (.inl rfl)
      · exact .inl (.inr (.inr ⟨blocks, _, hbuild, hhashes.key_messages,
          inputs_prefix sha256 keyLink (List.take_prefix _ _) _ hmessage⟩))
      · exact .inr (.inr (.inr ⟨blocks', _, hbuild', hhashes'.key_messages,
          inputs_prefix sha256 keyLink (List.take_prefix _ _) _ hmessage⟩)))) hkey
  have hlengths := congrArg List.length hitems
  rw [List.length_take, List.length_take, List.length_map, List.length_map] at hlengths
  obtain rfl : i = j := by omega
  -- equal items are those of equal chunks
  have heach (k : ℕ) (hk : k ≤ i) : settings.model = settings'.model ∧
      settings.keyTenant = settings'.keyTenant ∧ chunkTokens settings.blockSizeTokens tokenIds k =
        chunkTokens settings'.blockSizeTokens tokenIds' k := by
    have hb := List.getElem?_eq_getElem (hk.trans_lt hi)
    have hb' := List.getElem?_eq_getElem (hk.trans_lt hj)
    have hitem : keyItem settings blocks[k] = keyItem settings' blocks'[k] := by
      have hget := congrArg (·[k]?) hitems
      simp only [List.getElem?_take_of_lt (Nat.lt_succ_of_le hk)] at hget
      rw [map_item_getElem? hb, map_item_getElem? hb'] at hget
      exact Option.some.inj hget
    rw [keyItem, keyItem, KeyItem.mk.injEq] at hitem
    obtain ⟨hmodel, htenant, hcontents⟩ := hitem
    obtain ⟨content, hcontent, hhash, -⟩ := hhashes.content hb
    obtain ⟨content', hcontent', hhash', -⟩ := hhashes'.content hb'
    rw [hhash, hhash'] at hcontents
    have hbytes : content = content' := hinj
      (.inl (.inr (.inl ⟨k, hhashes.lt_length_iff.mp (hk.trans_lt hi), hcontent⟩)))
      (.inr (.inr (.inl ⟨k, hhashes'.lt_length_iff.mp (hk.trans_lt hj), hcontent'⟩)))
      (hex_injective hcontents)
    have hfit := token_bytes_fit hcontent
    have hfit' := token_bytes_fit hcontent'
    rw [hbytes, ← hcontent', token_bytes_ok hfit, token_bytes_ok hfit'] at hcontent
    exact ⟨hmodel, htenant, token_bytes_inj hfit hfit' (Except.ok.inj hcontent)⟩
  have htake : tokenIds.take (blockTokens (blocks.take (i + 1))) =
      tokenIds'.take (blockTokens (blocks'.take (i + 1))) := by
    rw [hhashes.take_tokens hi, hhashes'.take_tokens hj]
    exact List.flatMap_congr fun k hk ↦ (heach k (Nat.le_of_lt_succ (List.mem_range.mp hk))).2.2
  have hends : ∀ {settings : BlockSettings} {tokenIds : List ℕ} {blocks : List PrefixBlock},
      buildPrefixBlocks sha256 tokenIds settings = .ok blocks →
      (tokenIds.take (blockTokens (blocks.take (i + 1)))).length =
        blockTokens (blocks.take (i + 1)) := by
    intro settings tokenIds blocks hbuild
    have hsum := (build_prefix_blocks_tiled hbuild).2.2
    rw [List.length_take, ← hsum]
    refine Nat.min_eq_left ?_
    conv_rhs => rw [← List.take_append_drop (i + 1) blocks, blockTokens_append]
    exact Nat.le_add_right _ _
  obtain ⟨hmodel, htenant, -⟩ := heach 0 (Nat.zero_le _)
  refine ⟨rfl, hmodel, htenant, ?_, htake⟩
  rw [← hends hbuild, ← hends hbuild', htake]

end Prefixes

variable {C K : Type} {engine : Engine C K} {requests : List SimulationRequest}

/-- The blocks of a request have keys of their own and hold its prompt. -/
structure SimulationRequest.Tokenized (request : SimulationRequest) : Prop where
  nodup : (request.promptBlocks.map PrefixBlock.blockKey).Nodup
  tokens_eq : blockTokens request.promptBlocks = request.promptTokens

/-- What is known of a request of a batch before it is served. -/
structure Job.Recorded (requests : List SimulationRequest) (trace : List TraceEvent) (job : Job) :
    Prop where
  requested : job.request ∈ requests
  reported : (job.id, job.lookup) ∈ lookupsOf trace
  services_eq : servicesOf job.id trace = job.services
  missed : job.lookup.materializationBlocks ⊆ job.request.promptBlocks

theorem Job.Recorded.handOver {trace : List TraceEvent} {job : Job}
    (h : job.Recorded requests trace) : job.handOver.Recorded requests trace := by
  have hid : job.handOver.id = job.id := RequestState.consumed_request_id job.state
  refine ⟨h.requested, ?_, ?_, h.missed⟩
  · rw [hid]
    exact h.reported
  · rw [hid]
    exact h.services_eq

theorem Reaches.supplied {timelineMode : TimelineMode} {nowMs lostMs : ℚ}
    {trace trace' : List TraceEvent} {record : IterationRecord} {planned job : Job} {tokens : ℕ}
    {slice : ScheduledSlice} {sliceRecord : SliceRecord} {source : PrefixBlock}
    (hin : planned.InService timelineMode nowMs lostMs) (hs : Sliced (planned, tokens) (job, slice))
    (hjob : job.Recorded requests trace) (hbuilt : job.request.Tokenized)
    (hreached : Reaches job.lookup job.state
      (job.state.numComputedTokens + slice.scheduledPrefillTokens) source)
    (hserved : (slice, sliceRecord) ∈ record.served) (hsource : source ∈ sliceRecord.materialized)
    (hrecords : iterationsOf trace' = iterationsOf trace ++ [record])
    (hlookups : lookupsOf trace ⊆ lookupsOf trace') :
    ∃ front, Supplied requests trace' record.finishTimeMs job.request front source := by
  obtain ⟨hmem, hupto⟩ := hreached
  have hd := hs.describes
  have he : job = planned.handOver := hs.job_eq
  subst he
  have htracks := hin.ledger.tracks.consumed
  have hknows := hin.ledger.knows.consumed
  have hid : planned.handOver.id = planned.request.requestId := htracks.id_eq
  obtain ⟨front, back, hprompt⟩ := List.append_of_mem (hjob.missed hmem)
  have hend : blockTokens (front ++ [source]) ≤
      planned.handOver.state.numComputedTokens + slice.scheduledPrefillTokens := by
    rcases hupto with hall | ⟨endToken, hlast, hle⟩
    · rw [hall]
      have htokens : planned.handOver.state.promptTokens = planned.request.promptTokens :=
        htracks.tokens_eq
      have hsum : blockTokens planned.request.promptBlocks = planned.request.promptTokens :=
        hbuilt.tokens_eq
      change planned.request.promptBlocks = _ at hprompt
      rw [htokens, ← hsum, hprompt, blockTokens_append, blockTokens_append, blockTokens_cons,
        blockTokens_cons, blockTokens_nil]
      omega
    · have hnodup := hbuilt.nodup
      rw [hprompt, List.map_append, List.map_cons] at hnodup
      have hnew := (List.nodup_cons.mp hnodup.of_append_right).1
      have hblocks : planned.handOver.state.promptBlocks = front ++ source :: back :=
        htracks.blocks_eq.trans hprompt
      rw [hblocks, block_end_token_eq front hnew] at hlast
      cases hlast
      rw [blockTokens_append, blockTokens_cons, blockTokens_nil]
      omega
  refine ⟨front, hjob.requested, ⟨back, by rw [hprompt]; simp⟩, iterationsOf trace, record, [],
    hrecords, le_rfl, ⟨_, hserved, ?_, hsource⟩, planned.lookup, hlookups ?_, ?_⟩
  · exact (hd.id_eq.trans hin.ledger.tracks.id_eq :)
  · have hreported := hjob.reported
    rw [hid] at hreported
    exact hreported
  · -- the tokens before this slice are those of the lookup and of the services so far
    have hcached := hin.ledger.knows.cached_eq
    have htiles := hin.ledger.tiles.sum
    have hcomputed : planned.handOver.state.numComputedTokens = planned.state.numComputedTokens := by
      simp [Job.handOver]
    have hservices : servicesOf planned.request.requestId trace = planned.services := by
      rw [← hid]
      exact hjob.services_eq
    have hlast : slice.scheduledPrefillTokens ≤
        computedTokens planned.request.requestId [record] := by
      unfold computedTokens
      refine List.single_le_sum (fun _ _ ↦ Nat.zero_le _) _ (List.mem_map.mpr
        ⟨{ slice, durationMs := record.durationMs, record := sliceRecord }, ?_, rfl⟩)
      rw [List.flatMap_singleton]
      refine List.mem_map.mpr ⟨(slice, sliceRecord), List.mem_filter.mpr ⟨hserved, ?_⟩, rfl⟩
      simpa using (hd.id_eq.trans hin.ledger.tracks.id_eq :)
    have hsum : computedTokens planned.request.requestId (iterationsOf trace ++ [record]) =
        (planned.slices.map ScheduledSlice.scheduledPrefillTokens).sum +
          computedTokens planned.request.requestId [record] := by
      unfold computedTokens
      rw [List.flatMap_append, List.map_append, List.sum_append]
      congr 1
      change ((servicesOf planned.request.requestId trace).map _).sum = _
      rw [hservices, Job.slices, List.map_map]
      rfl
    change blockTokens (front ++ [source]) ≤ planned.lookup.effectiveHitTokens +
      computedTokens planned.request.requestId (iterationsOf trace ++ [record])
    rw [hsum]
    omega

theorem mem_zip_of_mem_right {α β : Type} {R : α → β → Prop} {items : List α} {others : List β}
    (h : List.Forall₂ R items others) {other : β} (hmem : other ∈ others) :
    ∃ item, (item, other) ∈ items.zip others := by
  induction h with
  | nil => cases hmem
  | @cons item first _ _ _ _ ih =>
    rcases List.mem_cons.mp hmem with rfl | hmem
    · exact ⟨item, List.mem_cons_self⟩
    · obtain ⟨found, hfound⟩ := ih hmem
      exact ⟨found, List.mem_cons_of_mem _ hfound⟩

/-- The blocks a request missed are blocks of its prompt. -/
def MissesOwn (request : SimulationRequest) (_ : ℚ) (lookup : Option LookupMetrics) : Prop :=
  ∀ known ∈ lookup, known.materializationBlocks ⊆ request.promptBlocks

theorem misses_own_kept (hsplits : engine.cache.Splits) : KeptByLookups engine MissesOwn := by
  intro request _ _ _ _ _ raw _ lookup _ hraw hlookup known hknown
  cases hknown
  have hmissed : lookup.materializationBlocks = raw.missBlocks := by
    unfold LookupMetrics.fromResult at hlookup
    obtain ⟨accounted, hacc, hlookup⟩ := except_bind_ok.mp hlookup
    cases hlookup
    exact (account_spec hacc).2.2.2.2.2
  rw [hmissed, ← hsplits _ _ _ _ _ _ _ hraw]
  exact List.subset_append_right _ _

/-- What is known of a replay between two passes: where the blocks of the cache come from, and
what this rests on. -/
structure Session.Traced (engine : Engine C K) (requests : List SimulationRequest)
    (residents : C → Set String) (session : Session) (world : World C K) : Prop where
  accounts : session.Accounts engine.timelineMode world.trace
  remembers : session.Remembers engine.config world.trace
  misses : session.Throughout MissesOwn
  sourced : Sourced requests residents session.nowMs world

section Passing

variable {residents : C → Set String} {instanceUuid : String} {session session' : Session}
  {frontier : Frontier} {world world₁ world' : World C K}

theorem Prepares.recorded (hsplits : engine.cache.Splits)
    (h : Prepares engine session world frontier world₁)
    (hw : session.Wf engine.config engine.timelineMode requests)
    (ht : session.Traced engine requests residents world)
    {granted admitted : List (Job × ScheduledSlice)}
    (hg : sliceAll frontier.granted = .ok granted)
    (hadm : sliceAll (frontier.entering session.nowMs) = .ok admitted) :
    ∀ item ∈ batchOf granted frontier.idle admitted, item.1.Recorded requests world₁.trace := by
  have hservices := h.looks_only.services_eq
  have hactive := hw.request_mem
  obtain ⟨hreported, hsub, -⟩ := h.remembers hw ht.remembers
  obtain ⟨hmisses, -, -⟩ := h.keeps (misses_own_kept hsplits) hw ht.misses
  refine (h.prepared hw).batch_forall (Q := Job.Recorded requests world₁.trace) hg hadm ?_ ?_
    (fun job hj ↦ hj.handOver) fun job hj ↦ ⟨hj.requested, hj.reported, hj.services_eq, hj.missed⟩
  · intro job hj
    refine ⟨hactive _ (List.mem_append_left _ (List.mem_map_of_mem hj)),
      hsub (ht.remembers.running job hj), ?_, ht.misses.running job hj _ rfl⟩
    rw [hservices]
    exact ht.accounts.running job hj
  · intro item hi
    obtain ⟨entry, he, _, _, hlook⟩ := h.from_line.admitted item hi
    refine ⟨?_, hreported.admitted item hi, ?_, hmisses item hi _ rfl⟩
    · rw [hlook.request_eq]
      exact hactive _ (List.mem_append_right _ he)
    · rw [hservices, hlook.services_eq, hlook.id_eq]
      exact ht.accounts.waiting entry he

/-- What an iteration makes visible is supplied by it. -/
theorem Iterates.sourced (hcache : engine.cache.Honest residents) (hsplits : engine.cache.Splits)
    (hpolicy : RepositoryPolicy engine.materializationPolicy)
    (hbuilt : ∀ request ∈ requests, request.Tokenized)
    (hi : Iterates engine instanceUuid session frontier (engine.drained world₁) session' world')
    (h : Prepares engine session world frontier world₁)
    (hw : session.Wf engine.config engine.timelineMode requests)
    (ht : session.Traced engine requests residents world) :
    Sourced requests residents session'.nowMs world' := by
  have hprepared := h.prepared hw
  have hs := (h.sourced hcache hsplits hw ht.sourced).drained hcache
  obtain ⟨hg, hadm, hshape, -, hlatency, -, happlies, -⟩ := hi
  rename_i granted admitted shape latency world₂ breakdown applied world₃ metric
  have hrecorded := h.recorded hsplits hw ht hg hadm
  have hbatched := hprepared.batched hg hadm
  obtain ⟨hresident, hreached⟩ := happlies.supplies hcache hpolicy hbatched
  have houtcomes := happlies.outcomes hbatched
  obtain ⟨memo, -, hmemo⟩ := estimate_latency_ok hlatency
  have htrace : world₃.trace = world₁.trace := by
    rw [houtcomes.world_eq, hmemo]
    rfl
  have hcacheEq : world₂.cache = (engine.drained world₁).cache := by rw [hmemo]
  have hle := engine.clock.le_add session.nowMs latency.durationMs latency.duration_nonneg
  have hslices := (batch_shape_ok hshape).2.1
  rw [batch_slices, ← hslices] at hreached
  have hrecords := houtcomes.records
  rw [batch_slices, ← hslices] at hrecords
  obtain ⟨record, hrecord⟩ : ∃ record : IterationRecord, record = {
      shape
      durationMs := latency.durationMs
      finishTimeMs := engine.clock.add session.nowMs latency.durationMs
      linkFreeMs := applied.transferQueue.nextAvailableTimeMs
      slices := applied.records } := ⟨_, rfl⟩
  rw [← hrecord]
  constructor
  · refine (hcache.drain _).trans fun key hkey ↦ ?_
    change key ∈ suppliedKeys requests (world₃.trace ++ [.iteration record]) _
    rw [htrace]
    rcases hresident hkey with hkey | ⟨sliceRecord, hsliceRecord, source, hsource, rfl⟩
    · rw [hcacheEq] at hkey
      exact supplied_keys_mono requests _ _ hle (hs.resident hkey)
    · obtain ⟨slice, hserved⟩ := mem_zip_of_mem_right hrecords hsliceRecord
      obtain ⟨job, hjob, hends⟩ := hreached _ hserved
      obtain ⟨planned, tokens, hin, hsliced⟩ := hbatched _ hjob
      have hjobRecorded := hrecorded _ hjob
      have hmem : (slice, sliceRecord) ∈ record.served := by
        rw [hrecord]
        exact hserved
      have hreports : iterationsOf (world₁.trace ++ [.iteration record]) =
          iterationsOf world₁.trace ++ [record] := by simp
      obtain ⟨front, hsupplied⟩ := (hends source hsource).supplied hin hsliced hjobRecorded
        (hbuilt _ hjobRecorded.requested) hmem hsource hreports (by simp)
      rw [hrecord] at hsupplied ⊢
      exact ⟨_, front, source, hsupplied, rfl⟩
  · change JustifiedTrace requests (world₃.trace ++ [.iteration record])
    rw [htrace]
    exact hs.justified.concat (by simp)

theorem Receives.traced (hr : Receives engine session session')
    (ht : session.Traced engine requests residents world) :
    session'.Traced engine requests residents world where
  accounts := hr.accounts ht.accounts
  remembers := hr.remembers ht.remembers
  misses := hr.throughout (fun _ _ _ hknown ↦ by cases hknown) ht.misses
  sourced := by
    rw [hr.now_eq]
    exact ht.sourced

theorem Passes.traced (hcache : engine.cache.Honest residents) (hsplits : engine.cache.Splits)
    (hpolicy : RepositoryPolicy engine.materializationPolicy)
    (hbuilt : ∀ request ∈ requests, request.Tokenized) {flow : Flow Session}
    (h : Passes engine instanceUuid session world flow world')
    (hw : session.Wf engine.config engine.timelineMode requests)
    (ht : session.Traced engine requests residents world) :
    flow.state.Traced engine requests residents world' := by
  have haccounts := h.accounts hw ht.accounts
  have hremembers := h.remembers hw ht.remembers
  have hmisses := h.throughout (misses_own_kept hsplits)
    (fun _ _ _ hknown ↦ by cases hknown) hw ht.misses
  refine ⟨haccounts, hremembers, hmisses, ?_⟩
  cases h with
  | jump hreceive hidle hpending =>
    have hlater := hreceive.later _ (by rw [hpending]; rfl)
    exact ht.sourced.later hlater.le
  | idle hreceive => exact (hreceive.traced ht).sourced
  | skip hreceive _ hprepares =>
    have hs := hprepares.sourced hcache hsplits (hreceive.wf hw) (hreceive.traced ht).sourced
    exact (hs.drained hcache).later (le_max_left _ _)
  | finish hreceive _ hprepares =>
    have hs := hprepares.sourced hcache hsplits (hreceive.wf hw) (hreceive.traced ht).sourced
    exact hs.drained hcache
  | batch hreceive _ hprepares _ hiterates =>
    exact hiterates.sourced hcache hsplits hpolicy hbuilt hprepares (hreceive.wf hw)
      (hreceive.traced ht)

end Passing

/-- However an instance replay on a cache that starts empty ends, its lookups are justified. -/
theorem run_instance_justified (engine : Engine C K) {world : World C K}
    (hfresh : FreshCache C engine.cache world.cache)
    (hpolicy : RepositoryPolicy engine.materializationPolicy)
    (hbuilt : ∀ request ∈ requests, request.Tokenized)
    (hd : (requests.map SimulationRequest.requestId).Nodup) (instanceUuid : String) {fuel : ℕ}
    (hfuel : replayFuel requests ≤ fuel) (htrace : world.trace = []) :
    JustifiedTrace requests (after (engine.runInstance instanceUuid fuel requests world)).trace := by
  obtain ⟨residents, hcache, hempty⟩ := hfresh.honest
  have hsplits := hfresh.repository.splits
  have hperm := SimulationRequest.sorted_perm requests
  have hd' := (hperm.map SimulationRequest.requestId).nodup_iff.mpr hd
  have hmem : ∀ request ∈ SimulationRequest.sorted requests, request ∈ requests :=
    fun request hr ↦ hperm.subset hr
  have hends : Ends engine instanceUuid (SimulationRequest.sorted requests)
      (fun session world ↦
        session.Traced engine (SimulationRequest.sorted requests) residents world) world
      (engine.serveInstance instanceUuid fuel (SimulationRequest.sorted requests) world) := by
    refine serve_instance_ends hd' ((replay_fuel_perm hperm).trans_le hfuel) ?_
      fun _ _ _ _ hw h hpass ↦ hpass.traced hcache hsplits hpolicy
        (fun request hr ↦ hbuilt request (hmem request hr)) hw h
    intro request pending hsorted _
    constructor
    · exact Session.start_accounts _ _ _ _ (by rw [htrace]; rfl)
    · rw [htrace]
      exact Session.start_remembers _ _ _ _
    · exact ⟨by simp [Session.start], by simp [Session.start], by simp [Session.start]⟩
    · refine ⟨?_, ?_⟩
      · rw [hempty]
        exact Set.empty_subset _
      · rw [htrace]
        intro before _ _ _ _ heq
        exact absurd heq (by simp)
  have hagree := run_instance_agree engine instanceUuid fuel world hd
  generalize engine.runInstance instanceUuid fuel requests world = ran at hagree ⊢
  generalize engine.serveInstance instanceUuid fuel (SimulationRequest.sorted requests) world =
    served at hends hagree
  have hafter : after ran = after served := by
    cases hagree with
    | ok hworld _ => exact hworld
    | error hworld => exact hworld
  have hjustified : JustifiedTrace (SimulationRequest.sorted requests) (after served).trace := by
    cases hends with
    | nothing =>
      rw [after_ok, htrace]
      intro before _ _ _ _ heq
      exact absurd heq (by simp)
    | refused =>
      rw [after_error, htrace]
      intro before _ _ _ _ heq
      exact absurd heq (by simp)
    | served _ hp => exact hp.sourced.justified
    | failed hwf hp hpass => exact hp.sourced.pass_fails hcache hsplits hwf hpass
  rw [hafter]
  intro before requestId nowMs raw later heq
  obtain ⟨⟨request, hrequest, hasked⟩, hfound⟩ := hjustified before requestId nowMs raw later heq
  refine ⟨⟨request, hmem request hrequest, hasked⟩, hfound.trans ?_⟩
  rintro key ⟨supplier, front, source, hsupplied, hkey⟩
  exact ⟨supplier, front, source,
    ⟨hmem supplier hsupplied.requested, hsupplied.prompt, hsupplied.finished⟩, hkey⟩

section Hashed

variable {sha256 : List UInt8 → List UInt8} {cacheScope : CacheScope}

/-- What the blocks of a request are built from besides its own texts. -/
structure Prompt where
  tokenIds : List ℕ
  blockSizeTokens : ℕ

def SimulationRequest.blockSettings (cacheScope : CacheScope) (prompt : Prompt)
    (request : SimulationRequest) : BlockSettings where
  blockSizeTokens := prompt.blockSizeTokens
  model := request.model
  tenantId := request.tenantId
  kvBytesPerToken := request.kvBytesPerToken
  cacheScope

/-- All that is hashed for the blocks of a request. -/
def SimulationRequest.hashed (sha256 : List UInt8 → List UInt8) (cacheScope : CacheScope)
    (prompt : Prompt) (request : SimulationRequest) : Set (List UInt8) :=
  hashInputs sha256 (request.blockSettings cacheScope prompt) prompt.tokenIds

/-- The blocks and the length of a request are those of its tokens. -/
structure SimulationRequest.BuiltFrom (sha256 : List UInt8 → List UInt8) (cacheScope : CacheScope)
    (prompt : Prompt) (request : SimulationRequest) : Prop where
  build : buildPrefixBlocks sha256 prompt.tokenIds (request.blockSettings cacheScope prompt) =
    .ok request.promptBlocks
  tokens_eq : request.promptTokens = prompt.tokenIds.length

theorem SimulationRequest.BuiltFrom.tokenized {prompt : Prompt} {request : SimulationRequest}
    (h : request.BuiltFrom sha256 cacheScope prompt)
    (hlength : ∀ message, (sha256 message).length = 32)
    (hinj : Set.InjOn sha256 (request.hashed sha256 cacheScope prompt)) : request.Tokenized where
  nodup := by
    refine block_keys_nodup h.build ⟨hlength, fun messages hmessages ↦ ?_⟩
    have hinputs : ∀ message ∈ noneMessage :: messages,
        message ∈ request.hashed sha256 cacheScope prompt := by
      intro message hmessage
      rcases List.mem_cons.mp hmessage with rfl | hmessage
      · exact .inl rfl
      · exact .inr (.inr ⟨_, messages, h.build, hmessages, hmessage⟩)
    exact fun message hmessage message' hmessage' ↦
      hinj (hinputs message hmessage) (hinputs message' hmessage')
  tokens_eq := by
    rw [h.tokens_eq]
    exact (build_prefix_blocks_tiled h.build).2.2

/-- Each block that a lookup of the trace found was made visible by an iteration that was over,
for a request that shares it: a request of the same model, of the same tenant where tenants are
kept apart, with the same tokens up to the end of the block, all of which it had by then. -/
def NoPhantomHits (cacheScope : CacheScope) (prompts : SimulationRequest → Prompt)
    (requests : List SimulationRequest) (trace : List TraceEvent) : Prop :=
  ∀ before requestId nowMs raw later, trace = before ++ .lookup requestId nowMs raw :: later →
    ∃ request ∈ requests, request.requestId = requestId ∧ raw.hitBlocks <+: request.promptBlocks ∧
      ∀ i block, raw.hitBlocks[i]? = some block → ∃ supplier front source,
        Supplied requests before nowMs supplier front source ∧ front.length = i ∧
        source.blockKey = block.blockKey ∧ supplier.model = request.model ∧
        (cacheScope = .tenantIsolated → supplier.tenantId = request.tenantId) ∧
        blockTokens (front ++ [source]) = blockTokens (request.promptBlocks.take (i + 1)) ∧
        (prompts supplier).tokenIds.take (blockTokens (front ++ [source])) =
          (prompts request).tokenIds.take (blockTokens (request.promptBlocks.take (i + 1)))

theorem JustifiedTrace.no_phantom_hits {prompts : SimulationRequest → Prompt}
    {requests : List SimulationRequest} {trace : List TraceEvent}
    (h : JustifiedTrace requests trace) (hlength : ∀ message, (sha256 message).length = 32)
    (hbuilt : ∀ request ∈ requests, request.BuiltFrom sha256 cacheScope (prompts request))
    (hinj : Set.InjOn sha256
      {message | ∃ request ∈ requests, message ∈ request.hashed sha256 cacheScope (prompts request)}) :
    NoPhantomHits cacheScope prompts requests trace := by
  intro before requestId nowMs raw later heq
  obtain ⟨⟨request, hrequest, hid, hblocks⟩, hfound⟩ := h before requestId nowMs raw later heq
  refine ⟨request, hrequest, hid, ⟨_, hblocks⟩, fun i block hblock ↦ ?_⟩
  obtain ⟨supplier, front, source, hsupplied, hkey⟩ :=
    hfound ⟨block, List.mem_of_getElem? hblock, rfl⟩
  have hown : request.promptBlocks[i]? = some block := by
    rw [← hblocks, List.getElem?_append_left (List.getElem?_eq_some_iff.mp hblock).1]
    exact hblock
  obtain ⟨back, hprompt⟩ := hsupplied.prompt
  have hsource : supplier.promptBlocks[front.length]? = some source := by
    rw [← hprompt]
    simp
  have hsub : ∀ other ∈ requests, other.hashed sha256 cacheScope (prompts other) ⊆
      {message | ∃ request ∈ requests,
        message ∈ request.hashed sha256 cacheScope (prompts request)} :=
    fun other hother _ hmessage ↦ ⟨other, hother, hmessage⟩
  obtain ⟨hlengths, hmodel, htenant, hends, htokens⟩ := key_tells_prefix hlength
    (hbuilt supplier hsupplied.requested).build (hbuilt request hrequest).build
    (hinj.mono (Set.union_subset (hsub _ hsupplied.requested) (hsub _ hrequest))) hsource hown hkey
  have htake : supplier.promptBlocks.take (front.length + 1) = front ++ [source] := by
    rw [← hprompt]
    have hle : (front ++ [source]).length = front.length + 1 := by simp
    rw [← hle, List.take_left]
  rw [htake] at hends htokens
  refine ⟨supplier, front, source, hsupplied, hlengths, hkey, hmodel, fun hscope ↦ ?_, hends,
    htokens⟩
  unfold BlockSettings.keyTenant SimulationRequest.blockSettings at htenant
  simp only [hscope] at htenant
  exact Option.some.inj htenant

end Hashed

/-- No phantom hits: in a run of any requests over fresh caches, however the replay of an instance
ends, every block that a lookup found was computed before by a request that shares it. -/
theorem lookups_find_shared_prefixes {sha256 : List UInt8 → List UInt8} {cacheScope : CacheScope}
    {prompts : SimulationRequest → Prompt} (engine : BatchAwareReplayEngine C K)
    (hfresh : ∀ instanceUuid, FreshCache C (engine.cacheFactory instanceUuid).1
      (engine.cacheFactory instanceUuid).2)
    (hpolicy : RepositoryPolicy engine.materializationPolicy)
    (hlength : ∀ message, (sha256 message).length = 32)
    (hd : (requests.map SimulationRequest.requestId).Nodup)
    (hbuilt : ∀ request ∈ requests, request.BuiltFrom sha256 cacheScope (prompts request))
    (hinj : Set.InjOn sha256
      {message | ∃ request ∈ requests, message ∈ request.hashed sha256 cacheScope (prompts request)})
    {instanceUuid : String} {group : List SimulationRequest}
    (hgroup : (instanceUuid, group) ∈ groupByInstance requests) (shared : Shared K) {fuel : ℕ}
    (hfuel : replayFuel group ≤ fuel) :
    NoPhantomHits cacheScope prompts group
      (after ((engine.forInstance instanceUuid).runInstance instanceUuid fuel group {
        cache := (engine.cacheFactory instanceUuid).2
        sink := shared.sink
        memo := shared.memo })).trace := by
  have hperm := group_by_instance_perm requests
  have hmem : ∀ request ∈ group, request ∈ requests := fun request hr ↦
    hperm.subset (List.mem_flatMap.mpr ⟨_, hgroup, hr⟩)
  have hsublist : (group.map SimulationRequest.requestId).Nodup := by
    have hall := (hperm.map SimulationRequest.requestId).nodup_iff.mpr hd
    rw [List.map_flatMap] at hall
    exact (List.nodup_flatMap.mp hall).1 _ hgroup
  have hsub : {message | ∃ request ∈ group,
      message ∈ request.hashed sha256 cacheScope (prompts request)} ⊆
      {message | ∃ request ∈ requests,
        message ∈ request.hashed sha256 cacheScope (prompts request)} := by
    rintro message ⟨request, hr, hmessage⟩
    exact ⟨request, hmem request hr, hmessage⟩
  have hbuilt' := fun request hr ↦ hbuilt request (hmem request hr)
  have htokenized : ∀ request ∈ group, request.Tokenized := by
    intro request hr
    refine (hbuilt' request hr).tokenized hlength (hinj.mono ?_)
    exact fun message hmessage ↦ ⟨request, hmem request hr, hmessage⟩
  have hcache : FreshCache C (engine.forInstance instanceUuid).cache
      ({ cache := (engine.cacheFactory instanceUuid).2
         sink := shared.sink
         memo := shared.memo } : World C K).cache :=
    hfresh instanceUuid
  exact (run_instance_justified (engine.forInstance instanceUuid) hcache hpolicy htokenized
    hsublist instanceUuid hfuel rfl).no_phantom_hits hlength hbuilt' (hinj.mono hsub)

namespace Sample

/-- A request for the tokens 1 to 5. -/
def sharer (requestId : String) (startTimeMs : ℚ) : SimulationRequest :=
  { request requestId startTimeMs hashed with
    model := ""
    tenantId := ""
    kvBytesPerToken := none }

def sharers : List SimulationRequest := [sharer "a" 0, sharer "b" 10]

def sharedPrompt : Prompt where
  tokenIds := [1, 2, 3, 4, 5]
  blockSizeTokens := 2

theorem sharer_built (requestId : String) (startTimeMs : ℚ) :
    (sharer requestId startTimeMs).BuiltFrom Sha256.digest .modelShared sharedPrompt :=
  ⟨build_hashed, rfl⟩

theorem shared_prompt_distinct :
    ((hashInputList Sha256.digest tokens [1, 2, 3, 4, 5]).dedup.map Sha256.digest).Nodup := by
  decide +kernel

/-- What the replay of the sharers does to the cache. -/
def sharedTrace : List TraceEvent :=
  (after (((fleet config .legacy).forInstance "instance").runInstance "instance" 40 sharers {
    cache := ∅
    sink := ()
    memo := ∅ })).trace

end Sample

/-- The second request finds the blocks of the first one. -/
theorem lookups_find_shared_prefixes_pair :
    .lookup "b" 10 { hbmHitBlocks := Sample.hashed, ddrHitBlocks := [], missBlocks := [] } ∈
      Sample.sharedTrace ∧
    NoPhantomHits .modelShared (fun _ ↦ Sample.sharedPrompt) Sample.sharers Sample.sharedTrace := by
  have hgroup : ("instance", Sample.sharers) ∈ groupByInstance Sample.sharers := by decide +kernel
  have hbuilt : ∀ request ∈ Sample.sharers,
      request.BuiltFrom Sha256.digest .modelShared Sample.sharedPrompt := by
    refine List.forall_mem_cons.mpr ⟨Sample.sharer_built _ _, List.forall_mem_singleton.mpr ?_⟩
    exact Sample.sharer_built _ _
  have hinputs : {message | ∃ request ∈ Sample.sharers, message ∈ request.hashed Sha256.digest
      .modelShared Sample.sharedPrompt} ⊆
      {message | message ∈ hashInputList Sha256.digest Sample.tokens [1, 2, 3, 4, 5]} := by
    rintro message ⟨request, hrequest, hmessage⟩
    refine hash_inputs_listed (by decide) ?_
    rcases List.mem_cons.mp hrequest with rfl | hrequest
    · exact hmessage
    · rw [List.mem_singleton.mp hrequest] at hmessage
      exact hmessage
  have hids : (Sample.sharers.map SimulationRequest.requestId).Nodup := by decide
  have hfuel : replayFuel Sample.sharers ≤ 40 := by decide +kernel
  refine ⟨by decide +kernel, ?_⟩
  exact lookups_find_shared_prefixes (Sample.fleet Sample.config .legacy) (fun _ ↦ .infinite)
    (default_policy_repository .legacy) Sha256.length_digest hids hbuilt
    (inj_of_distinct_digests hinputs Sample.shared_prompt_distinct) hgroup
    { sink := (), memo := ∅ } hfuel

end InferTwin
