import InferTwin.Sample
import InferTwin.Streaming.Build
import InferTwin.Streaming.ShardContents

namespace InferTwin

open Effect

section Building

/-- The instances of some requests. -/
def instancesOf (requests : List SimulationRequest) : Finset String :=
  (requests.map SimulationRequest.instanceUuid).toFinset

theorem mem_instancesOf {requests : List SimulationRequest} {instanceUuid : String} :
    instanceUuid ∈ instancesOf requests ↔
      ∃ request ∈ requests, request.instanceUuid = instanceUuid := by
  rw [instancesOf, List.mem_toFinset, List.mem_map]

/-- What a row is turned into: a request with the ids and the start time of the row, which can
be written and read back. -/
structure TraceRecord.Builds (text : JsonText) (record : TraceRecord)
    (request : SimulationRequest) : Prop where
  request_id : request.requestId = record.requestId
  tenant_id : request.tenantId = record.tenantId
  instance_uuid : request.instanceUuid = record.instanceUuid
  start_time_ms : request.startTimeMs = record.serviceStartTime.toMs
  encodable : request.Encodable
  round_trips : text.RoundTrips request

/-- The requests that the rows of a trace are turned into. -/
def acceptedRequests (buildRequest : TraceRecord → Except PromptTooLongError SimulationRequest)
    (records : List TraceRecord) : List SimulationRequest :=
  records.filterMap fun record ↦ (buildRequest record).toOption

variable {sha256 : List UInt8 → List UInt8} {text : JsonText}
  {buildRequest : TraceRecord → Except PromptTooLongError SimulationRequest}
  {builder : StreamingRequestShardBuilder} {seen records : List TraceRecord}
  {record : TraceRecord} {state : BuildState} {instances : Set String}

theorem toOption_eq_some {α ε : Type} {result : Except ε α} {value : α} :
    result.toOption = some value ↔ result = .ok value := by
  cases result <;> simp [Except.toOption]

theorem mem_accepted {request : SimulationRequest} :
    request ∈ acceptedRequests buildRequest records ↔
      ∃ record ∈ records, buildRequest record = .ok request := by
  rw [acceptedRequests, List.mem_filterMap]
  exact exists_congr fun record ↦ and_congr_right fun _ ↦ toOption_eq_some

theorem accepted_subset (h : seen ⊆ records) :
    {i | ∃ request ∈ acceptedRequests buildRequest seen, request.instanceUuid = i} ⊆
      {i | ∃ request ∈ acceptedRequests buildRequest records, request.instanceUuid = i} := by
  rintro i ⟨request, hrequest, rfl⟩
  obtain ⟨record, hrecord, hresult⟩ := mem_accepted.mp hrequest
  exact ⟨request, mem_accepted.mpr ⟨record, h hrecord, hresult⟩, rfl⟩

/-- The order of a trace, with the instance in the middle, is the replay order on each
instance. -/
theorem TraceRecord.Builds.sort_key_le {record' : TraceRecord}
    {request request' : SimulationRequest} (h : record.Builds text request)
    (h' : record'.Builds text request') (hsame : request.instanceUuid = request'.instanceUuid)
    (hle : record.sortKey ≤ record'.sortKey) : request.sortKey ≤ request'.sortKey := by
  rw [h.instance_uuid, h'.instance_uuid] at hsame
  rw [sortKey, sortKey, hsame] at hle
  rw [SimulationRequest.sortKey, SimulationRequest.sortKey, h.start_time_ms, h'.start_time_ms,
    h.request_id, h'.request_id]
  rcases Prod.Lex.toLex_le_toLex.mp hle with hlt | ⟨heq, hle⟩
  · exact Prod.Lex.toLex_le_toLex.mpr (.inl hlt)
  · refine Prod.Lex.toLex_le_toLex.mpr (.inr ⟨heq, ?_⟩)
    rcases Prod.Lex.toLex_le_toLex.mp hle with hlt | ⟨_, hle⟩
    · exact absurd hlt (lt_irrefl _)
    · exact hle

theorem accepted_sorted
    (hbuild : ∀ record ∈ records, ∀ request, buildRequest record = .ok request →
      record.Builds text request)
    (hsorted : records.Pairwise fun a b ↦ a.sortKey ≤ b.sortKey) (instanceUuid : String) :
    (requestsOf (acceptedRequests buildRequest records) instanceUuid).Pairwise fun a b ↦
      a.sortKey ≤ b.sortKey := by
  rw [requestsOf, itemsOf, acceptedRequests, List.pairwise_filter, List.pairwise_filterMap]
  refine hsorted.imp_of_mem fun {a b} ha hb hle request hrequest request' hrequest' hi hi' ↦ ?_
  have h := hbuild a ha request (toOption_eq_some.mp hrequest)
  have h' := hbuild b hb request' (toOption_eq_some.mp hrequest')
  exact h.sort_key_le h' ((of_decide_eq_true hi).trans (of_decide_eq_true hi').symm) hle

/-- The state of the builder after some rows. -/
structure BuildState.Follows (sha256 : List UInt8 → List UInt8) (text : JsonText)
    (buildRequest : TraceRecord → Except PromptTooLongError SimulationRequest)
    (shardRoot : String) (seen : List TraceRecord) (state : BuildState) : Prop where
  store : state.shardStore.Tracks sha256 text shardRoot
    (instancesOf (acceptedRequests buildRequest seen)) (acceptedRequests buildRequest seen)
  accepted : state.acceptedCount = (acceptedRequests buildRequest seen).length
  counted : state.acceptedCount + state.rejectedCount = seen.length
  previous : state.previousKey = seen.getLast?.map TraceRecord.sortKey

theorem BuildState.Follows.initial (sha256 : List UInt8 → List UInt8) (text : JsonText)
    (buildRequest : TraceRecord → Except PromptTooLongError SimulationRequest)
    (shardRoot : String) (disk : Disk) :
    BuildState.Follows sha256 text buildRequest shardRoot []
      { shardStore := { shardRoot, disk } } := by
  refine ⟨⟨rfl, rfl, nofun, fun instanceUuid ↦ rfl, ?_, ?_⟩, rfl, rfl, rfl⟩
  · exact fun instanceUuid h ↦ absurd h (Finset.notMem_empty _)
  · exact fun instanceUuid h ↦ absurd h (Finset.notMem_empty _)

theorem guard_sorted_trace_ok (h : state.Follows sha256 text buildRequest builder.shardRoot seen)
    (hle : ∀ previous ∈ seen.getLast?, previous.sortKey ≤ record.sortKey) (lineNumber : ℕ) :
    guardSortedTrace state.previousKey record.sortKey lineNumber = .ok () := by
  rw [h.previous]
  cases hlast : seen.getLast? with
  | none => rfl
  | some previous => exact if_pos (hle previous hlast)

/-- A row in order is either written to the shard of its instance or rejected. -/
theorem build_record_ok (h : state.Follows sha256 text buildRequest builder.shardRoot seen)
    (hle : ∀ previous ∈ seen.getLast?, previous.sortKey ≤ record.sortKey)
    (hbuild : ∀ request, buildRequest record = .ok request → record.Builds text request)
    (hpaths : Set.InjOn (shardPath sha256 builder.shardRoot)
      {i | ∃ request ∈ acceptedRequests buildRequest (seen ++ [record]), request.instanceUuid = i})
    (lineNumber : ℕ) :
    ∃ state', builder.buildRecord sha256 text buildRequest record lineNumber state = .ok state' ∧
      state'.Follows sha256 text buildRequest builder.shardRoot (seen ++ [record]) := by
  have haccepted : acceptedRequests buildRequest (seen ++ [record]) =
      acceptedRequests buildRequest seen ++ (buildRequest record).toOption.toList := by
    unfold acceptedRequests
    rw [List.filterMap_append]
    cases hresult : buildRequest record <;> simp [hresult, Except.toOption]
  unfold StreamingRequestShardBuilder.buildRecord
  simp only [guard_sorted_trace_ok h hle lineNumber, except_ok_bind, ite_self]
  cases hresult : buildRequest record with
  | error error =>
    rw [hresult] at haccepted
    rw [Except.toOption, Option.toList_none, List.append_nil] at haccepted
    refine ⟨_, rfl, ?_, ?_, ?_, ?_⟩
    · rw [haccepted]
      exact h.store
    · rw [haccepted]
      exact h.accepted
    · rw [List.length_append, List.length_singleton, ← h.counted, Nat.add_assoc]
    · rw [List.getLast?_concat]
      rfl
  | ok request =>
    rw [hresult] at haccepted
    rw [Except.toOption, Option.toList_some] at haccepted
    have hrequest := hbuild request hresult
    obtain ⟨store', hwrite, hstore'⟩ := h.store.write hrequest.encodable.instance_uuid
      (hpaths.mono fun i hi ↦ by
        rw [haccepted]
        simpa [mem_instancesOf, eq_comm, or_comm] using hi)
    simp only [hwrite, except_ok_bind]
    refine ⟨_, rfl, ?_, ?_, ?_, ?_⟩
    · rw [haccepted]
      convert hstore' using 1
      ext i
      simp [instancesOf]
    · rw [haccepted, List.length_append, List.length_singleton, ← h.accepted]
    · rw [List.length_append, List.length_singleton, ← h.counted]
      exact Nat.add_right_comm _ _ _
    · rw [List.getLast?_concat]
      rfl

/-- A row that is out of order ends the build. -/
theorem build_record_unsorted (h : state.Follows sha256 text buildRequest builder.shardRoot seen)
    (hsorted : builder.requireSortedTrace = true) {previous : TraceRecord}
    (hlast : seen.getLast? = some previous) (hlt : record.sortKey < previous.sortKey)
    (lineNumber : ℕ) :
    builder.buildRecord sha256 text buildRequest record lineNumber state =
      .error (.unsortedTrace lineNumber previous.sortKey record.sortKey) := by
  have hguard : guardSortedTrace state.previousKey record.sortKey lineNumber =
      .error (.unsortedTrace lineNumber previous.sortKey record.sortKey) := by
    rw [h.previous, hlast]
    exact if_neg hlt.not_ge
  rw [StreamingRequestShardBuilder.buildRecord, if_pos hsorted, hguard]
  rfl

/-- One more row keeps a trace in order if it comes after the last one. -/
theorem sorted_concat (h : seen.Pairwise fun a b ↦ a.sortKey ≤ b.sortKey) :
    ((seen ++ [record]).Pairwise fun a b ↦ a.sortKey ≤ b.sortKey) ↔
      ∀ previous ∈ seen.getLast?, previous.sortKey ≤ record.sortKey := by
  rw [List.pairwise_append]
  constructor
  · rintro ⟨_, _, hle⟩ previous hlast
    exact hle previous (List.mem_of_getLast? hlast) record (List.mem_singleton_self _)
  · intro hle
    refine ⟨h, List.pairwise_singleton _ _, fun a ha b hb ↦ ?_⟩
    rw [List.mem_singleton.mp hb]
    cases hlast : seen.getLast? with
    | none =>
      rw [List.getLast?_eq_none_iff.mp hlast] at ha
      exact absurd ha List.not_mem_nil
    | some previous =>
      have heq := List.dropLast_append_getLast? previous hlast
      rw [← heq] at h ha
      rcases List.mem_append.mp ha with ha | ha
      · have hprevious : a.sortKey ≤ previous.sortKey :=
          (List.pairwise_append.mp h).2.2 a ha previous (List.mem_singleton_self _)
        exact hprevious.trans (hle previous hlast)
      · rw [List.mem_singleton.mp ha]
        exact hle previous hlast

/-- A sorted trace is built to its end. -/
theorem build_records_ok (h : state.Follows sha256 text buildRequest builder.shardRoot seen)
    (hbuild : ∀ record ∈ records, ∀ request, buildRequest record = .ok request →
      record.Builds text request)
    (hpaths : Set.InjOn (shardPath sha256 builder.shardRoot)
      {i | ∃ request ∈ acceptedRequests buildRequest (seen ++ records), request.instanceUuid = i})
    (hsorted : (seen ++ records).Pairwise fun a b ↦ a.sortKey ≤ b.sortKey) (lineNumber : ℕ) :
    ∃ state', builder.buildRecords sha256 text buildRequest records lineNumber state = .ok state' ∧
      state'.Follows sha256 text buildRequest builder.shardRoot (seen ++ records) := by
  induction records generalizing seen state lineNumber with
  | nil =>
    rw [List.append_nil]
    exact ⟨state, rfl, h⟩
  | cons record records ih =>
    rw [List.append_cons] at hpaths hsorted ⊢
    obtain ⟨hseen, _, _⟩ := List.pairwise_append.mp hsorted
    have hle := (sorted_concat (List.pairwise_append.mp hseen).1).mp hseen
    obtain ⟨state', hrecord, h'⟩ := build_record_ok h hle (hbuild record List.mem_cons_self)
      (hpaths.mono (accepted_subset (List.subset_append_left _ _))) lineNumber
    obtain ⟨state'', hrecords, h''⟩ := ih h'
      (fun other hother ↦ hbuild other (List.mem_cons_of_mem _ hother)) hpaths hsorted
      (lineNumber + 1)
    refine ⟨state'', ?_, h''⟩
    rw [StreamingRequestShardBuilder.buildRecords, hrecord, except_ok_bind, hrecords]

/-- The first row that is out of order is reported. -/
theorem build_records_unsorted
    (h : state.Follows sha256 text buildRequest builder.shardRoot seen)
    (hrequire : builder.requireSortedTrace = true)
    (hbuild : ∀ record ∈ records, ∀ request, buildRequest record = .ok request →
      record.Builds text request)
    (hpaths : Set.InjOn (shardPath sha256 builder.shardRoot)
      {i | ∃ request ∈ acceptedRequests buildRequest (seen ++ records), request.instanceUuid = i})
    (hseen : seen.Pairwise fun a b ↦ a.sortKey ≤ b.sortKey)
    (hunsorted : ¬ (seen ++ records).Pairwise fun a b ↦ a.sortKey ≤ b.sortKey) (lineNumber : ℕ) :
    ∃ line previousKey currentKey, currentKey < previousKey ∧
      builder.buildRecords sha256 text buildRequest records lineNumber state =
        .error (.unsortedTrace line previousKey currentKey) := by
  induction records generalizing seen state lineNumber with
  | nil =>
    rw [List.append_nil] at hunsorted
    exact absurd hseen hunsorted
  | cons record records ih =>
    rw [List.append_cons] at hpaths hunsorted
    by_cases hle : ∀ previous ∈ seen.getLast?, previous.sortKey ≤ record.sortKey
    · obtain ⟨state', hrecord, h'⟩ := build_record_ok h hle (hbuild record List.mem_cons_self)
        (hpaths.mono (accepted_subset (List.subset_append_left _ _))) lineNumber
      obtain ⟨line, previousKey, currentKey, hlt, herror⟩ := ih h'
        (fun other hother ↦ hbuild other (List.mem_cons_of_mem _ hother)) hpaths
        ((sorted_concat hseen).mpr hle) hunsorted (lineNumber + 1)
      refine ⟨line, previousKey, currentKey, hlt, ?_⟩
      rw [StreamingRequestShardBuilder.buildRecords, hrecord, except_ok_bind, herror]
    · push Not at hle
      obtain ⟨previous, hlast, hlt⟩ := hle
      refine ⟨lineNumber, previous.sortKey, record.sortKey, hlt, ?_⟩
      rw [StreamingRequestShardBuilder.buildRecords,
        build_record_unsorted h hrequire hlast hlt lineNumber]
      rfl

end Building

section Manifest

variable {sha256 : List UInt8 → List UInt8} {text : JsonText} {shardRoot : String}

/-- The shard of an instance with some requests. -/
def requestShardOf (sha256 : List UInt8 → List UInt8) (shardRoot instanceUuid : String)
    (requests : List SimulationRequest) : RequestShard where
  instanceUuid
  path := shardPath sha256 shardRoot instanceUuid
  requestCount := requests.length
  minStartTimeMs := (requests.map SimulationRequest.startTimeMs).min?
  maxStartTimeMs := (requests.map SimulationRequest.startTimeMs).max?

/-- The shards of some instances, listed by instance. -/
def requestShards (sha256 : List UInt8 → List UInt8) (shardRoot : String)
    (opened : Finset String) (requests : List SimulationRequest) : List RequestShard :=
  (Dict.inOrder opened).map fun instanceUuid ↦
    requestShardOf sha256 shardRoot instanceUuid (requestsOf requests instanceUuid)

/-- What the reader of a manifest can rely on: the shard has the counts and the extremes of
these requests, and its file serves them. -/
structure RequestShard.Holds (text : JsonText) (disk : Disk) (shard : RequestShard)
    (requests : List SimulationRequest) : Prop where
  count : shard.requestCount = requests.length
  least : ∃ least, shard.minStartTimeMs = some least ∧
    IsLeast {time | ∃ request ∈ requests, request.startTimeMs = time} least
  greatest : ∃ greatest, shard.maxStartTimeMs = some greatest ∧
    IsGreatest {time | ∃ request ∈ requests, request.startTimeMs = time} greatest
  served : ∃ content, disk.lookup shard.path = some content ∧ ∀ requireSorted,
    (JsonlRequestSource text shard.path requireSorted).Yields { rest := content } requests

theorem min_start_time_le {times : List ℚ} {least greatest : ℚ} (hmin : times.min? = some least)
    (hmax : times.max? = some greatest) : least ≤ greatest :=
  (List.max?_eq_some_iff.mp hmax).2 least (List.min?_eq_some_iff.mp hmin).1

theorem create_shard_ok {instanceUuid : String} (hne : instanceUuid ≠ "")
    (requests : List SimulationRequest) :
    RequestShard.create instanceUuid (shardStateOf sha256 shardRoot instanceUuid requests) =
      .ok (requestShardOf sha256 shardRoot instanceUuid requests) := by
  unfold RequestShard.create shardStateOf requestShardOf
  rw [if_neg hne]
  dsimp only
  cases hmin : (requests.map SimulationRequest.startTimeMs).min? with
  | none => rfl
  | some least =>
    cases hmax : (requests.map SimulationRequest.startTimeMs).max? with
    | none => rfl
    | some greatest =>
      dsimp only
      rw [if_neg (min_start_time_le hmin hmax).not_gt]
      rfl

theorem build_shards_ok {store : StreamingRequestShardStore} {opened : Finset String}
    {requests : List SimulationRequest}
    (h : store.Tracks sha256 text shardRoot opened requests) (hne : ∀ i ∈ opened, i ≠ "") :
    store.buildShards = .ok (requestShards sha256 shardRoot opened requests) := by
  have hkeys : store.states.sortedKeys = Dict.inOrder opened := by
    rw [Dict.sortedKeys, h.keys]
  have hitems : (store.states.sortedKeys.filterMap fun instanceUuid ↦
      (store.states.lookup instanceUuid).map fun state ↦ (instanceUuid, state)) =
        (Dict.inOrder opened).map fun instanceUuid ↦ (instanceUuid,
          shardStateOf sha256 shardRoot instanceUuid (requestsOf requests instanceUuid)) := by
    rw [hkeys, ← List.filterMap_eq_map']
    refine List.filterMap_congr fun instanceUuid hmem ↦ ?_
    rw [h.states instanceUuid (Dict.mem_inOrder.mp hmem)]
    rfl
  rw [StreamingRequestShardStore.buildShards, hitems, List.mapM_map]
  refine except_mapM_ok fun instanceUuid hmem ↦ ?_
  exact create_shard_ok (hne instanceUuid (Dict.mem_inOrder.mp hmem)) _

/-- The shards have all the requests together. -/
theorem sum_request_count {store : StreamingRequestShardStore} {opened : Finset String}
    {requests : List SimulationRequest}
    (h : store.Tracks sha256 text shardRoot opened requests) :
    ((requestShards sha256 shardRoot opened requests).map RequestShard.requestCount).sum =
      requests.length := by
  rw [requestShards, List.map_map]
  exact sum_length_itemsOf _ (Dict.inOrder_nodup _) fun request hrequest ↦
    Dict.mem_inOrder.mpr (h.within request hrequest)

theorem validate_ok {manifest : StreamingBuildManifest}
    (h : (manifest.shards.map RequestShard.requestCount).sum = manifest.acceptedCount) :
    manifest.validate = .ok manifest := if_neg (not_not.mpr h)

theorem request_shard_of_holds {requests : List SimulationRequest} (hne : requests ≠ [])
    (hreadable : ∀ request ∈ requests, request.Encodable ∧ text.RoundTrips request)
    (hsorted : requests.Pairwise fun a b ↦ a.sortKey ≤ b.sortKey) {disk : Disk}
    {instanceUuid : String}
    (hdisk : disk.lookup (shardPath sha256 shardRoot instanceUuid) = some (shardText text requests)) :
    (requestShardOf sha256 shardRoot instanceUuid requests).Holds text disk requests := by
  have htimes : requests.map SimulationRequest.startTimeMs ≠ [] := by simpa using hne
  refine ⟨rfl, ?_, ?_, _, hdisk, fun requireSorted ↦ JsonlRequestSource.yields hreadable hsorted⟩
  · obtain ⟨least, hleast⟩ := Option.isSome_iff_exists.mp (List.isSome_min?_of_ne_nil htimes)
    obtain ⟨hmem, hle⟩ := List.min?_eq_some_iff.mp hleast
    refine ⟨least, hleast, List.mem_map.mp hmem, ?_⟩
    rintro _ ⟨request, hrequest, rfl⟩
    exact hle _ (List.mem_map_of_mem hrequest)
  · obtain ⟨greatest, hgreatest⟩ :=
      Option.isSome_iff_exists.mp (List.isSome_max?_of_ne_nil htimes)
    obtain ⟨hmem, hle⟩ := List.max?_eq_some_iff.mp hgreatest
    refine ⟨greatest, hgreatest, List.mem_map.mp hmem, ?_⟩
    rintro _ ⟨request, hrequest, rfl⟩
    exact hle _ (List.mem_map_of_mem hrequest)

end Manifest
/-- Sharding a trace loses nothing: every accepted request is in the shard of its instance, which
serves the requests of that instance once each and in replay order. A trace that is not
sorted is refused. -/
theorem shards_complete {sha256 : List UInt8 → List UInt8} {text : JsonText}
    {buildRequest : TraceRecord → Except PromptTooLongError SimulationRequest}
    {builder : StreamingRequestShardBuilder} {records : List TraceRecord} (disk : Disk)
    (hrequire : builder.requireSortedTrace = true)
    (hbuild : ∀ record ∈ records, ∀ request, buildRequest record = .ok request →
      record.Builds text request)
    (hpaths : Set.InjOn (shardPath sha256 builder.shardRoot)
      {i | ∃ record ∈ records, record.instanceUuid = i}) :
    ((records.Pairwise fun a b ↦ a.sortKey ≤ b.sortKey) →
      ∃ result disk', builder.build sha256 text buildRequest records disk = .ok (result, disk') ∧
        result.manifest.acceptedCount = (acceptedRequests buildRequest records).length ∧
        result.manifest.acceptedCount + result.manifest.rejectedCount = records.length ∧
        (result.manifest.shards.map RequestShard.requestCount).sum =
          result.manifest.acceptedCount ∧
        (result.manifest.shards.map RequestShard.instanceUuid).Nodup ∧
        (∀ request ∈ acceptedRequests buildRequest records,
          ∃ shard ∈ result.manifest.shards, shard.instanceUuid = request.instanceUuid) ∧
        ∀ shard ∈ result.manifest.shards, shard.Holds text disk'
          (requestsOf (acceptedRequests buildRequest records) shard.instanceUuid)) ∧
    ((¬ records.Pairwise fun a b ↦ a.sortKey ≤ b.sortKey) →
      ∃ line previousKey currentKey, currentKey < previousKey ∧
        builder.build sha256 text buildRequest records disk =
          .error (.unsortedTrace line previousKey currentKey)) := by
  have haccepted : ∀ request ∈ acceptedRequests buildRequest records, ∃ record ∈ records,
      record.Builds text request := by
    intro request hrequest
    obtain ⟨record, hrecord, hresult⟩ := mem_accepted.mp hrequest
    exact ⟨record, hrecord, hbuild record hrecord request hresult⟩
  have hinj : Set.InjOn (shardPath sha256 builder.shardRoot)
      {i | ∃ request ∈ acceptedRequests buildRequest records, request.instanceUuid = i} := by
    refine hpaths.mono ?_
    rintro i ⟨request, hrequest, rfl⟩
    obtain ⟨record, hrecord, h⟩ := haccepted request hrequest
    exact ⟨record, hrecord, h.instance_uuid.symm⟩
  have hinitial := BuildState.Follows.initial sha256 text buildRequest builder.shardRoot disk
  constructor
  · intro hsorted
    obtain ⟨state, hrecords, h⟩ := build_records_ok hinitial hbuild hinj hsorted 2
    rw [List.nil_append] at h
    have hshards := build_shards_ok h.store fun i hi ↦ by
      obtain ⟨request, hrequest, rfl⟩ := mem_instancesOf.mp hi
      obtain ⟨record, _, hbuilds⟩ := haccepted request hrequest
      exact hbuilds.encodable.instance_uuid
    have hsum := sum_request_count h.store
    have hresult : builder.build sha256 text buildRequest records disk = .ok ({
        manifest := {
          tracePath := builder.tracePath
          shardRoot := builder.shardRoot
          shards := requestShards sha256 builder.shardRoot
            (instancesOf (acceptedRequests buildRequest records))
            (acceptedRequests buildRequest records)
          acceptedCount := state.acceptedCount
          rejectedCount := state.rejectedCount
          requireSortedTrace := builder.requireSortedTrace }
        rejectedPath := if state.rejectedCount > 0 then builder.rejectedPath else none },
        state.shardStore.disk) := by
      rw [StreamingRequestShardBuilder.build, hrecords, except_ok_bind, hshards, except_ok_bind,
        validate_ok (hsum.trans h.accepted.symm)]
      rfl
    refine ⟨_, _, hresult, h.accepted, h.counted, ?_, ?_, ?_, ?_⟩
    · exact hsum.trans h.accepted.symm
    · rw [requestShards, List.map_map]
      exact (List.map_id _).symm ▸ Dict.inOrder_nodup _
    · intro request hrequest
      have hmem := mem_instancesOf.mpr ⟨request, hrequest, rfl⟩
      exact ⟨_, List.mem_map_of_mem (Dict.mem_inOrder.mpr hmem), rfl⟩
    · intro shard hshard
      obtain ⟨i, hi, rfl⟩ := List.mem_map.mp hshard
      have hmem := Dict.mem_inOrder.mp hi
      obtain ⟨request, hrequest, hinstance⟩ := mem_instancesOf.mp hmem
      refine request_shard_of_holds ?_ ?_ (accepted_sorted hbuild hsorted i) (h.store.disk i hmem)
      · exact List.ne_nil_of_mem (List.mem_filter.mpr ⟨hrequest, decide_eq_true hinstance⟩)
      · intro other hother
        obtain ⟨record, _, hbuilds⟩ := haccepted other (List.mem_of_mem_filter hother)
        exact ⟨hbuilds.encodable, hbuilds.round_trips⟩
  · intro hunsorted
    obtain ⟨line, previousKey, currentKey, hlt, herror⟩ :=
      build_records_unsorted hinitial hrequire hbuild hinj List.Pairwise.nil hunsorted 2
    refine ⟨line, previousKey, currentKey, hlt, ?_⟩
    rw [StreamingRequestShardBuilder.build, herror]
    rfl

namespace Sample

/-- The digests of the two instances. -/
def shardDigest : List UInt8 → List UInt8
  | [97] => [0xca, 0x97, 0x81, 0x12, 0xca, 0x1b, 0xbd, 0xca, 0xfa, 0xc2, 0x31, 0xb3,
    0x9a, 0x23, 0xdc, 0x4d, 0xa7, 0x86, 0xef, 0xf8, 0x14, 0x7c, 0x4e, 0x72, 0xb9,
    0x80, 0x77, 0x85, 0xaf, 0xee, 0x48, 0xbb]
  | [98] => [0x3e, 0x23, 0xe8, 0x16, 0x00, 0x39, 0x59, 0x4a, 0x33, 0x89, 0x4f, 0x65,
    0x64, 0xe1, 0xb1, 0x34, 0x8b, 0xbd, 0x7a, 0x00, 0x88, 0xd4, 0x2c, 0x4a, 0xcb,
    0x73, 0xee, 0xae, 0xd5, 0x9c, 0x00, 0x9d]
  | _ => []

def firstOfShard : SimulationRequest :=
  { request "1" 0 [block "x" 0 2] with
    tenantId := "t"
    instanceUuid := "a" }

def secondOfShard : SimulationRequest :=
  { request "2" 1 [block "x" 0 2] with
    tenantId := "t"
    instanceUuid := "b"
    serviceStartTime := { microseconds := 1000 } }

/-- The JSON text of a request of the trace. -/
def lineText (instanceUuid requestId serviceStartTime startTimeMs : String) : String :=
  "\x7b\"block_conversion_result\":null,\"effective_block_size\":2,\"instance_uuid\":\"" ++
  instanceUuid ++ "\",\"kv_bytes_per_token\":2,\"model\":\"model\",\"prompt_blocks\":" ++
  "[\x7b\"block_index\":0,\"block_key\":\"x\",\"content_hash\":\"x\"," ++
  "\"size_bytes\":4,\"token_count\":2\x7d],\"prompt_tokens\":2,\"request_id\":\"" ++ requestId ++
  "\",\"requested_block_size\":null,\"runtime_block_size\":null,\"schema_version\":" ++
  "\"infertwin.streaming.request.v1\",\"service_start_time\":\"" ++ serviceStartTime ++
  "\",\"start_time_ms\":" ++ startTimeMs ++
  ",\"tenant_id\":\"t\",\"tokenizer_profile\":\"profile\"\x7d"

theorem line_text_one_line {instanceUuid requestId serviceStartTime startTimeMs : String}
    (hinstance : '\n' ∉ instanceUuid.toList) (hid : '\n' ∉ requestId.toList)
    (hstart : '\n' ∉ serviceStartTime.toList) (htime : '\n' ∉ startTimeMs.toList) :
    '\n' ∉ (lineText instanceUuid requestId serviceStartTime startTimeMs).toList := by
  unfold lineText
  simp only [String.toList_append, List.mem_append, not_or, and_assoc]
  refine ⟨?_, hinstance, ?_, ?_, ?_, hid, ?_, ?_, hstart, ?_, htime, ?_⟩ <;> decide +kernel

def firstLine : String := lineText "a" "1" "1970-01-01T00:00:00" "0.0"

def secondLine : String := lineText "b" "2" "1970-01-01T00:00:00.001000" "1.0"

theorem second_line_ne : secondLine ++ "\n" ≠ firstLine ++ "\n" := by
  have hstart : "1970-01-01T00:00:00".length = 19 := by decide
  have hstart' : "1970-01-01T00:00:00.001000".length = 26 := by decide
  have hone : "a".length = 1 ∧ "b".length = 1 ∧ "1".length = 1 ∧ "2".length = 1 := by decide
  have htime : "0.0".length = 3 ∧ "1.0".length = 3 := by decide
  intro h
  have hlength := congrArg String.length h
  unfold secondLine firstLine lineText at hlength
  repeat rw [String.length_append] at hlength
  omega

def isoText : JsonText where
  dumps _ := ""
  loads _ := .error ""
  isoformat value :=
    if value.microseconds = 0 then "1970-01-01T00:00:00" else "1970-01-01T00:00:00.001000"
  fromisoformat text :=
    if text = "1970-01-01T00:00:00" then some { microseconds := 0 }
    else some { microseconds := 1000 }

/-- The texts of the two requests. -/
def shardJson : JsonText :=
  { isoText with
    dumps json := match json with
      | .object fields => match Json.get fields "request_id" with
        | some (.str "1") => firstLine
        | _ => secondLine
      | _ => ""
    loads line :=
      if line = firstLine ++ "\n" then .ok (encodeSimulationRequest isoText firstOfShard)
      else if line = secondLine ++ "\n" then .ok (encodeSimulationRequest isoText secondOfShard)
      else .error "Expecting value" }

theorem singleton_nonempty (c : Char) : String.singleton c ≠ "" := by
  rw [Ne, ← String.toList_inj, String.toList_singleton]
  exact List.cons_ne_nil _ _

def row (requestId instanceUuid : Char) (microseconds : ℤ) : TraceRecord where
  requestId := String.singleton requestId
  tenantId := String.singleton 't'
  instanceUuid := String.singleton instanceUuid
  requestParams := "\x7b\x7d"
  serviceStartTime := { microseconds }
  request_id_nonempty := singleton_nonempty requestId
  tenant_id_nonempty := singleton_nonempty 't'
  instance_uuid_nonempty := singleton_nonempty instanceUuid

/-- Three rows of two instances; the last one is too long. -/
def rows : List TraceRecord := [row '1' 'a' 0, row '2' 'b' 1000, row '3' 'a' 2000]

def buildRow (record : TraceRecord) : Except PromptTooLongError SimulationRequest :=
  if record.requestId = "1" then .ok firstOfShard
  else if record.requestId = "2" then .ok secondOfShard
  else .error {
    model := "model"
    tokenizerProfile := "profile"
    promptTokens := 9
    maxPromptTokens := 8 }

def shardBuilder : StreamingRequestShardBuilder where
  tracePath := "trace.csv"
  shardRoot := "shards"

theorem first_line_eq :
    encodeSimulationRequestLine shardJson firstOfShard = firstLine := by
  rw [encodeSimulationRequestLine, encodeSimulationRequest, Coded.encodeSimulationRequest,
    Json.dict, shardJson]
  dsimp only
  rw [Coded.get_request_fields]
  rfl

theorem second_line_eq :
    encodeSimulationRequestLine shardJson secondOfShard = secondLine := by
  rw [encodeSimulationRequestLine, encodeSimulationRequest, Coded.encodeSimulationRequest,
    Json.dict, shardJson]
  dsimp only
  rw [Coded.get_request_fields]
  rfl

theorem encode_congr {text text' : JsonText} (h : text.isoformat = text'.isoformat)
    (request : SimulationRequest) :
    encodeSimulationRequest text request = encodeSimulationRequest text' request := by
  rw [encodeSimulationRequest, encodeSimulationRequest, Coded.encodeSimulationRequest,
    Coded.encodeSimulationRequest, Coded.requestFields, Coded.requestFields, h]

theorem shard_json_loads (line : String) : shardJson.loads line =
    if line = firstLine ++ "\n" then .ok (encodeSimulationRequest isoText firstOfShard)
    else if line = secondLine ++ "\n" then .ok (encodeSimulationRequest isoText secondOfShard)
    else .error "Expecting value" := rfl

theorem first_round_trips : shardJson.RoundTrips firstOfShard := by
  refine ⟨?_, ?_, by decide, by decide⟩
  · rw [first_line_eq]
    exact line_text_one_line (by decide) (by decide) (by decide) (by decide)
  · rw [first_line_eq, shard_json_loads, if_pos rfl]
    exact congrArg Except.ok (encode_congr rfl _)

theorem second_round_trips : shardJson.RoundTrips secondOfShard := by
  refine ⟨?_, ?_, by decide, by decide⟩
  · rw [second_line_eq]
    exact line_text_one_line (by decide) (by decide) (by decide) (by decide)
  · rw [second_line_eq, shard_json_loads, if_neg second_line_ne, if_pos rfl]
    exact congrArg Except.ok (encode_congr rfl _)

theorem row_builds {records : List TraceRecord} (h : records ⊆ rows) :
    ∀ record ∈ records, ∀ request, buildRow record = .ok request →
      record.Builds shardJson request := by
  intro record hrecord request hresult
  have hmem := h hrecord
  simp only [rows, List.mem_cons, List.not_mem_nil, or_false] at hmem
  rcases hmem with rfl | rfl | rfl
  · rw [buildRow, if_pos (by decide)] at hresult
    cases hresult
    exact ⟨by decide, by decide, by decide, by decide +kernel,
      ⟨by decide, by decide, by decide, by decide, by decide, by decide, nofun⟩,
      first_round_trips⟩
  · rw [buildRow, if_neg (by decide), if_pos (by decide)] at hresult
    cases hresult
    exact ⟨by decide, by decide, by decide, by decide +kernel,
      ⟨by decide, by decide, by decide, by decide, by decide, by decide, nofun⟩,
      second_round_trips⟩
  · rw [buildRow, if_neg (by decide), if_neg (by decide)] at hresult
    cases hresult

theorem row_instances : ∀ record ∈ rows, record.instanceUuid = "a" ∨ record.instanceUuid = "b" := by
  decide

theorem accepted_rows : acceptedRequests buildRow rows = [firstOfShard, secondOfShard] := by
  decide +kernel

/-- The two shards have different names. -/
theorem row_paths {records : List TraceRecord} (h : records ⊆ rows) :
    Set.InjOn (shardPath shardDigest "shards") {i | ∃ record ∈ records, record.instanceUuid = i} := by
  have hab : shardPath shardDigest "shards" "a" ≠ shardPath shardDigest "shards" "b" := by
    decide +kernel
  have hinstance (i : String) (hi : ∃ record ∈ records, record.instanceUuid = i) :
      i = "a" ∨ i = "b" := by
    obtain ⟨record, hrecord, rfl⟩ := hi
    exact row_instances record (h hrecord)
  intro i hi j hj heq
  rcases hinstance i hi with rfl | rfl
  · rcases hinstance j hj with rfl | rfl
    · rfl
    · exact absurd heq hab
  · rcases hinstance j hj with rfl | rfl
    · exact absurd heq.symm hab
    · rfl

end Sample

/-- A trace of two instances with a rejected row, and the same rows in the wrong order. -/
theorem shards_complete_rows :
    (∃ result disk', Sample.shardBuilder.build Sample.shardDigest Sample.shardJson Sample.buildRow
        Sample.rows ∅ = .ok (result, disk') ∧
      result.manifest.acceptedCount = 2 ∧ result.manifest.rejectedCount = 1 ∧
      ∀ shard ∈ result.manifest.shards, shard.Holds Sample.shardJson disk'
        (requestsOf [Sample.firstOfShard, Sample.secondOfShard] shard.instanceUuid)) ∧
    ∃ line previousKey currentKey,
      Sample.shardBuilder.build Sample.shardDigest Sample.shardJson Sample.buildRow
        Sample.rows.reverse ∅ = .error (.unsortedTrace line previousKey currentKey) := by
  have hsorted : Sample.rows.Pairwise fun a b ↦ a.sortKey ≤ b.sortKey := by decide +kernel
  have hunsorted : ¬ Sample.rows.reverse.Pairwise fun a b ↦ a.sortKey ≤ b.sortKey := by
    decide +kernel
  have hreverse : Sample.rows.reverse ⊆ Sample.rows :=
    fun record hrecord ↦ List.mem_reverse.mp hrecord
  obtain ⟨result, disk', hbuild, haccepted, hcounted, -, -, -, hshards⟩ :=
    (shards_complete ∅ (rfl : Sample.shardBuilder.requireSortedTrace = true)
      (Sample.row_builds (List.Subset.refl _)) (Sample.row_paths (List.Subset.refl _))).1 hsorted
  obtain ⟨line, previousKey, currentKey, -, herror⟩ :=
    (shards_complete ∅ (rfl : Sample.shardBuilder.requireSortedTrace = true)
      (Sample.row_builds hreverse) (Sample.row_paths hreverse)).2 hunsorted
  rw [Sample.accepted_rows] at haccepted hshards
  refine ⟨⟨result, disk', hbuild, haccepted, ?_, hshards⟩, line, previousKey, currentKey, herror⟩
  rw [haccepted] at hcounted
  exact Nat.add_left_cancel hcounted


end InferTwin
