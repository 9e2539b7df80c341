import InferTwin.Foundation.Group
import InferTwin.Streaming.JsonlSource
import InferTwin.Streaming.ShardStore

namespace InferTwin

open Effect

/-- The text of a shard with some requests. -/
def shardText (text : JsonText) (requests : List SimulationRequest) : List Char :=
  requests.flatMap (StreamingRequestShardStore.lineOf text)

namespace JsonlRequestSource

theorem readline_line {line : List Char} (h : '\n' ∉ line) (rest : List Char) :
    readline (line ++ '\n' :: rest) = (line ++ ['\n'], rest) := by
  induction line with
  | nil => rfl
  | cons c line ih =>
    obtain ⟨hc, hline⟩ := List.ne_and_not_mem_of_not_mem_cons h
    rw [List.cons_append, readline, if_neg hc.symm, ih hline]
    rfl

variable {text : JsonText} {path : String} {requireSorted : Bool} {state : JsonlSourceState}
  {request : SimulationRequest} {requests : List SimulationRequest}

theorem read_next_end (h : state.rest = []) :
    readNext text path state = .ok (none, { state with exhausted := true }) := by
  obtain ⟨_, nextRequest, exhausted, lineNumber, lastEmittedKey⟩ := state
  cases h
  rfl

theorem read_next_line (hrequest : request.Encodable) (htext : text.RoundTrips request)
    (h : state.rest = shardText text (request :: requests)) :
    readNext text path state = .ok (some request, { state with
      rest := shardText text requests, lineNumber := state.lineNumber + 1 }) := by
  have hline : readline state.rest =
      ((encodeSimulationRequestLine text request).toList ++ ['\n'], shardText text requests) := by
    rw [h, shardText, List.flatMap_cons, StreamingRequestShardStore.lineOf, List.append_assoc]
    exact readline_line htext.one_line _
  have hstring : String.ofList ((encodeSimulationRequestLine text request).toList ++ ['\n']) =
      encodeSimulationRequestLine text request ++ "\n" := by
    rw [String.ofList_append, String.ofList_toList]
  rw [readNext, hline]
  dsimp only
  rw [if_neg (by simp), hstring, decode_line_encode hrequest htext]

/-- A source whose reader has `requests` ahead. -/
structure Serves (text : JsonText) (state : JsonlSourceState) (requests : List SimulationRequest) :
    Prop where
  unread : ∃ unread, state.rest = shardText text unread ∧
    requests = state.nextRequest.toList ++ unread
  ended : state.exhausted = true → requests = []
  readable : ∀ request ∈ requests, request.Encodable ∧ text.RoundTrips request
  sorted : requests.Pairwise fun a b ↦ a.sortKey ≤ b.sortKey
  emitted : ∀ key ∈ state.lastEmittedKey, ∀ request ∈ requests, key ≤ request.sortKey

theorem Serves.peek (h : Serves text state requests) (path : String) :
    ∃ state', JsonlRequestSource.peek text path state = .ok (requests.head?, state') ∧
      state'.nextRequest = requests.head? ∧ state'.lastEmittedKey = state.lastEmittedKey ∧
      Serves text state' requests := by
  obtain ⟨unread, hrest, hrequests⟩ := h.unread
  obtain ⟨rest, nextRequest, exhausted, lineNumber, lastEmittedKey⟩ := state
  cases nextRequest with
  | some request =>
    cases hrequests
    exact ⟨_, rfl, rfl, rfl, h⟩
  | none =>
    rw [Option.toList_none, List.nil_append] at hrequests
    subst hrequests
    cases exhausted with
    | true =>
      have hended := h.ended rfl
      subst hended
      exact ⟨_, rfl, rfl, rfl, h⟩
    | false =>
      cases requests with
      | nil =>
        refine ⟨⟨rest, none, true, lineNumber, lastEmittedKey⟩, ?_, rfl, rfl,
          ⟨[], hrest, rfl⟩, fun _ ↦ rfl, h.readable, h.sorted, h.emitted⟩
        rw [JsonlRequestSource.peek, read_next_end hrest]
        rfl
      | cons request requests =>
        obtain ⟨hrequest, htext⟩ := h.readable request List.mem_cons_self
        refine ⟨⟨shardText text requests, some request, false, lineNumber + 1, lastEmittedKey⟩,
          ?_, rfl, rfl, ⟨requests, rfl, rfl⟩, nofun, h.readable, h.sorted, h.emitted⟩
        rw [JsonlRequestSource.peek, read_next_line hrequest htext hrest]
        rfl

theorem Serves.pop (h : Serves text state (request :: requests)) :
    ∃ state', JsonlRequestSource.pop text path requireSorted state = .ok (request, state') ∧
      Serves text state' requests := by
  obtain ⟨state', hpeek, hnext, hlast, h'⟩ := h.peek path
  obtain ⟨unread, hrest, hrequests⟩ := h'.unread
  rw [hnext, List.head?_cons, Option.toList_some, List.singleton_append] at hrequests
  cases hrequests
  have hguard : ListRequestSource.guardSorted requireSorted state'.lastEmittedKey
      request.sortKey = .ok () := by
    cases hkey : state'.lastEmittedKey with
    | none => rfl
    | some key =>
      have hle := h'.emitted key hkey request List.mem_cons_self
      exact if_neg fun hlt ↦ hlt.2.not_ge hle
  refine ⟨{ state' with nextRequest := none, lastEmittedKey := some request.sortKey }, ?_, ?_⟩
  · rw [JsonlRequestSource.pop, hpeek, except_ok_bind]
    dsimp only [List.head?_cons]
    rw [hguard]
    rfl
  · refine ⟨⟨_, hrest, rfl⟩, fun hended ↦ ?_, fun r hr ↦ h'.readable r (List.mem_cons_of_mem _ hr),
      h'.sorted.of_cons, ?_⟩
    · exact absurd (h'.ended hended) (List.cons_ne_nil _ _)
    · rintro key hkey other hother
      cases hkey
      exact List.rel_of_pairwise_cons h'.sorted hother

/-- A shard that is read from its start serves exactly the requests that were written to it. -/
theorem yields (hreadable : ∀ request ∈ requests, request.Encodable ∧ text.RoundTrips request)
    (hsorted : requests.Pairwise fun a b ↦ a.sortKey ≤ b.sortKey) :
    (JsonlRequestSource text path requireSorted).Yields { rest := shardText text requests }
      requests := by
  refine ⟨Serves text, ⟨⟨requests, rfl, rfl⟩, nofun, hreadable, hsorted, nofun⟩, ?_, ?_⟩
  · intro state requests h
    obtain ⟨state', hpeek, _, _, h'⟩ := h.peek path
    exact ⟨state', hpeek, h'⟩
  · intro state request requests h
    exact h.pop

end JsonlRequestSource

/-- The requests of one instance. -/
def requestsOf (requests : List SimulationRequest) (instanceUuid : String) :
    List SimulationRequest :=
  itemsOf SimulationRequest.instanceUuid requests instanceUuid

section Extremes

theorem min_concat (xs : List ℚ) (x : ℚ) :
    (xs ++ [x]).min? = match xs.min? with
      | none => some x
      | some least => if x < least then some x else some least := by
  cases xs with
  | nil => rfl
  | cons head xs =>
    simp only [List.cons_append, List.min?_cons', List.foldl_concat]
    split_ifs with h
    · rw [min_eq_right h.le]
    · rw [min_eq_left (not_lt.mp h)]

theorem max_concat (xs : List ℚ) (x : ℚ) :
    (xs ++ [x]).max? = match xs.max? with
      | none => some x
      | some greatest => if x > greatest then some x else some greatest := by
  cases xs with
  | nil => rfl
  | cons head xs =>
    simp only [List.cons_append, List.max?_cons', List.foldl_concat]
    split_ifs with h
    · rw [max_eq_right h.le]
    · rw [max_eq_left (not_lt.mp h)]

end Extremes

section Writing

variable (sha256 : List UInt8 → List UInt8) (text : JsonText) (shardRoot : String)

/-- What a shard state is to say of the requests of its shard. -/
def shardStateOf (instanceUuid : String) (requests : List SimulationRequest) : ShardState where
  path := shardPath sha256 shardRoot instanceUuid
  requestCount := requests.length
  minStartTimeMs := (requests.map SimulationRequest.startTimeMs).min?
  maxStartTimeMs := (requests.map SimulationRequest.startTimeMs).max?

/-- A store that has written `requests` into the shards of the instances `opened`. -/
structure StreamingRequestShardStore.Tracks (store : StreamingRequestShardStore)
    (opened : Finset String) (requests : List SimulationRequest) : Prop where
  root : store.shardRoot = shardRoot
  keys : Finmap.keys store.states = opened
  within : ∀ request ∈ requests, request.instanceUuid ∈ opened
  files : ∀ instanceUuid, store.files.lookup instanceUuid =
    if instanceUuid ∈ opened then some (shardPath sha256 shardRoot instanceUuid) else none
  states : ∀ instanceUuid ∈ opened, store.states.lookup instanceUuid =
    some (shardStateOf sha256 shardRoot instanceUuid (requestsOf requests instanceUuid))
  disk : ∀ instanceUuid ∈ opened, store.disk.lookup (shardPath sha256 shardRoot instanceUuid) =
    some (shardText text (requestsOf requests instanceUuid))

variable {sha256 text shardRoot}

theorem record_shard_state_of (instanceUuid : String) (requests : List SimulationRequest)
    (request : SimulationRequest) :
    (shardStateOf sha256 shardRoot instanceUuid requests).record request =
      shardStateOf sha256 shardRoot instanceUuid (requests ++ [request]) := by
  have hmin := min_concat (requests.map SimulationRequest.startTimeMs) request.startTimeMs
  have hmax := max_concat (requests.map SimulationRequest.startTimeMs) request.startTimeMs
  refine (ShardState.mk.injEq ..).mpr ⟨rfl, ?_, ?_, ?_⟩
  · have hlength : (requests ++ [request]).length = requests.length + 1 := List.length_append
    exact hlength.symm
  · rw [List.map_append]
    exact hmin.symm
  · rw [List.map_append]
    exact hmax.symm

theorem shard_text_concat (requests : List SimulationRequest) (request : SimulationRequest) :
    shardText text (requests ++ [request]) =
      shardText text requests ++ StreamingRequestShardStore.lineOf text request := by
  simp [shardText]

namespace StreamingRequestShardStore.Tracks

variable {store : StreamingRequestShardStore} {opened instances : Finset String}
  {requests : List SimulationRequest} {request : SimulationRequest}

/-- Opening a shard leaves those of the other instances alone. -/
theorem open_file {instanceUuid : String} (h : Tracks sha256 text shardRoot store opened requests)
    (hne : instanceUuid ≠ "")
    (hinj : Set.InjOn (shardPath sha256 shardRoot) (insert instanceUuid opened)) :
    ∃ store', store.fileForInstance sha256 instanceUuid =
        .ok (shardPath sha256 shardRoot instanceUuid, store') ∧
      Tracks sha256 text shardRoot store' (insert instanceUuid opened) requests := by
  have hfile := h.files instanceUuid
  by_cases hopened : instanceUuid ∈ opened
  · rw [if_pos hopened] at hfile
    refine ⟨store, by rw [fileForInstance, hfile], ?_⟩
    rwa [Finset.insert_eq_of_mem hopened]
  · rw [if_neg hopened] at hfile
    have hpath : shardPathForInstance sha256 store.shardRoot instanceUuid =
        .ok (shardPath sha256 shardRoot instanceUuid) := by
      rw [shardPathForInstance, if_neg hne, h.root]
    have hnone : requestsOf requests instanceUuid = [] :=
      List.filter_eq_nil_iff.mpr fun request hrequest ↦ by
        have hmem := h.within request hrequest
        rintro heq
        exact hopened (of_decide_eq_true heq ▸ hmem)
    have hstore : store.fileForInstance sha256 instanceUuid =
        .ok (shardPath sha256 shardRoot instanceUuid, { store with
          disk := store.disk.insert (shardPath sha256 shardRoot instanceUuid) []
          files := store.files.insert instanceUuid (shardPath sha256 shardRoot instanceUuid)
          states := store.states.insert instanceUuid
            { path := shardPath sha256 shardRoot instanceUuid } }) := by
      rw [fileForInstance, hfile]
      dsimp only
      rw [hpath]
      rfl
    refine ⟨_, hstore, h.root, ?_, ?_, ?_, ?_, ?_⟩
    · rw [Dict.keys_insert, h.keys]
    · exact fun request hrequest ↦ Finset.mem_insert_of_mem (h.within request hrequest)
    · intro other
      rcases eq_or_ne other instanceUuid with rfl | hother
      · rw [Finmap.lookup_insert, if_pos (Finset.mem_insert_self _ _)]
      · rw [Finmap.lookup_insert_of_ne _ hother, h.files]
        simp [hother]
    · intro other hmem
      rcases eq_or_ne other instanceUuid with rfl | hother
      · rw [Finmap.lookup_insert, hnone]
        rfl
      · rw [Finmap.lookup_insert_of_ne _ hother,
          h.states other (Finset.mem_of_mem_insert_of_ne hmem hother)]
    · intro other hmem
      rcases eq_or_ne other instanceUuid with rfl | hother
      · rw [Finmap.lookup_insert, hnone]
        rfl
      · have hpaths : shardPath sha256 shardRoot other ≠ shardPath sha256 shardRoot instanceUuid :=
          fun heq ↦ hother (hinj (by simpa using hmem) (by simp) heq)
        rw [Finmap.lookup_insert_of_ne _ hpaths,
          h.disk other (Finset.mem_of_mem_insert_of_ne hmem hother)]

/-- A request that is written is added to the shard of its instance and to no other. -/
theorem write (h : Tracks sha256 text shardRoot store opened requests)
    (hne : request.instanceUuid ≠ "")
    (hinj : Set.InjOn (shardPath sha256 shardRoot) (insert request.instanceUuid opened)) :
    ∃ store', store.write sha256 text request = .ok store' ∧
      Tracks sha256 text shardRoot store' (insert request.instanceUuid opened)
        (requests ++ [request]) := by
  obtain ⟨store', hfile, h'⟩ := h.open_file hne hinj
  have hmem : request.instanceUuid ∈ insert request.instanceUuid opened :=
    Finset.mem_insert_self _ _
  have hrequests (other : String) : requestsOf (requests ++ [request]) other =
      requestsOf requests other ++ if request.instanceUuid = other then [request] else [] :=
    itemsOf_concat _ requests request other
  have hstore : store.write sha256 text request = .ok { store' with
      disk := store'.disk.insert (shardPath sha256 shardRoot request.instanceUuid)
        ((store'.disk.lookup (shardPath sha256 shardRoot request.instanceUuid)).getD [] ++
          lineOf text request)
      states := store'.states.insert request.instanceUuid
        ((shardStateOf sha256 shardRoot request.instanceUuid
          (requestsOf requests request.instanceUuid)).record request) } := by
    rw [StreamingRequestShardStore.write, hfile, except_ok_bind]
    dsimp only
    rw [h'.states _ hmem]
    rfl
  refine ⟨_, hstore, h'.root, ?_, ?_, h'.files, ?_, ?_⟩
  · rw [Dict.keys_insert, h'.keys, Finset.insert_eq_of_mem hmem]
  · intro other hother
    rcases List.mem_append.mp hother with hother | hother
    · exact h'.within other hother
    · rwa [List.mem_singleton.mp hother]
  · intro other hother
    rw [hrequests]
    rcases eq_or_ne other request.instanceUuid with rfl | hdiff
    · rw [Finmap.lookup_insert, if_pos rfl, record_shard_state_of]
    · rw [Finmap.lookup_insert_of_ne _ hdiff, if_neg hdiff.symm, List.append_nil,
        h'.states other hother]
  · intro other hother
    rw [hrequests]
    rcases eq_or_ne other request.instanceUuid with rfl | hdiff
    · rw [Finmap.lookup_insert, if_pos rfl, h'.disk _ hmem, shard_text_concat]
      rfl
    · have hpaths : shardPath sha256 shardRoot other ≠
          shardPath sha256 shardRoot request.instanceUuid :=
        fun heq ↦ hdiff (hinj (by simpa using hother) (by simp) heq)
      rw [Finmap.lookup_insert_of_ne _ hpaths, if_neg hdiff.symm, List.append_nil,
        h'.disk other hother]

end StreamingRequestShardStore.Tracks

end Writing

end InferTwin
