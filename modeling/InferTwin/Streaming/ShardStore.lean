import InferTwin.Foundation.Dict
import InferTwin.Foundation.Effect
import InferTwin.Request.BlockHasher
import InferTwin.Streaming.RequestCodec

namespace InferTwin

open Effect

/-- The exceptions of the shard builder. -/
inductive BuildError
  | unsortedTrace (lineNumber : ℕ) (previousKey currentKey : ℚ ×ₗ String ×ₗ String)
  | emptyInstanceUuid
  | missingState (instanceUuid : String)
  | minAboveMax
  | acceptedMismatch

def BuildError.message : BuildError → String
  | unsortedTrace lineNumber _ _ =>
    "trace must be sorted by (service_start_time, instance_uuid, request_id); line_number=" ++
      toString lineNumber
  | emptyInstanceUuid => "instance_uuid must be a non-empty string"
  | missingState instanceUuid => instanceUuid
  | minAboveMax => "min_start_time_ms must be <= max_start_time_ms"
  | acceptedMismatch => "accepted_count must equal sum(shard.request_count)"

section Paths

/-- The characters that a shard name keeps. -/
def keptInName (c : Char) : Bool :=
  ('A' ≤ c && c ≤ 'Z') || ('a' ≤ c && c ≤ 'z') || ('0' ≤ c && c ≤ '9') || c == '_' || c == '.' ||
    c == '-'

/-- Every run of other characters becomes one underscore; `inRun` tells whether the last
character belonged to such a run. -/
def collapseRuns (inRun : Bool) : List Char → List Char
  | [] => []
  | c :: cs =>
    if keptInName c then c :: collapseRuns false cs
    else if inRun then collapseRuns true cs
    else '_' :: collapseRuns true cs

/-- `text.strip("._")`. -/
def stripName (text : List Char) : List Char :=
  let atEnd (c : Char) : Bool := c == '.' || c == '_'
  ((text.dropWhile atEnd).reverse.dropWhile atEnd).reverse

variable (sha256 : List UInt8 → List UInt8)

def shardPath (shardRoot instanceUuid : String) : String :=
  let stripped := stripName (collapseRuns false instanceUuid.toList)
  let sanitized := if stripped = [] then "instance" else String.ofList stripped
  let digest := String.ofList ((hex (sha256 instanceUuid.toUTF8.toList)).toList.take 12)
  shardRoot ++ "/" ++ sanitized ++ "-" ++ digest ++ ".jsonl"

def shardPathForInstance (shardRoot instanceUuid : String) : Except BuildError String :=
  if instanceUuid = "" then .error .emptyInstanceUuid
  else .ok (shardPath sha256 shardRoot instanceUuid)

end Paths

structure ShardState where
  path : String
  requestCount : ℕ := 0
  minStartTimeMs : Option ℚ := none
  maxStartTimeMs : Option ℚ := none
  deriving DecidableEq, Repr

def ShardState.record (state : ShardState) (request : SimulationRequest) : ShardState :=
  { state with
    minStartTimeMs := match state.minStartTimeMs with
      | none => some request.startTimeMs
      | some least => if request.startTimeMs < least then some request.startTimeMs else some least
    maxStartTimeMs := match state.maxStartTimeMs with
      | none => some request.startTimeMs
      | some greatest =>
        if request.startTimeMs > greatest then some request.startTimeMs else some greatest
    requestCount := state.requestCount + 1 }

/-- One sorted shard of serialized requests for a single instance. -/
structure RequestShard where
  instanceUuid : String
  path : String
  requestCount : ℕ
  minStartTimeMs : Option ℚ
  maxStartTimeMs : Option ℚ
  deriving DecidableEq, Repr

/-- `RequestShard(...)`, with its checks. -/
def RequestShard.create (instanceUuid : String) (state : ShardState) :
    Except BuildError RequestShard := do
  if instanceUuid = "" then throw .emptyInstanceUuid
  match state.minStartTimeMs, state.maxStartTimeMs with
  | some least, some greatest => if least > greatest then throw .minAboveMax
  | _, _ => pure ()
  return {
    instanceUuid
    path := state.path
    requestCount := state.requestCount
    minStartTimeMs := state.minStartTimeMs
    maxStartTimeMs := state.maxStartTimeMs }

/-- The texts of the files, by path. -/
abbrev Disk := Dict String (List Char)

/-- Writes accepted requests into one shard per instance. An open file is known by its path. -/
structure StreamingRequestShardStore where
  shardRoot : String
  disk : Disk
  files : Dict String String := ∅
  states : Dict String ShardState := ∅

namespace StreamingRequestShardStore

variable (sha256 : List UInt8 → List UInt8) (text : JsonText)

/-- `_file_for_instance`: the file of an instance, created empty at its first request. -/
def fileForInstance (store : StreamingRequestShardStore) (instanceUuid : String) :
    Except BuildError (String × StreamingRequestShardStore) :=
  match store.files.lookup instanceUuid with
  | some path => .ok (path, store)
  | none => do
    let path ← shardPathForInstance sha256 store.shardRoot instanceUuid
    return (path, { store with
      disk := store.disk.insert path []
      files := store.files.insert instanceUuid path
      states := store.states.insert instanceUuid { path } })

/-- The line that is written for a request. -/
def lineOf (request : SimulationRequest) : List Char :=
  (encodeSimulationRequestLine text request).toList ++ ['\n']

def write (store : StreamingRequestShardStore) (request : SimulationRequest) :
    Except BuildError StreamingRequestShardStore := do
  let (path, store) ← store.fileForInstance sha256 request.instanceUuid
  let disk := store.disk.insert path
    ((store.disk.lookup path).getD [] ++ lineOf text request)
  match store.states.lookup request.instanceUuid with
  | none => throw (.missingState request.instanceUuid)
  | some state => return { store with
      disk, states := store.states.insert request.instanceUuid (state.record request) }

/-- `build_shards`, over `sorted(self._states.items())`. -/
def buildShards (store : StreamingRequestShardStore) : Except BuildError (List RequestShard) :=
  (store.states.sortedKeys.filterMap fun instanceUuid ↦
    (store.states.lookup instanceUuid).map fun state ↦ (instanceUuid, state)).mapM fun item ↦
      RequestShard.create item.1 item.2

end StreamingRequestShardStore

end InferTwin
