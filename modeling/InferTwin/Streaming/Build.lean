import InferTwin.Streaming.ShardStore

namespace InferTwin

open Effect

/-- A row of a trace as the CSV reader yields it, which refuses blank texts. -/
structure TraceRecord where
  requestId : String
  tenantId : String
  instanceUuid : String
  requestParams : String
  serviceStartTime : Datetime
  request_id_nonempty : requestId ≠ ""
  tenant_id_nonempty : tenantId ≠ ""
  instance_uuid_nonempty : instanceUuid ≠ ""

/-- `value.timestamp() * 1000.0`. -/
def Datetime.toMs (value : Datetime) : ℚ := value.microseconds / 1000

/-- The order that a trace is required to have, the instance before the request id. -/
def TraceRecord.sortKey (record : TraceRecord) : ℚ ×ₗ String ×ₗ String :=
  toLex (record.serviceStartTime.toMs, toLex (record.instanceUuid, record.requestId))

/-- Raised after tokenization when a prompt exceeds the configured limit. -/
structure PromptTooLongError where
  model : String
  tokenizerProfile : String
  promptTokens : ℕ
  maxPromptTokens : ℕ

def PromptTooLongError.message (error : PromptTooLongError) : String :=
  "prompt token length exceeds tokenizer limit: model=" ++ error.model ++
    ", tokenizer_profile=" ++ error.tokenizerProfile ++
    ", prompt_tokens=" ++ toString error.promptTokens ++
    ", max_prompt_tokens=" ++ toString error.maxPromptTokens

structure RejectedTraceRecord where
  requestId : String
  tenantId : String
  instanceUuid : String
  reason : String
  detail : String
  promptTokens : Option ℕ
  maxPromptTokens : Option ℕ
  tokenizerProfile : Option String

def buildPromptTooLongRejection (record : TraceRecord) (error : PromptTooLongError) :
    RejectedTraceRecord where
  requestId := record.requestId
  tenantId := record.tenantId
  instanceUuid := record.instanceUuid
  reason := "prompt_too_long"
  detail := error.message
  promptTokens := some error.promptTokens
  maxPromptTokens := some error.maxPromptTokens
  tokenizerProfile := some error.tokenizerProfile

/-- Manifest for a streaming request build output directory. -/
structure StreamingBuildManifest where
  tracePath : String
  shardRoot : String
  shards : List RequestShard
  acceptedCount : ℕ
  rejectedCount : ℕ
  requireSortedTrace : Bool

/-- The check of a new manifest; its schema version is the one it is compared with. -/
def StreamingBuildManifest.validate (manifest : StreamingBuildManifest) :
    Except BuildError StreamingBuildManifest :=
  if (manifest.shards.map RequestShard.requestCount).sum ≠ manifest.acceptedCount then
    .error .acceptedMismatch
  else .ok manifest

/-- What the builder is constructed with. -/
structure StreamingRequestShardBuilder where
  tracePath : String
  shardRoot : String
  rejectedPath : Option String := none
  requireSortedTrace : Bool := true

structure StreamingBuildResult where
  manifest : StreamingBuildManifest
  rejectedPath : Option String

/-- The local variables of `build`, with the rows of the rejection file. -/
structure BuildState where
  shardStore : StreamingRequestShardStore
  rejectedRows : List RejectedTraceRecord := []
  acceptedCount : ℕ := 0
  rejectedCount : ℕ := 0
  previousKey : Option (ℚ ×ₗ String ×ₗ String) := none

def guardSortedTrace (previousKey : Option (ℚ ×ₗ String ×ₗ String))
    (currentKey : ℚ ×ₗ String ×ₗ String) (lineNumber : ℕ) : Except BuildError Unit :=
  match previousKey with
  | none => .ok ()
  | some previousKey =>
    if previousKey ≤ currentKey then .ok ()
    else .error (.unsortedTrace lineNumber previousKey currentKey)

namespace StreamingRequestShardBuilder

-- how the tokenizer and the block hasher turn a row into a request
variable (sha256 : List UInt8 → List UInt8) (text : JsonText)
  (buildRequest : TraceRecord → Except PromptTooLongError SimulationRequest)
  (builder : StreamingRequestShardBuilder)

/-- The body of the loop of `build`. -/
def buildRecord (record : TraceRecord) (lineNumber : ℕ) (state : BuildState) :
    Except BuildError BuildState := do
  let currentKey := record.sortKey
  if builder.requireSortedTrace then
    guardSortedTrace state.previousKey currentKey lineNumber
  let state := { state with previousKey := some currentKey }
  match buildRequest record with
  | .error error => return { state with
      rejectedRows := if builder.rejectedPath.isSome
        then state.rejectedRows ++ [buildPromptTooLongRejection record error]
        else state.rejectedRows
      rejectedCount := state.rejectedCount + 1 }
  | .ok request =>
    let shardStore ← state.shardStore.write sha256 text request
    return { state with shardStore, acceptedCount := state.acceptedCount + 1 }

/-- The loop of `build`. -/
def buildRecords : List TraceRecord → ℕ → BuildState → Except BuildError BuildState
  | [], _, state => .ok state
  | record :: records, lineNumber, state => do
    let state ← builder.buildRecord sha256 text buildRequest record lineNumber state
    buildRecords records (lineNumber + 1) state

/-- The rows come after the header of the file, so their line numbers start at 2. -/
def build (records : List TraceRecord) (disk : Disk) :
    Except BuildError (StreamingBuildResult × Disk) := do
  let state ← builder.buildRecords sha256 text buildRequest records 2
    { shardStore := { shardRoot := builder.shardRoot, disk } }
  let manifest ← StreamingBuildManifest.validate {
    tracePath := builder.tracePath
    shardRoot := builder.shardRoot
    shards := ← state.shardStore.buildShards
    acceptedCount := state.acceptedCount
    rejectedCount := state.rejectedCount
    requireSortedTrace := builder.requireSortedTrace }
  return ({
    manifest
    rejectedPath := if state.rejectedCount > 0 then builder.rejectedPath else none },
    state.shardStore.disk)

end StreamingRequestShardBuilder

end InferTwin
