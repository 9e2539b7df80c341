import Mathlib.Data.Rat.Defs

namespace InferTwin

/-- The exceptions of a prefix cache: those of the LRU policy, and whatever a
cache from outside the repository raises. -/
inductive CacheError
  | accessNonResident (blockKey : String)
  | removeNonResident (blockKey : String)
  | emptyCache
  | staleVictim (blockKey : String)
  | noResident
  | external (text : String)
  deriving DecidableEq, Repr

def CacheError.message : CacheError → String
  | accessNonResident key => "cannot access non-resident block in lru policy: " ++ key
  | removeNonResident key => "cannot remove non-resident block from lru policy: " ++ key
  | emptyCache => "cannot select an eviction victim from an empty cache"
  | staleVictim key => "lru policy references non-resident block: " ++ key
  | noResident => "cannot select an eviction victim because lru policy has no resident blocks"
  | external text => text

/-- The exceptions of a materialization policy, those of the cache it writes to included. -/
inductive MaterializationError
  | nonPositiveBlockSize
  | computedTokensReversed
  | unknownBlock (blockKey : String)
  | cache (error : CacheError)
  | external (text : String)
  deriving DecidableEq, Repr

def MaterializationError.message : MaterializationError → String
  | nonPositiveBlockSize =>
    "progressive materialization requires a positive effective_block_size"
  | computedTokensReversed => "computed_tokens_before cannot exceed computed_tokens_after"
  | unknownBlock key => "materialization block is not present in prompt_blocks: " ++ key
  | cache error => error.message
  | external text => text

inductive BackendError
  | byteLinearNeedsBytes
  | external (text : String)
  deriving DecidableEq, Repr

def BackendError.message : BackendError → String
  | byteLinearNeedsBytes => "byte-linear KV load requires kv_load_bytes when tokens are loaded"
  | external text => text

inductive SourceError
  | unsorted
  | popFromEmpty
  | external (text : String)
  deriving DecidableEq, Repr

def SourceError.message : SourceError → String
  | unsorted => "request source must be sorted by (start_time_ms, request_id)"
  | popFromEmpty => "pop from empty request source"
  | external text => text

/-- The exceptions of a replay, one constructor for each raise site of the simulator and
one for each component it calls. `outOfFuel` is not an exception of the source: it marks a
loop of the model that was given too small a bound on its number of passes. -/
inductive ReplayError
  | negativeArrivalTime
  | lookupAlreadyRecorded (requestId : String)
  | lookupTokensMismatch
  | negativeLatencyContribution
  | negativeComputeWait
  | negativeKvLoadWait
  | lookupRequired (requestId : String)
  | nonPositiveScheduledTokens
  | finishBeforeArrival
  | scheduledTokensExceedRemaining
  | loadOnlyWithRemaining
  | zeroTokenSlice
  | computedAfterExceedsPrompt
  | negativeShapeStart
  | notWaiting (requestId : String)
  | computedBelowCached (requestId : String)
  | emptyBatch
  | clockBeforeArrival
  | missingKey (key : String)
  | indexOutOfRange
  | transferRequestIdRequired
  | transferInstanceRequired
  | negativeReadyTime
  | transferInstanceMismatch (got expected : String)
  | composeFinishBeforeArrival (requestId : String)
  | composeFirstScheduledBeforeArrival (requestId : String)
  | negativeResidual (requestId : String) (observedTtftMs computeWaitMs kvLoadWaitMs
      prefillComputeMs unattributedTtftMs : ℚ)
  | negativeCompositionField (field : String)
  | missingTime (field requestId : String)
  | unsupportedConversion (reason : String)
  | hitTokensExceedPrompt
  | detailNotNumeric (key : String)
  | detailNegative (key : String)
  | shapeKeyMismatch
  | duplicateActiveRequest (requestId : String)
  | foreignRequest (expected got : String)
  | cache (error : CacheError)
  | materialization (error : MaterializationError)
  | backend (error : BackendError)
  | source (error : SourceError)
  | outOfFuel
  deriving DecidableEq, Repr

namespace ReplayError

/-- The text of the exception. -/
def message : ReplayError → String
  | negativeArrivalTime => "arrival_time_ms must be non-negative"
  | lookupAlreadyRecorded id => "cache lookup already recorded for request " ++ id
  | lookupTokensMismatch => "cached_tokens + miss_tokens must equal prompt_tokens"
  | negativeLatencyContribution => "latency contributions must be non-negative"
  | negativeComputeWait => "compute wait duration must be non-negative"
  | negativeKvLoadWait => "KV load wait duration must be non-negative"
  | lookupRequired id => "cache lookup is required before scheduling " ++ id
  | nonPositiveScheduledTokens => "scheduled_tokens must be positive"
  | finishBeforeArrival => "finish_time_ms cannot be earlier than arrival_time_ms"
  | scheduledTokensExceedRemaining => "scheduled_tokens cannot exceed remaining prefill tokens"
  | loadOnlyWithRemaining => "load-only iteration requires zero remaining prefill tokens"
  | zeroTokenSlice => "zero-token scheduled slice requires KV load"
  | computedAfterExceedsPrompt => "computed_tokens_after cannot exceed prompt_tokens"
  | negativeShapeStart => "start_time_ms must be non-negative"
  | notWaiting id => "waiting request " ++ id ++ " is not in waiting state"
  | computedBelowCached id =>
    "request " ++ id ++ " has computed tokens below cached prefix tokens"
  | emptyBatch => "Scheduler produced an empty batch with pending work; check " ++
      "max_num_batched_tokens, max_num_seqs, and chunked prefill settings."
  | clockBeforeArrival => "now_ms cannot be earlier than request arrival time"
  | missingKey key => key
  | indexOutOfRange => "list index out of range"
  | transferRequestIdRequired => "request_id is required"
  | transferInstanceRequired => "instance_uuid is required"
  | negativeReadyTime => "ready_time_ms must be non-negative"
  | transferInstanceMismatch got expected =>
    "transfer for instance " ++ got ++ " cannot be submitted to queue for " ++ expected
  | composeFinishBeforeArrival id =>
    "finish_time_ms cannot be earlier than arrival for request " ++ id
  | composeFirstScheduledBeforeArrival id =>
    "first_scheduled_time_ms cannot be earlier than arrival for request " ++ id
  | negativeResidual id observed compute kvLoad prefill unattributed =>
    "negative unattributed TTFT residual for request " ++ id ++
      ": observed_ttft_ms=" ++ toString observed ++ ", compute_wait_ms=" ++ toString compute ++
      ", kv_load_wait_ms=" ++ toString kvLoad ++ ", prefill_compute_ms=" ++ toString prefill ++
      ", unattributed_ttft_ms=" ++ toString unattributed
  | negativeCompositionField field => field ++ " must be non-negative"
  | missingTime field id => field ++ " is missing for finished request " ++ id
  | unsupportedConversion reason => "unsupported cache block conversion result: " ++ reason
  | hitTokensExceedPrompt => "accounted hit tokens cannot exceed prompt_tokens"
  | detailNotNumeric key => "latency detail " ++ key ++ " must be numeric"
  | detailNegative key => "latency detail " ++ key ++ " must be non-negative"
  | shapeKeyMismatch => "computed latency result does not match requested shape key"
  | duplicateActiveRequest id => "duplicate active request_id " ++ id
  | foreignRequest expected got =>
    "request source for instance " ++ expected ++ " yielded request for instance " ++ got
  | cache error => error.message
  | materialization error => error.message
  | backend error => error.message
  | source error => error.message
  | outOfFuel => "out of fuel"

end ReplayError

end InferTwin
