import InferTwin.Errors
import Mathlib.Algebra.Order.Ring.Rat
import Mathlib.Tactic.Linarith

namespace InferTwin

/-- One request-level KV transfer submitted to an instance-local link. -/
structure KVTransferRequest where
  requestId : String
  instanceUuid : String
  readyTimeMs : ℚ
  transferMs : ℚ
  kvLoadTokens : ℕ := 0
  kvLoadBytes : ℕ := 0
  request_id_required : requestId ≠ ""
  instance_uuid_required : instanceUuid ≠ ""
  ready_nonneg : 0 ≤ readyTimeMs
  transfer_nonneg : 0 ≤ transferMs

/-- The checks of the source on building a transfer request, in their order. -/
def KVTransferRequest.build (requestId instanceUuid : String) (readyTimeMs transferMs : ℚ)
    (kvLoadTokens kvLoadBytes : ℕ) (ht : 0 ≤ transferMs) :
    Except ReplayError KVTransferRequest :=
  if hid : requestId = "" then .error .transferRequestIdRequired
  else if huuid : instanceUuid = "" then .error .transferInstanceRequired
  else if hready : readyTimeMs < 0 then .error .negativeReadyTime
  else .ok {
    requestId, instanceUuid, readyTimeMs, transferMs, kvLoadTokens, kvLoadBytes
    request_id_required := hid
    instance_uuid_required := huuid
    ready_nonneg := not_lt.mp hready
    transfer_nonneg := ht }

structure KVTransferResult where
  requestId : String
  instanceUuid : String
  readyTimeMs : ℚ
  startTimeMs : ℚ
  finishTimeMs : ℚ
  transferMs : ℚ
  queueWaitMs : ℚ
  elapsedMs : ℚ
  queueDepthBefore : ℕ
  queueDepthAfter : ℕ
  ready_le_start : readyTimeMs ≤ startTimeMs
  start_le_finish : startTimeMs ≤ finishTimeMs
  wait_nonneg : 0 ≤ queueWaitMs
  elapsed_nonneg : 0 ≤ elapsedMs

/-- The instance-local FIFO link. -/
structure SharedLinkFIFOTransferQueue where
  instanceUuid : String
  nextAvailableTimeMs : ℚ := 0
  unfinishedFinishTimes : List ℚ := []

namespace SharedLinkFIFOTransferQueue

def create (instanceUuid : String) : Except ReplayError SharedLinkFIFOTransferQueue :=
  if instanceUuid = "" then .error .transferInstanceRequired else .ok { instanceUuid }

def pruneCompleted (queue : SharedLinkFIFOTransferQueue) (readyTimeMs : ℚ) :
    SharedLinkFIFOTransferQueue :=
  { queue with
    unfinishedFinishTimes := queue.unfinishedFinishTimes.filter fun t ↦ t > readyTimeMs }

/-- Submit one transfer: it starts when it is ready and the link is free. -/
def submit (queue : SharedLinkFIFOTransferQueue) (request : KVTransferRequest) :
    Except ReplayError (KVTransferResult × SharedLinkFIFOTransferQueue) :=
  if request.instanceUuid ≠ queue.instanceUuid then
    .error (.transferInstanceMismatch request.instanceUuid queue.instanceUuid)
  else
    let pruned := queue.pruneCompleted request.readyTimeMs
    let startTimeMs := max request.readyTimeMs pruned.nextAvailableTimeMs
    let finishTimeMs := startTimeMs + request.transferMs
    let unfinished := if request.transferMs > 0 then
      pruned.unfinishedFinishTimes ++ [finishTimeMs] else pruned.unfinishedFinishTimes
    .ok ({
      requestId := request.requestId
      instanceUuid := request.instanceUuid
      readyTimeMs := request.readyTimeMs
      startTimeMs
      finishTimeMs
      transferMs := request.transferMs
      queueWaitMs := startTimeMs - request.readyTimeMs
      elapsedMs := finishTimeMs - request.readyTimeMs
      queueDepthBefore := pruned.unfinishedFinishTimes.length
      queueDepthAfter := unfinished.length
      ready_le_start := le_max_left _ _
      start_le_finish := le_add_of_nonneg_right request.transfer_nonneg
      wait_nonneg := sub_nonneg.mpr (le_max_left _ _)
      elapsed_nonneg := by
        have h₁ : request.readyTimeMs ≤ startTimeMs := le_max_left _ _
        have h₂ := request.transfer_nonneg
        linarith },
      { queue with
        nextAvailableTimeMs := finishTimeMs
        unfinishedFinishTimes := unfinished })

/-- What a successful submission does to the link and to the transfer. -/
theorem submit_spec {queue queue' : SharedLinkFIFOTransferQueue} {request : KVTransferRequest}
    {result : KVTransferResult} (h : queue.submit request = .ok (result, queue')) :
    queue'.instanceUuid = queue.instanceUuid ∧
    queue'.nextAvailableTimeMs =
      max request.readyTimeMs queue.nextAvailableTimeMs + request.transferMs ∧
    result.elapsedMs = queue'.nextAvailableTimeMs - request.readyTimeMs := by
  unfold submit at h
  split_ifs at h
  all_goals
    cases h
    exact ⟨rfl, rfl, rfl⟩

end SharedLinkFIFOTransferQueue

end InferTwin
