import InferTwin.Scheduler.RequestState

namespace InferTwin

/-- Tokens scheduled for one request in one iteration. The checks made when the source
builds a slice are fields here. -/
structure ScheduledSlice where
  requestId : String
  scheduledPrefillTokens : ℕ
  computedTokensBefore : ℕ
  computedTokensAfter : ℕ
  promptTokens : ℕ
  cachedPrefixTokens : ℕ
  previousChunkTokens : ℕ
  kvLoadTokens : ℕ
  kvLoadBytes : ℕ
  has_work : ¬(scheduledPrefillTokens = 0 ∧ kvLoadTokens = 0 ∧ kvLoadBytes = 0)
  before_eq : computedTokensBefore = cachedPrefixTokens + previousChunkTokens
  after_eq : computedTokensAfter = computedTokensBefore + scheduledPrefillTokens
  after_le : computedTokensAfter ≤ promptTokens
  deriving DecidableEq

/-- Scheduler output for one replay iteration. -/
structure BatchShape where
  instanceUuid : String
  iterationId : ℕ
  startTimeMs : ℚ
  requestSlices : List ScheduledSlice
  scheduledDecodeTokens : ℕ := 0
  start_nonneg : 0 ≤ startTimeMs
  deriving DecidableEq

namespace BatchShape

def batchSize (shape : BatchShape) : ℕ := shape.requestSlices.length

def scheduledPrefillTokens (shape : BatchShape) : ℕ :=
  (shape.requestSlices.map ScheduledSlice.scheduledPrefillTokens).sum

def maxQueryLen (shape : BatchShape) : ℕ :=
  (shape.requestSlices.map ScheduledSlice.scheduledPrefillTokens).foldl max 0

def totalContextTokens (shape : BatchShape) : ℕ :=
  (shape.requestSlices.map ScheduledSlice.computedTokensBefore).sum

def kvLoadTokens (shape : BatchShape) : ℕ :=
  (shape.requestSlices.map ScheduledSlice.kvLoadTokens).sum

def kvLoadBytes (shape : BatchShape) : ℕ :=
  (shape.requestSlices.map ScheduledSlice.kvLoadBytes).sum

def kvLoadRequestCount (shape : BatchShape) : ℕ :=
  shape.requestSlices.countP fun slice ↦ slice.kvLoadTokens > 0 || slice.kvLoadBytes > 0

end BatchShape

end InferTwin
