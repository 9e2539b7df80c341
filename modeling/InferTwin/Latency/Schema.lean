import InferTwin.Foundation.Dict
import InferTwin.Scheduler.BatchShape

namespace InferTwin

namespace Dict

variable {ν : Type}

/-- Subscripting: the entry of a key that must be there. -/
def getItem (dict : Dict String ν) (key : String) : Except ReplayError ν :=
  match dict.lookup key with
  | some value => .ok value
  | none => .error (.missingKey key)

theorem getItem_eq_ok {dict : Dict String ν} {key : String} {value : ν}
    (h : dict.lookup key = some value) : dict.getItem key = .ok value := by
  simp [getItem, h]

end Dict

structure ShapeKey where
  backend : String
  modelName : String
  hardwareName : String
  batchSize : ℕ
  scheduledPrefillTokens : ℕ
  scheduledDecodeTokens : ℕ
  maxQueryLen : ℕ
  totalContextTokens : ℕ
  kvLoadTokens : ℕ
  kvLoadBytes : ℕ
  kvLoadRequestCount : ℕ
  deriving DecidableEq, Repr

namespace ShapeKey

def fromShape (backend modelName hardwareName : String) (shape : BatchShape) : ShapeKey where
  backend
  modelName
  hardwareName
  batchSize := shape.batchSize
  scheduledPrefillTokens := shape.scheduledPrefillTokens
  scheduledDecodeTokens := shape.scheduledDecodeTokens
  maxQueryLen := shape.maxQueryLen
  totalContextTokens := shape.totalContextTokens
  kvLoadTokens := shape.kvLoadTokens
  kvLoadBytes := shape.kvLoadBytes
  kvLoadRequestCount := shape.kvLoadRequestCount

/-- `str(shape_key)`. -/
def str (key : ShapeKey) : String :=
  "|".intercalate [key.backend, key.modelName, key.hardwareName,
    "bs=" ++ toString key.batchSize, "prefill=" ++ toString key.scheduledPrefillTokens,
    "decode=" ++ toString key.scheduledDecodeTokens, "maxq=" ++ toString key.maxQueryLen,
    "ctx=" ++ toString key.totalContextTokens, "kvload_tokens=" ++ toString key.kvLoadTokens,
    "kvload_bytes=" ++ toString key.kvLoadBytes,
    "kvload_reqs=" ++ toString key.kvLoadRequestCount]

end ShapeKey

inductive DetailValue
  | num (value : ℚ)
  | str (value : String)
  | bool (value : Bool)
  deriving DecidableEq, Repr

/-- The details of a latency result, in the order they were written. -/
abbrev Details := List (String × DetailValue)

/-- `details.get(key)`: of two entries under one key the one written last counts. -/
def Details.get? (details : Details) (key : String) : Option DetailValue :=
  List.lookup key details.reverse

/-- Duration of one iteration. A negative duration cannot be built. -/
structure LatencyResult where
  durationMs : ℚ
  backend : String
  shapeKey : ShapeKey
  memoized : Bool := false
  details : Details := []
  duration_nonneg : 0 ≤ durationMs

/-- The protocol of a latency backend. -/
structure BatchLatencyBackend where
  name : String
  modelName : String
  hardwareName : String
  estimateIteration : BatchShape → Except BackendError LatencyResult

/-- The key under which a backend's results are memoized. -/
def BatchLatencyBackend.shapeKey (backend : BatchLatencyBackend) (shape : BatchShape) :
    ShapeKey :=
  ShapeKey.fromShape backend.name backend.modelName backend.hardwareName shape

abbrev ShapeMemo := Dict ShapeKey LatencyResult

namespace ShapeMemo

def get (memo : ShapeMemo) (key : ShapeKey) : Option LatencyResult :=
  (memo.lookup key).map fun result ↦ { result with memoized := true }

def put (memo : ShapeMemo) (result : LatencyResult) : ShapeMemo :=
  memo.insert result.shapeKey { result with memoized := false }

/-- The result for a key, from the memo or else computed and stored. -/
def getOrCompute (key : ShapeKey) (compute : Except BackendError LatencyResult) :
    EStateM ReplayError ShapeMemo LatencyResult := fun memo ↦
  match memo.get key with
  | some cached => .ok cached memo
  | none =>
    match compute with
    | .error e => .error (.backend e) memo
    | .ok result =>
      if result.shapeKey ≠ key then .error .shapeKeyMismatch memo
      else .ok { result with memoized := false } (memo.put result)

end ShapeMemo

end InferTwin
