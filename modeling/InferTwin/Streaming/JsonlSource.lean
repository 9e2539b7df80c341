import InferTwin.Streaming.RequestCodec
import InferTwin.Streaming.Source

namespace InferTwin

open Effect

/-- A shard that is being read: what is left of its text, and the request looked ahead at. -/
structure JsonlSourceState where
  rest : List Char
  nextRequest : Option SimulationRequest := none
  exhausted : Bool := false
  lineNumber : ℕ := 0
  lastEmittedKey : Option (ℚ ×ₗ String) := none

namespace JsonlRequestSource

/-- `file.readline()`: up to the next newline, which it includes, or to the end. -/
def readline : List Char → List Char × List Char
  | [] => ([], [])
  | c :: cs =>
    if c = '\n' then ([c], cs)
    else
      let (line, rest) := readline cs
      (c :: line, rest)

variable (text : JsonText) (path : String) (requireSorted : Bool)

/-- `_read_next`. -/
def readNext (state : JsonlSourceState) :
    Except SourceError (Option SimulationRequest × JsonlSourceState) :=
  let (line, rest) := readline state.rest
  if line = [] then .ok (none, { state with rest, exhausted := true })
  else
    let lineNumber := state.lineNumber + 1
    match decodeSimulationRequestLine text (String.ofList line) with
    | .ok request => .ok (some request, { state with rest, lineNumber })
    | .error error => .error (.external (path ++ ": invalid request shard line " ++
        toString lineNumber ++ ": " ++ error.message))

def peek (state : JsonlSourceState) :
    Except SourceError (Option SimulationRequest × JsonlSourceState) :=
  match state.nextRequest, state.exhausted with
  | none, false => do
    let (request, state) ← readNext text path state
    return (request, { state with nextRequest := request })
  | nextRequest, _ => .ok (nextRequest, state)

def pop (state : JsonlSourceState) :
    Except SourceError (SimulationRequest × JsonlSourceState) := do
  let (request, state) ← peek text path state
  match request with
  | none => throw .popFromEmpty
  | some request =>
    ListRequestSource.guardSorted requireSorted state.lastEmittedKey request.sortKey
    return (request, { state with
      nextRequest := none, lastEmittedKey := some request.sortKey })

end JsonlRequestSource

/-- A request source backed by a shard. -/
def JsonlRequestSource (text : JsonText) (path : String) (requireSorted : Bool) :
    RequestSource JsonlSourceState where
  peek := JsonlRequestSource.peek text path
  pop := JsonlRequestSource.pop text path requireSorted

end InferTwin
