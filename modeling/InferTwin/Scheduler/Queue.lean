import InferTwin.Foundation.Effect
import Mathlib.Algebra.Order.Group.Nat

namespace InferTwin

open Effect

/-- The `IndexError`s of a queue. -/
inductive QueueError
  | popleftFromEmpty
  | indexOutOfRange
  | listIndexOutOfRange
  deriving DecidableEq, Repr

def QueueError.message : QueueError → String
  | popleftFromEmpty => "popleft from empty WaitingQueue"
  | indexOutOfRange => "WaitingQueue index out of range"
  | listIndexOutOfRange => "list index out of range"

/-- A first-in first-out queue. The items before the head have been handed out and wait to be
cut off. -/
structure WaitingQueue (α : Type) where
  items : List α
  head : ℕ := 0
  deriving DecidableEq, Repr

namespace WaitingQueue

variable {α : Type}

def COMPACT_HEAD_THRESHOLD : ℕ := 64

def create (states : List α) : WaitingQueue α where
  items := states

def len (queue : WaitingQueue α) : ℤ := queue.items.length - queue.head

def bool (queue : WaitingQueue α) : Bool := queue.len > 0

def iter (queue : WaitingQueue α) : List α := queue.items.drop queue.head

def compactIfNeeded (queue : WaitingQueue α) : WaitingQueue α :=
  if queue.head < COMPACT_HEAD_THRESHOLD then queue
  else if queue.head * 2 < queue.items.length then queue
  else { items := queue.items.drop queue.head, head := 0 }

def normalizeIndex (index : ℤ) : EStateM QueueError (WaitingQueue α) ℤ := do
  let length := (← get).len
  let logicalIndex := if index < 0 then index + length else index
  if logicalIndex < 0 ∨ logicalIndex ≥ length then throw .indexOutOfRange
  return logicalIndex

/-- `self._items[index]`, for an index that is not negative. -/
def item (index : ℕ) : EStateM QueueError (WaitingQueue α) α := do
  match (← get).items[index]? with
  | some state => return state
  | none => throw .listIndexOutOfRange

def append (state : α) : EStateM QueueError (WaitingQueue α) Unit :=
  modify fun queue ↦ { queue with items := queue.items ++ [state] }

def popleft : EStateM QueueError (WaitingQueue α) α := do
  if !(← get).bool then throw .popleftFromEmpty
  let state ← item (← get).head
  modify fun queue ↦ { queue with head := queue.head + 1 }
  modify compactIfNeeded
  return state

def pop (index : ℤ) : EStateM QueueError (WaitingQueue α) α := do
  let logicalIndex ← normalizeIndex index
  if logicalIndex = 0 then popleft
  else
    let physicalIndex := (← get).head + logicalIndex.toNat
    let state ← item physicalIndex
    modify fun queue ↦ { queue with items := queue.items.eraseIdx physicalIndex }
    modify compactIfNeeded
    return state

def getItem (index : ℤ) : EStateM QueueError (WaitingQueue α) α := do
  let logicalIndex ← normalizeIndex index
  item ((← get).head + logicalIndex.toNat)

end WaitingQueue

/-- What a caller can do with a queue. -/
inductive QueueOperation (α : Type)
  | append (state : α)
  | popleft
  | pop (index : ℤ)
  | getItem (index : ℤ)
  | iter
  | len
  | bool

inductive QueueAnswer (α : Type)
  | done
  | state (state : α)
  | states (states : List α)
  | length (length : ℤ)
  | truth (truth : Bool)

variable {α : Type}

def WaitingQueue.perform :
    QueueOperation α → EStateM QueueError (WaitingQueue α) (QueueAnswer α)
  | .append state => do
    append state
    return .done
  | .popleft => return .state (← popleft)
  | .pop index => return .state (← pop index)
  | .getItem index => return .state (← getItem index)
  | .iter => return .states (← get).iter
  | .len => return .length (← get).len
  | .bool => return .truth (← get).bool

/-! The lists of Python, where an operation that raises an `IndexError` has no answer. -/

namespace PyList

/-- The position that an index means, counted from the end if it is negative. -/
def position (length : ℕ) (index : ℤ) : Option ℕ :=
  if 0 ≤ index ∧ index < length then some index.toNat
  else if index < 0 ∧ -length ≤ index then some (index + length).toNat
  else none

def getItem (index : ℤ) (list : List α) : Option α := do
  list[← position list.length index]?

def pop (index : ℤ) (list : List α) : Option (α × List α) := do
  let position ← position list.length index
  return (← list[position]?, list.eraseIdx position)

def answerPop (index : ℤ) (list : List α) : Option (QueueAnswer α) × List α :=
  match pop index list with
  | some (state, list') => (some (.state state), list')
  | none => (none, list)

def perform : QueueOperation α → List α → Option (QueueAnswer α) × List α
  | .append state, list => (some .done, list ++ [state])
  | .popleft, list => answerPop 0 list
  | .pop index, list => answerPop index list
  | .getItem index, list => ((getItem index list).map .state, list)
  | .iter, list => (some (.states list), list)
  | .len, list => (some (.length list.length), list)
  | .bool, list => (some (.truth !list.isEmpty), list)

end PyList

end InferTwin
