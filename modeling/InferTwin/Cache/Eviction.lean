import InferTwin.Errors
import InferTwin.Foundation.Dict

namespace InferTwin

/-- The resident keys of a tier, from the least to the most recently used. -/
abbrev Recency := List String

namespace LRUEvictionPolicy

def name : String := "lru"

def onInsert (recency : Recency) (key : String) : Recency := recency.erase key ++ [key]

def onAccess (recency : Recency) (key : String) : Except CacheError Recency :=
  if key ∈ recency then .ok (recency.erase key ++ [key]) else .error (.accessNonResident key)

def onRemove (recency : Recency) (key : String) : Except CacheError Recency :=
  if key ∈ recency then .ok (recency.erase key) else .error (.removeNonResident key)

/-- The block evicted next, with its key. -/
def selectVictim {ν : Type} (recency : Recency) (blocks : Dict String ν) :
    Except CacheError (String × ν) :=
  if blocks.len = 0 then .error .emptyCache
  else match recency with
    | [] => .error .noResident
    | key :: _ =>
      match blocks.lookup key with
      | some block => .ok (key, block)
      | none => .error (.staleVictim key)

end LRUEvictionPolicy

end InferTwin
