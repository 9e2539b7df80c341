import InferTwin.Cache.Interface

namespace InferTwin

structure CacheEventStats where
  totalEvents : ℕ := 0
  lookupHitEvents : ℕ := 0
  lookupMissEvents : ℕ := 0
  materializeEvents : ℕ := 0
  evictEvents : ℕ := 0
  storeEvents : ℕ := 0
  peakHbmUsedBlocks : ℕ := 0
  finalHbmUsedBlocks : ℕ := 0
  peakDdrUsedBlocks : ℕ := 0
  finalDdrUsedBlocks : ℕ := 0
  deriving DecidableEq, Repr

namespace CacheEventStats

/-- The counter of the event's type goes up by one. -/
def countType (stats : CacheEventStats) : CacheEventType → CacheEventStats
  | .lookupHit => { stats with lookupHitEvents := stats.lookupHitEvents + 1 }
  | .lookupMiss => { stats with lookupMissEvents := stats.lookupMissEvents + 1 }
  | .materialize => { stats with materializeEvents := stats.materializeEvents + 1 }
  | .evict => { stats with evictEvents := stats.evictEvents + 1 }
  | .store => { stats with storeEvents := stats.storeEvents + 1 }

def record (stats : CacheEventStats) (event : CacheEvent) : CacheEventStats :=
  let counted := countType { stats with totalEvents := stats.totalEvents + 1 } event.eventType
  { counted with
    peakHbmUsedBlocks := max stats.peakHbmUsedBlocks event.hbmUsedBlocks
    finalHbmUsedBlocks := event.hbmUsedBlocks
    peakDdrUsedBlocks := max stats.peakDdrUsedBlocks event.ddrUsedBlocks
    finalDdrUsedBlocks := event.ddrUsedBlocks }

end CacheEventStats

/-- A consumer of drained cache events, with state `K`. -/
structure CacheEventSink (K : Type) where
  emitMany : List CacheEvent → K → K
  snapshotStats : K → CacheEventStats
  snapshotEvents : K → List CacheEvent

def NullCacheEventSink : CacheEventSink Unit where
  emitMany _ _ := ()
  snapshotStats _ := {}
  snapshotEvents _ := []

def StatsOnlyCacheEventSink : CacheEventSink CacheEventStats where
  emitMany events stats := events.foldl CacheEventStats.record stats
  snapshotStats stats := stats
  snapshotEvents _ := []

end InferTwin
