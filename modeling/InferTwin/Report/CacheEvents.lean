import InferTwin.Cache.EventSink

namespace InferTwin

variable {K : Type}

/-- A writer of cache events that keeps their statistics, with the rows of its file. -/
def CsvCacheEventWriter : CacheEventSink (List CacheEvent × CacheEventStats) where
  emitMany events state := (state.1 ++ events, events.foldl CacheEventStats.record state.2)
  snapshotStats state := state.2
  snapshotEvents _ := []

/-- A consumer that keeps the events and nothing else. -/
def EventLogSink : CacheEventSink (List CacheEvent) where
  emitMany events log := log ++ events
  snapshotStats log := log.foldl CacheEventStats.record {}
  snapshotEvents log := log

/-- It does not matter in which portions a consumer is given its events, and it counts
them all. -/
structure CacheEventSink.Sequential (sink : CacheEventSink K) : Prop where
  emit_append : ∀ events events' k,
    sink.emitMany (events ++ events') k = sink.emitMany events' (sink.emitMany events k)
  emit_nil : ∀ k, sink.emitMany [] k = k
  counts : ∀ events k, (sink.snapshotStats (sink.emitMany events k)).totalEvents =
    (sink.snapshotStats k).totalEvents + events.length

theorem CacheEventStats.record_total (stats : CacheEventStats) (event : CacheEvent) :
    (stats.record event).totalEvents = stats.totalEvents + 1 := by
  unfold record countType
  cases event.eventType <;> rfl

theorem CacheEventStats.foldl_record_total (stats : CacheEventStats) (events : List CacheEvent) :
    (events.foldl record stats).totalEvents = stats.totalEvents + events.length := by
  induction events generalizing stats with
  | nil => rfl
  | cons event events ih =>
    rw [List.foldl_cons, ih, record_total, List.length_cons]
    omega

theorem stats_only_sequential : StatsOnlyCacheEventSink.Sequential where
  emit_append _ _ _ := List.foldl_append
  emit_nil _ := rfl
  counts events stats := stats.foldl_record_total events

theorem csv_writer_sequential : CsvCacheEventWriter.Sequential where
  emit_append events events' k :=
    congrArg₂ Prod.mk (List.append_assoc k.1 events events').symm List.foldl_append
  emit_nil k := congrArg₂ Prod.mk (List.append_nil k.1) rfl
  counts events k := k.2.foldl_record_total events

end InferTwin
