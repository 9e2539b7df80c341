import InferTwin.Sample
import InferTwin.Tables.Reports

namespace InferTwin

open Effect

variable {C K : Type}

/-- Requests need not have distinct ids. When no pass of a list run comes to a request that it
would finish without an iteration while another one is registered under its id, the metrics of
the run are those of its requests, if it returns; and if no two requests agree in all that a
metric says of them, they are in no other case. The streaming replay refuses a second active
request of an id, and needs no condition. -/
theorem duplicate_ids_attributed (engine : BatchAwareReplayEngine C K) (fuel : ℕ)
    (requests : List SimulationRequest) (shared : Shared K) :
    (∀ result shared', engine.run fuel requests shared = .ok result shared' →
      (engine.runRegistered fuel requests shared →
        (result.requestMetrics.map BatchAwareRequestMetrics.tag).Perm
          (requests.map SimulationRequest.tag)) ∧
      ((requests.map SimulationRequest.tag).Nodup →
        (result.requestMetrics.map BatchAwareRequestMetrics.tag).Perm
          (requests.map SimulationRequest.tag) →
        engine.runRegistered fuel requests shared)) ∧
    ∀ (instanceUuid : String) (σ : Type) (source : RequestSource σ) (s : σ) (turns : ℕ)
      (served : List SimulationRequest), source.Yields s served →
        ∀ world result world',
          (engine.forInstance instanceUuid).runInstanceStream source instanceUuid turns fuel s
            world = .ok result world' →
          (result.requestMetrics.map BatchAwareRequestMetrics.tag).Perm
            (served.map SimulationRequest.tag) := by
  refine ⟨fun result shared' h ↦ ⟨fun hregistered ↦ ?_, ?_⟩, ?_⟩
  · exact (BatchAwareReplayEngine.run_accounted hregistered h).tags
  · exact BatchAwareReplayEngine.run_attributed h
  · intro instanceUuid σ source s turns served hyields world result world' h
    exact (run_instance_stream_accounted hyields h).tags

/-- Two tenants whose requests have the same id, the same start and nothing to compute. -/
def Sample.twins : List SimulationRequest :=
  [Sample.request "a" 0 [], { Sample.request "a" 0 [] with tenantId := "other" }]

theorem duplicate_ids_misattributed :
    ∃ result shared', (Sample.fleet Sample.config .progressive).run 3 Sample.twins
        { sink := (), memo := ∅ } = .ok result shared' ∧
      ¬(result.requestMetrics.map BatchAwareRequestMetrics.tag).Perm
        (Sample.twins.map SimulationRequest.tag) := by
  have htenants : (match (Sample.fleet Sample.config .progressive).run 3 Sample.twins
      { sink := (), memo := ∅ } with
      | .ok result _ => some (result.requestMetrics.map fun metric ↦ metric.tag.tenantId)
      | .error _ _ => none) = some ["other", "other"] := by decide +kernel
  cases hrun : (Sample.fleet Sample.config .progressive).run 3 Sample.twins
      { sink := (), memo := ∅ } with
  | error e shared' =>
    rw [hrun] at htenants
    cases htenants
  | ok result shared' =>
    rw [hrun] at htenants
    refine ⟨result, shared', rfl, fun hperm ↦ ?_⟩
    have hlost := (hperm.map Tag.tenantId).symm.subset
      (show "tenant" ∈ (Sample.twins.map SimulationRequest.tag).map Tag.tenantId by decide)
    rw [List.map_map] at hlost
    rw [show result.requestMetrics.map (Tag.tenantId ∘ BatchAwareRequestMetrics.tag) =
      ["other", "other"] from Option.some.inj htenants] at hlost
    exact absurd hlost (by decide)

/-- An id that comes again, from another tenant, once its first request has left. -/
def Sample.reused : List SimulationRequest :=
  [Sample.request "a" 0 [Sample.block "x" 0 2, Sample.block "y" 1 1],
    { Sample.request "a" 100 [Sample.block "x" 0 2, Sample.block "z" 1 1] with
      tenantId := "other" }]

/-- An id that comes again while its first request still has tokens to compute. -/
def Sample.overlapping : List SimulationRequest :=
  [Sample.request "a" 0 [Sample.block "x" 0 2, Sample.block "y" 1 1],
    { Sample.request "a" 0 [Sample.block "x" 0 2, Sample.block "z" 1 1] with
      tenantId := "other" }]

/-- The first list meets the condition and is attributed to its two tenants; a run on the second
one would be, but it raises. -/
theorem duplicate_ids_attributed_pair :
    (∃ result shared', (Sample.fleet Sample.config .progressive).run 5 Sample.reused
        { sink := (), memo := ∅ } = .ok result shared' ∧
      (result.requestMetrics.map BatchAwareRequestMetrics.tag).Perm
        (Sample.reused.map SimulationRequest.tag) ∧
      (Sample.fleet Sample.config .progressive).runRegistered 5 Sample.reused
        { sink := (), memo := ∅ } = true) ∧
    ((Sample.fleet Sample.config .progressive).runRegistered 5 Sample.overlapping
        { sink := (), memo := ∅ } = true ∧
      ∀ result shared', (Sample.fleet Sample.config .progressive).run 5 Sample.overlapping
          { sink := (), memo := ∅ } = .ok result shared' →
        (result.requestMetrics.map BatchAwareRequestMetrics.tag).Perm
          (Sample.overlapping.map SimulationRequest.tag)) := by
  have hreused : (Sample.fleet Sample.config .progressive).runRegistered 5 Sample.reused
      { sink := (), memo := ∅ } = true := by decide +kernel
  have hoverlapping : (Sample.fleet Sample.config .progressive).runRegistered 5
      Sample.overlapping { sink := (), memo := ∅ } = true := by decide +kernel
  refine ⟨?_, hoverlapping, fun result shared' hrun ↦
    ((duplicate_ids_attributed _ 5 Sample.overlapping _).1 result shared' hrun).1 hoverlapping⟩
  have hreturns : (match (Sample.fleet Sample.config .progressive).run 5 Sample.reused
      { sink := (), memo := ∅ } with
      | .ok _ _ => true
      | .error _ _ => false) = true := by decide +kernel
  cases hrun : (Sample.fleet Sample.config .progressive).run 5 Sample.reused
      { sink := (), memo := ∅ } with
  | error e shared' =>
    rw [hrun] at hreturns
    cases hreturns
  | ok result shared' =>
    obtain ⟨hattributed, hexact⟩ :=
      (duplicate_ids_attributed _ 5 Sample.reused _).1 result shared' hrun
    have hperm := hattributed hreused
    have htags : (Sample.reused.map SimulationRequest.tag).Nodup := by decide +kernel
    exact ⟨result, shared', rfl, hperm, hexact htags hperm⟩

end InferTwin
