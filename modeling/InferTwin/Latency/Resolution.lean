import InferTwin.Latency.InstanceResolver

namespace InferTwin

open Effect

/-- What a resolver answers if it is asked for nothing else. -/
def InstanceLatencyBackendResolver.resolve (resolver : InstanceLatencyBackendResolver)
    (instanceUuid : String) : Except ConfigError (BatchLatencyBackend × LatencyResolutionMetadata) :=
  if instanceUuid = "" then .error .emptyInstanceUuid
  else
    match resolver.instanceProfile with
    | none => .ok (resolver.globalBackend, {
        source := .global
        calibrationStatus := "configured"
        modelName := resolver.globalBackend.modelName })
    | some instanceProfile => resolver.resolveInstance instanceProfile instanceUuid

/-- The dictionaries of a resolver hold answers that it would give again. -/
structure ResolvedBackends.Filled (resolved : ResolvedBackends)
    (resolver : InstanceLatencyBackendResolver) : Prop where
  answers : ∀ instanceUuid backend, resolved.backendByInstance.lookup instanceUuid = some backend →
    ∃ metadata, resolved.metadataByInstance.lookup instanceUuid = some metadata ∧
      resolver.resolve instanceUuid = .ok (backend, metadata)

theorem ResolvedBackends.filled_empty (resolver : InstanceLatencyBackendResolver) :
    ({} : ResolvedBackends).Filled resolver where
  answers _ _ h := by cases h

namespace InstanceLatencyBackendResolver

variable {resolver : InstanceLatencyBackendResolver} {resolved : ResolvedBackends}

theorem filled_insert (h : resolved.Filled resolver) {instanceUuid : String}
    {backend : BatchLatencyBackend} {metadata : LatencyResolutionMetadata}
    (hresolve : resolver.resolve instanceUuid = .ok (backend, metadata)) :
    ResolvedBackends.Filled {
      backendByInstance := resolved.backendByInstance.insert instanceUuid backend
      metadataByInstance := resolved.metadataByInstance.insert instanceUuid metadata } resolver := by
  constructor
  intro other found hfound
  rcases eq_or_ne other instanceUuid with rfl | hne
  · rw [Finmap.lookup_insert] at hfound
    cases hfound
    exact ⟨metadata, Finmap.lookup_insert _, hresolve⟩
  · rw [Finmap.lookup_insert_of_ne _ hne] at hfound
    obtain ⟨known, hknown, hanswer⟩ := h.answers other found hfound
    exact ⟨known, (Finmap.lookup_insert_of_ne _ hne).trans hknown, hanswer⟩

/-- Whatever a resolver has been asked for, it answers as if it had not. -/
theorem backend_for_resolves (h : resolved.Filled resolver) (instanceUuid : String) :
    outcome (resolver.backendFor instanceUuid resolved) =
        (resolver.resolve instanceUuid).map Prod.fst ∧
      (after (resolver.backendFor instanceUuid resolved)).Filled resolver := by
  unfold backendFor
  by_cases hempty : instanceUuid = ""
  · rw [if_pos hempty, resolve, if_pos hempty]
    exact ⟨rfl, h⟩
  rw [if_neg hempty]
  cases hprofile : resolver.instanceProfile with
  | none =>
    rw [resolve, if_neg hempty, hprofile]
    exact ⟨rfl, h⟩
  | some instanceProfile =>
    have hresolve : resolver.resolve instanceUuid =
        resolver.resolveInstance instanceProfile instanceUuid := by
      rw [resolve, if_neg hempty, hprofile]
    simp only [bind_apply, get_apply]
    cases hlookup : resolved.backendByInstance.lookup instanceUuid with
    | some backend =>
      obtain ⟨metadata, -, hanswer⟩ := h.answers instanceUuid backend hlookup
      rw [hanswer]
      exact ⟨rfl, h⟩
    | none =>
      rw [hresolve]
      cases hanswer : resolver.resolveInstance instanceProfile instanceUuid with
      | error e => exact ⟨rfl, h⟩
      | ok answer =>
        obtain ⟨backend, metadata⟩ := answer
        rw [hanswer] at hresolve
        exact ⟨rfl, filled_insert h hresolve⟩

end InstanceLatencyBackendResolver

theorem build_instance_latency_backend_shipped {profile : InstanceLatencyProfile}
    {backend : BatchLatencyBackend} (h : buildInstanceLatencyBackend profile = .ok backend) :
    ServingBackend backend := by
  unfold buildInstanceLatencyBackend at h
  split_ifs at h
  obtain ⟨fitted, -, h⟩ := except_bind_ok.mp h
  obtain ⟨component, hcomponent, h⟩ := except_bind_ok.mp h
  obtain ⟨built, hbuilt, h⟩ := except_bind_ok.mp h
  cases h
  refine serving_profile_shipped ?_ hbuilt
  cases hload : buildKvLoadComponent profile.kvLoad with
  | error error =>
    rw [hload] at hcomponent
    cases hcomponent
  | ok load =>
    rw [hload] at hcomponent
    cases hcomponent
    exact build_kv_load_component_shipped hload

/-- Whatever a resolver answers with is one of the backends the replay is proved for. -/
theorem resolve_shipped {resolver : InstanceLatencyBackendResolver}
    (hglobal : ServingBackend resolver.globalBackend) {instanceUuid : String}
    {backend : BatchLatencyBackend} {metadata : LatencyResolutionMetadata}
    (h : resolver.resolve instanceUuid = .ok (backend, metadata)) : ServingBackend backend := by
  unfold InstanceLatencyBackendResolver.resolve at h
  split_ifs at h
  cases hprofile : resolver.instanceProfile with
  | none =>
    rw [hprofile] at h
    cases h
    exact hglobal
  | some instanceProfile =>
    rw [hprofile] at h
    obtain ⟨profile, -, h⟩ := except_bind_ok.mp h
    obtain ⟨built, hbuilt, h⟩ := except_bind_ok.mp h
    cases h
    exact build_instance_latency_backend_shipped hbuilt

end InferTwin
