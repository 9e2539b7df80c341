import InferTwin.Errors
import InferTwin.Request.SimulationRequest

namespace InferTwin

/-- Peekable source of replay-ready requests, over a source object with state `σ`. -/
structure RequestSource (σ : Type) where
  peek : σ → Except SourceError (Option SimulationRequest × σ)
  pop : σ → Except SourceError (SimulationRequest × σ)

variable {σ : Type}

/-- From state `s` the source serves exactly `requests`, however often it is peeked at. -/
def RequestSource.Yields (source : RequestSource σ) (s : σ) (requests : List SimulationRequest) :
    Prop :=
  ∃ Serves : σ → List SimulationRequest → Prop, Serves s requests ∧
    (∀ s requests, Serves s requests →
      ∃ s', source.peek s = .ok (requests.head?, s') ∧ Serves s' requests) ∧
    ∀ s request requests, Serves s (request :: requests) →
      ∃ s', source.pop s = .ok (request, s') ∧ Serves s' requests

namespace RequestSource.Yields

variable {source : RequestSource σ} {s : σ} {request : SimulationRequest}
  {requests : List SimulationRequest}

theorem peek (h : source.Yields s requests) :
    ∃ s', source.peek s = .ok (requests.head?, s') ∧ source.Yields s' requests := by
  obtain ⟨Serves, hs, hpeek, hpop⟩ := h
  obtain ⟨s', he, hs'⟩ := hpeek _ _ hs
  exact ⟨s', he, Serves, hs', hpeek, hpop⟩

theorem pop (h : source.Yields s (request :: requests)) :
    ∃ s', source.pop s = .ok (request, s') ∧ source.Yields s' requests := by
  obtain ⟨Serves, hs, hpeek, hpop⟩ := h
  obtain ⟨s', he, hs'⟩ := hpop _ _ _ hs
  exact ⟨s', he, Serves, hs', hpeek, hpop⟩

end RequestSource.Yields

/-- What a list source has left, and the key of the request it handed out last. -/
structure ListSourceState where
  requests : List SimulationRequest
  lastEmittedKey : Option (ℚ ×ₗ String) := none

namespace ListRequestSource

/-- `_guard_sorted`, for a source that requires order. -/
def guardSorted (requireSorted : Bool) (previousKey : Option (ℚ ×ₗ String))
    (currentKey : ℚ ×ₗ String) : Except SourceError Unit :=
  match previousKey with
  | some previousKey =>
    if requireSorted ∧ currentKey < previousKey then .error .unsorted else .ok ()
  | none => .ok ()

def pop (requireSorted : Bool) (state : ListSourceState) :
    Except SourceError (SimulationRequest × ListSourceState) :=
  match state.requests with
  | [] => .error .popFromEmpty
  | request :: requests => do
    guardSorted requireSorted state.lastEmittedKey request.sortKey
    return (request, { requests, lastEmittedKey := some request.sortKey })

end ListRequestSource

/-- A request source backed by an in-memory list. -/
def ListRequestSource (requireSorted : Bool) : RequestSource ListSourceState where
  peek state := .ok (state.requests.head?, state)
  pop := ListRequestSource.pop requireSorted

/-- A list source over requests in replay order serves exactly these requests. -/
theorem list_request_source_yields (requireSorted : Bool) {requests : List SimulationRequest}
    (h : requests.Pairwise fun a b ↦ a.sortKey ≤ b.sortKey) :
    (ListRequestSource requireSorted).Yields { requests } requests := by
  refine ⟨fun state rest ↦ state.requests = rest ∧
    rest.Pairwise (fun a b ↦ a.sortKey ≤ b.sortKey) ∧
    ∀ key ∈ state.lastEmittedKey, ∀ request ∈ rest, key ≤ request.sortKey,
    ⟨rfl, h, by simp⟩, ?_, ?_⟩
  · rintro state rest ⟨rfl, hs, hk⟩
    exact ⟨state, rfl, rfl, hs, hk⟩
  · rintro ⟨_, last⟩ request rest ⟨rfl, hs, hk⟩
    refine ⟨{ requests := rest, lastEmittedKey := some request.sortKey }, ?_, rfl,
      hs.of_cons, ?_⟩
    · have hguard : ListRequestSource.guardSorted requireSorted last request.sortKey = .ok () := by
        cases last with
        | none => rfl
        | some key =>
          have hle := hk key rfl request (List.mem_cons_self ..)
          simp [ListRequestSource.guardSorted, not_lt.mpr hle]
      simp [ListRequestSource, ListRequestSource.pop, hguard, bind, Except.bind, pure, Except.pure]
    · intro key hkey other hother
      cases hkey
      exact List.rel_of_pairwise_cons hs hother

end InferTwin
