import InferTwin.Refinement.StreamReplay
import InferTwin.Sample
import InferTwin.Server.Outcome

namespace InferTwin

open Effect

variable {C K σ : Type} {engine : Engine C K} {requests : List SimulationRequest}

/-- What the two replays of an instance have in common. -/
structure StreamEmits (stream : StreamResult) (list : InstanceResult) : Prop where
  requests_eq : stream.requestMetrics = list.requestMetrics
  iterations_eq : stream.iterationMetrics = list.iterationMetrics
  final_active_eq : stream.stats.finalActiveRequests = 0
  request_count_eq : stream.stats.emittedRequestCount = list.requestMetrics.length
  iteration_count_eq : stream.stats.emittedIterationCount = list.iterationMetrics.length

/-- A streaming replay of a source does what the list replay of its requests does. Both
return, or both raise the same exception, and both leave the same world: the same cache,
whatever cache it is, the same drained events, the same memo and the same trace. With
enough passes the bound on them plays no part in it. -/
theorem stream_refines_list (engine : Engine C K) (source : RequestSource σ)
    {instanceUuid : String} {state : σ} (hyields : source.Yields state requests)
    (hsorted : requests.Pairwise fun a b ↦ a.sortKey ≤ b.sortKey)
    (hd : (requests.map SimulationRequest.requestId).Nodup)
    (hinstance : ∀ request ∈ requests, request.instanceUuid = instanceUuid) {turns fuel : ℕ}
    (hturns : requests.length < turns) (hfuel : replayFuel requests ≤ fuel)
    (world : World C K) :
    Agree Eq StreamEmits (engine.runInstanceStream source instanceUuid turns fuel state world)
      (engine.runInstance instanceUuid fuel requests world) ∧
    ∀ e world', engine.runInstance instanceUuid fuel requests world = .error e world' →
      e ≠ .outOfFuel := by
  have hstream := run_instance_stream_agree engine hyields hinstance hd hturns fuel world
  have hlist := run_instance_agree engine instanceUuid fuel world hd
  rw [SimulationRequest.sorted, hsorted.insertionSort_eq] at hlist
  constructor
  · refine hstream.trans hlist ?_
    rintro stream session list hs hl
    cases session with
    | none =>
      cases hl
      exact ⟨hs.requests_eq, hs.iterations_eq, hs.final_active_eq,
        hs.request_count_eq.trans (congrArg List.length hs.requests_eq),
        hs.iteration_count_eq.trans (congrArg List.length hs.iterations_eq)⟩
    | some session =>
      have hrequests := hs.requests_eq.trans hl.1.symm
      have hiterations := hs.iterations_eq.trans hl.2.symm
      exact ⟨hrequests, hiterations, hs.final_active_eq,
        hs.request_count_eq.trans (congrArg List.length hrequests),
        hs.iteration_count_eq.trans (congrArg List.length hiterations)⟩
  · rintro _ world' he rfl
    rw [he] at hlist
    generalize hserve : engine.serveInstance instanceUuid fuel requests world = served at hlist
    cases hlist with
    | error => exact (serve_instance_error engine hd hfuel hserve).1 rfl

theorem stream_refines_list_pair :
    Agree Eq StreamEmits
      ((Sample.engine Sample.config .progressive .exact).runInstanceStream (ListRequestSource true)
        "instance" 3 13 { requests := Sample.pair } Sample.world)
      ((Sample.engine Sample.config .progressive .exact).runInstance "instance" 13 Sample.pair
        Sample.world) ∧
    ∀ e world', (Sample.engine Sample.config .progressive .exact).runInstance "instance" 13
      Sample.pair Sample.world = .error e world' → e ≠ .outOfFuel :=
  stream_refines_list _ _ (list_request_source_yields true (by decide +kernel)) (by decide +kernel)
    (by decide +kernel) (by decide +kernel) (by decide +kernel) (by decide +kernel) _

end InferTwin
