import InferTwin.Replay.EventLoop

namespace InferTwin

open Effect

variable {C K : Type}

/-- By what a metric is attributed to a request. -/
structure Tag where
  requestId : String
  tenantId : String
  instanceUuid : String
  arrivalTimeMs : ℚ
  promptTokens : ℕ
  deriving DecidableEq

def SimulationRequest.tag (request : SimulationRequest) : Tag where
  requestId := request.requestId
  tenantId := request.tenantId
  instanceUuid := request.instanceUuid
  arrivalTimeMs := request.startTimeMs
  promptTokens := request.promptTokens

namespace RequestState

def tag (state : RequestState) : Tag where
  requestId := state.requestId
  tenantId := state.tenantId
  instanceUuid := state.instanceUuid
  arrivalTimeMs := state.arrivalTimeMs
  promptTokens := state.promptTokens

/-- The blocks and the tokens that were made visible for a request. -/
def visible (state : RequestState) : ℕ × ℕ :=
  (state.progressiveMaterializedBlocks, state.progressiveMaterializedTokens)

/-- A request object goes on under its tag, finished if and only if it was. -/
structure Continues (state state' : RequestState) : Prop where
  tag_eq : state'.tag = state.tag
  visible_eq : state'.visible = state.visible
  finished_iff : state'.status = .finished ↔ state.status = .finished

namespace Continues

variable {state state' state'' : RequestState}

theorem refl (state : RequestState) : state.Continues state := ⟨rfl, rfl, Iff.rfl⟩

theorem trans (h : state.Continues state') (h' : state'.Continues state'') :
    state.Continues state'' :=
  ⟨h'.tag_eq.trans h.tag_eq, h'.visible_eq.trans h.visible_eq,
    h'.finished_iff.trans h.finished_iff⟩

theorem id_eq (h : state.Continues state') : state'.requestId = state.requestId :=
  congrArg Tag.requestId h.tag_eq

end Continues

/-- What a request has in front of it. -/
structure Prospect where
  promptBlocks : List PrefixBlock
  promptTokens : ℕ
  cacheLookupDone : Bool
  missTokens : Option ℕ
  numComputedTokens : ℕ

def prospect (state : RequestState) : Prospect where
  promptBlocks := state.promptBlocks
  promptTokens := state.promptTokens
  cacheLookupDone := state.cacheLookupDone
  missTokens := state.missTokens
  numComputedTokens := state.numComputedTokens

/-- A request object goes on with all of it still in front of it; its KV load may have been
handed to a slice. -/
structure Rests (state state' : RequestState) : Prop extends Continues state state' where
  prospect_eq : state'.prospect = state.prospect
  load : state'.pendingLoad = state.pendingLoad ∨ state'.pendingLoad = (0, 0)

namespace Rests

variable {state state' state'' : RequestState}

theorem refl (state : RequestState) : state.Rests state := ⟨.refl _, rfl, .inl rfl⟩

theorem trans (h : state.Rests state') (h' : state'.Rests state'') : state.Rests state'' where
  toContinues := h.toContinues.trans h'.toContinues
  prospect_eq := h'.prospect_eq.trans h.prospect_eq
  load := by
    rcases h'.load with hload | hload
    · rw [hload]
      exact h.load
    · exact .inr hload

theorem done_eq (h : state.Rests state') : state'.cacheLookupDone = state.cacheLookupDone :=
  congrArg Prospect.cacheLookupDone h.prospect_eq

theorem miss_eq (h : state.Rests state') : state'.missTokens = state.missTokens :=
  congrArg Prospect.missTokens h.prospect_eq

theorem looked_up (h : state.Rests state') : state'.LookedUp ↔ state.LookedUp := by
  constructor
  · rintro ⟨hdone, hmiss⟩
    exact ⟨h.done_eq ▸ hdone, h.miss_eq ▸ hmiss⟩
  · rintro ⟨hdone, hmiss⟩
    exact ⟨h.done_eq.trans hdone, (congrArg Option.isSome h.miss_eq).trans hmiss⟩

theorem remaining_eq (h : state.Rests state') : state'.remaining = state.remaining :=
  congrArg (fun prospect ↦ prospect.promptTokens - prospect.numComputedTokens) h.prospect_eq

theorem load_eq (h : state.Rests state') (hload : state.pendingLoad = (0, 0)) :
    state'.pendingLoad = (0, 0) := by
  rcases h.load with heq | heq
  · rw [heq, hload]
  · exact heq

end Rests

end RequestState

namespace BatchAwareRequestMetrics

def tag (metric : BatchAwareRequestMetrics) : Tag where
  requestId := metric.requestId
  tenantId := metric.tenantId
  instanceUuid := metric.instanceUuid
  arrivalTimeMs := metric.arrivalTimeMs
  promptTokens := metric.promptTokens

def visible (metric : BatchAwareRequestMetrics) : ℕ × ℕ :=
  (metric.progressiveMaterializedBlocks, metric.progressiveMaterializedTokens)

end BatchAwareRequestMetrics

/-- A metric emitted for a request object: it is attributed to whatever request is
registered under the object's id. -/
structure Emits (requestsById : Dict String SimulationRequest) (state : RequestState)
    (metric : BatchAwareRequestMetrics) : Prop where
  registered : ∃ request, requestsById.lookup state.requestId = some request ∧
    metric.tag = request.tag
  visible_eq : metric.visible = state.visible

theorem Emits.congr {requestsById : Dict String SimulationRequest} {state state' : RequestState}
    {metric : BatchAwareRequestMetrics} (h : Emits requestsById state' metric)
    (hid : state'.requestId = state.requestId) (hvisible : state'.visible = state.visible) :
    Emits requestsById state metric :=
  ⟨hid ▸ h.registered, h.visible_eq.trans hvisible⟩

theorem Dict.getItem_ok {ν : Type} {dict : Dict String ν} {key : String} {value : ν}
    (h : dict.getItem key = .ok value) : dict.lookup key = some value := by
  unfold Dict.getItem at h
  split at h
  · rename_i hlookup
    cases h
    exact hlookup
  · cases h

theorem emits_of_build {requestsById : Dict String SimulationRequest}
    {request : SimulationRequest} {state : RequestState} {lookup : LookupMetrics}
    {metric : BatchAwareRequestMetrics}
    (hrequest : requestsById.lookup state.requestId = some request)
    (h : buildRequestMetrics request state lookup = .ok metric) :
    Emits requestsById state metric := by
  unfold buildRequestMetrics at h
  obtain ⟨firstMs, -, h⟩ := except_bind_ok.mp h
  obtain ⟨finishMs, -, h⟩ := except_bind_ok.mp h
  obtain ⟨composition, -, h⟩ := except_bind_ok.mp h
  cases h
  exact ⟨⟨request, hrequest, rfl⟩, rfl⟩

namespace Locals

/-- The requests that have arrived and have not left. -/
def active (locals : Locals) : List ℕ := locals.running ++ locals.waiting

/-- Queues, tables and metrics are as before, and every request object continues. -/
structure Steady (locals locals' : Locals) : Prop where
  waiting_eq : locals'.waiting = locals.waiting
  running_eq : locals'.running = locals.running
  states_eq : locals'.statesById = locals.statesById
  requests_eq : locals'.requestsById = locals.requestsById
  metrics_eq : locals'.requestMetrics = locals.requestMetrics
  iterations_eq : locals'.iterationMetrics = locals.iterationMetrics
  heap : ∀ ref, (locals.heap ref).Continues (locals'.heap ref)

theorem Steady.refl (locals : Locals) : locals.Steady locals :=
  ⟨rfl, rfl, rfl, rfl, rfl, rfl, fun _ ↦ .refl _⟩

theorem Steady.trans {locals locals' locals'' : Locals} (h : locals.Steady locals')
    (h' : locals'.Steady locals'') : locals.Steady locals'' where
  waiting_eq := h'.waiting_eq.trans h.waiting_eq
  running_eq := h'.running_eq.trans h.running_eq
  states_eq := h'.states_eq.trans h.states_eq
  requests_eq := h'.requests_eq.trans h.requests_eq
  metrics_eq := h'.metrics_eq.trans h.metrics_eq
  iterations_eq := h'.iterations_eq.trans h.iterations_eq
  heap ref := (h.heap ref).trans (h'.heap ref)

end Locals

/-- What is so of an object that changes and of objects that do not is so of all of them. -/
theorem Heap.related_update {R : RequestState → RequestState → Prop}
    (hrefl : ∀ state, R state state) {heap : Heap} {ref : ℕ} {state : RequestState}
    (h : R (heap ref) state) (other : ℕ) :
    R (heap other) (Function.update heap ref state other) := by
  rcases eq_or_ne other ref with rfl | hne
  · rwa [Function.update_self]
  · rw [Function.update_of_ne hne]
    exact hrefl _

/-- The same for what does not change at all. -/
theorem Heap.same_update {α : Type} (f : RequestState → α) {heap : Heap} {ref : ℕ}
    {state : RequestState} (h : f state = f (heap ref)) (other : ℕ) :
    f (Function.update heap ref state other) = f (heap other) :=
  related_update (R := fun state state' ↦ f state' = f state) (fun _ ↦ rfl) h other

theorem Heap.continues_update {heap : Heap} {ref : ℕ} {state : RequestState}
    (h : (heap ref).Continues state) :
    ∀ other, (heap other).Continues (Function.update heap ref state other) :=
  related_update .refl h

theorem Heap.rests_update {heap : Heap} {ref : ℕ} {state : RequestState}
    (h : (heap ref).Rests state) :
    ∀ other, (heap other).Rests (Function.update heap ref state other) :=
  related_update .refl h

end InferTwin
