import InferTwin.Foundation.Effect

/-! Objects that report what happens to them in a buffer of events, which is drained from time to
time. -/

namespace InferTwin.EventLog

open Effect

variable {V E ι ε σ : Type}

/-- Each event of a log tells the truth, on the view that the events before it leave. -/
def Faithful (apply : V → E → V) (Reports : V → E → Prop) : V → List E → Prop
  | _, [] => True
  | view, event :: events => Reports view event ∧ Faithful apply Reports (apply view event) events

theorem faithful_append {apply : V → E → V} {Reports : V → E → Prop} {view : V}
    {events events' : List E} :
    Faithful apply Reports view (events ++ events') ↔
      Faithful apply Reports view events ∧
        Faithful apply Reports (events.foldl apply view) events' := by
  induction events generalizing view with
  | nil => exact ⟨fun h ↦ ⟨trivial, h⟩, And.right⟩
  | cons event events ih =>
    rw [List.cons_append, Faithful, Faithful, ih, and_assoc]
    rfl

/-- An object that reports its calls. A call returns what it has drained; the buffer is set with
`put`, and nothing that the object does depends on it. -/
structure Reporter (V E ι ε σ : Type) where
  apply : V → E → V
  Reports : V → E → Prop
  call : ι → EStateM ε σ (List E)
  isDrain : ι → Bool
  put : List E → σ → σ
  view : σ → V
  Valid : σ → Prop
  drains : ∀ op, isDrain op = true → ∀ s, Valid s → ∀ events,
    call op (put events s) = .ok events (put [] s)
  logs : ∀ op, isDrain op = false → ∀ s, Valid s → ∃ s' log, Valid s' ∧
    Faithful apply Reports (view s) log ∧ log.foldl apply (view s) = view s' ∧
      ∀ events, call op (put events s) = .ok [] (put (events ++ log) s')
  put_inj : ∀ events events' s s', put events s = put events' s' →
    events = events' ∧ view s = view s'

namespace Reporter

variable (reporter : Reporter V E ι ε σ)

/-- The calls that do not drain. -/
def plain (ops : List ι) : List ι := ops.filter fun op ↦ !reporter.isDrain op

/-- A run leaves a faithful log of its plain calls, part of it drained, the rest in the buffer. -/
theorem run_logs (ops : List ι) {s : σ} (h : reporter.Valid s) :
    ∃ s' log, reporter.Valid s' ∧ Faithful reporter.apply reporter.Reports (reporter.view s) log ∧
      log.foldl reporter.apply (reporter.view s) = reporter.view s' ∧ ∀ events,
        (∃ drained rest, calls reporter.call ops (reporter.put events s) =
          .ok drained (reporter.put rest s') ∧ drained.flatten ++ rest = events ++ log) ∧
        ∃ silent, calls reporter.call (reporter.plain ops) (reporter.put events s) =
          .ok silent (reporter.put (events ++ log) s') := by
  induction ops generalizing s with
  | nil =>
    refine ⟨s, [], h, trivial, rfl, fun events ↦ ⟨⟨[], events, rfl, ?_⟩, [], ?_⟩⟩
    · rw [List.flatten_nil, List.nil_append, List.append_nil]
    · rw [List.append_nil]
      rfl
  | cons op ops ih =>
    cases hop : reporter.isDrain op with
    | true =>
      obtain ⟨s', log, h', hfaithful, hfold, hrun⟩ := ih h
      refine ⟨s', log, h', hfaithful, hfold, fun events ↦ ⟨?_, ?_⟩⟩
      · obtain ⟨⟨drained, rest, hcalls, hlog⟩, -⟩ := hrun []
        refine ⟨events :: drained, rest, ?_, ?_⟩
        · unfold calls
          simp only [bind_apply, reporter.drains op hop s h, hcalls]
          rfl
        · rw [List.flatten_cons, List.append_assoc, hlog, List.nil_append]
      · rw [plain, List.filter_cons, hop]
        exact (hrun events).2
    | false =>
      obtain ⟨s₁, log₁, h₁, hfaithful₁, hfold₁, hcall⟩ := reporter.logs op hop s h
      obtain ⟨s', log, h', hfaithful, hfold, hrun⟩ := ih h₁
      refine ⟨s', log₁ ++ log, h', ?_, ?_, fun events ↦ ⟨?_, ?_⟩⟩
      · exact faithful_append.mpr ⟨hfaithful₁, hfold₁ ▸ hfaithful⟩
      · rw [List.foldl_append, hfold₁, hfold]
      · obtain ⟨⟨drained, rest, hcalls, hlog⟩, -⟩ := hrun (events ++ log₁)
        refine ⟨[] :: drained, rest, ?_, ?_⟩
        · unfold calls
          simp only [bind_apply, hcall, hcalls]
          rfl
        · rw [List.flatten_cons, List.nil_append, hlog, List.append_assoc]
      · obtain ⟨-, silent, hsilent⟩ := hrun (events ++ log₁)
        refine ⟨[] :: silent, ?_⟩
        rw [plain, List.filter_cons, hop]
        simp only [Bool.not_false, if_true]
        unfold calls
        rw [plain] at hsilent
        simp only [bind_apply, hcall, hsilent, List.append_assoc]
        rfl

/-- However the drains are placed among them, some calls leave one log: what is drained in the end
is the whole of it, and it shows what the object holds then. -/
theorem one_log (ops : List ι) {s : σ} (h : reporter.Valid s) :
    ∃ log, Faithful reporter.apply reporter.Reports (reporter.view s) log ∧
      ∀ ops', reporter.plain ops' = reporter.plain ops →
        ∀ drain, reporter.isDrain drain = true → ∃ drained s',
          calls reporter.call (ops' ++ [drain]) (reporter.put [] s) =
            .ok drained (reporter.put [] s') ∧ drained.flatten = log ∧
          log.foldl reporter.apply (reporter.view s) = reporter.view s' := by
  obtain ⟨s₀, log, -, hfaithful, -, hrun₀⟩ := reporter.run_logs ops h
  refine ⟨log, hfaithful, fun ops' hplain drain hdrain ↦ ?_⟩
  obtain ⟨s', log', h', -, hfold, hrun⟩ := reporter.run_logs ops' h
  obtain ⟨⟨drained, rest, hcalls, hlog⟩, silent, hsilent⟩ := hrun []
  obtain ⟨-, silent₀, hsilent₀⟩ := hrun₀ []
  have hsame : log' = log := by
    rw [hplain, hsilent₀] at hsilent
    have hstate := (EStateM.Result.ok.inj hsilent).2
    exact (reporter.put_inj _ _ _ _ hstate).1.symm
  refine ⟨drained ++ [rest], s', ?_, ?_, hsame ▸ hfold⟩
  · exact calls_concat hcalls (reporter.drains drain hdrain s' h' rest)
  · rw [List.flatten_append, List.flatten_singleton, hlog, hsame, List.nil_append]

end Reporter

end InferTwin.EventLog
