import InferTwin.Server.Failure
import InferTwin.Server.Timeline

namespace InferTwin

open Effect

variable {C K : Type} {engine : Engine C K} {requests : List SimulationRequest}

theorem replay_fuel_perm {requests' : List SimulationRequest} (h : requests.Perm requests') :
    replayFuel requests = replayFuel requests' := by
  unfold replayFuel pendingWork
  rw [(h.map _).sum_eq]

/-- How the replay of an instance ends, and that `P` held of the last session it came to. -/
inductive Ends (engine : Engine C K) (instanceUuid : String) (requests : List SimulationRequest)
    (P : Session → World C K → Prop) (world : World C K) :
    EStateM.Result ReplayError (World C K) (Option Session) → Prop
  | nothing (h : requests = []) : Ends engine instanceUuid requests P world (.ok none world)
  | refused (h : requests ≠ []) (huuid : instanceUuid = "") :
      Ends engine instanceUuid requests P world (.error .transferInstanceRequired world)
  | served {session world₁} (hwf : session.Wf engine.config engine.timelineMode requests)
      (hp : P session world₁) (hpending : session.pending = []) (hidle : session.Idle) :
      Ends engine instanceUuid requests P world (.ok (some session) (engine.drained world₁))
  | failed {session world₁ e world'}
      (hwf : session.Wf engine.config engine.timelineMode requests) (hp : P session world₁)
      (hpass : engine.pass instanceUuid session world₁ = .error e world') :
      Ends engine instanceUuid requests P world (.error e world')

/-- What holds at the start of a replay and is kept by its passes holds at its end. -/
theorem serve_instance_ends {instanceUuid : String} {fuel : ℕ} {world : World C K}
    {P : Session → World C K → Prop} (hd : (requests.map SimulationRequest.requestId).Nodup)
    (hf : replayFuel requests ≤ fuel)
    (hstart : ∀ request pending, requests = request :: pending → instanceUuid ≠ "" →
      P (Session.start { instanceUuid } request pending) world)
    (hstep : ∀ session world flow world',
      session.Wf engine.config engine.timelineMode requests → P session world →
      Passes engine instanceUuid session world flow world' → P flow.state world') :
    Ends engine instanceUuid requests P world
      (engine.serveInstance instanceUuid fuel requests world) := by
  have hkept : ∀ session world flow world',
      session.Wf engine.config engine.timelineMode requests ∧ P session world →
      Passes engine instanceUuid session world flow world' →
      flow.state.Wf engine.config engine.timelineMode requests ∧ P flow.state world' :=
    fun _ _ _ _ h hpass ↦ ⟨hpass.wf h.1, hstep _ _ _ _ h.1 h.2 hpass⟩
  cases requests with
  | nil => exact .nothing rfl
  | cons request pending =>
    by_cases huuid : instanceUuid = ""
    · have hcreate : SharedLinkFIFOTransferQueue.create instanceUuid =
          .error .transferInstanceRequired := if_pos huuid
      rw [Engine.serveInstance, hcreate]
      exact .refused (by simp) huuid
    have hcreate : SharedLinkFIFOTransferQueue.create instanceUuid = .ok { instanceUuid } :=
      if_neg huuid
    have hwf := Session.start_wf engine.config engine.timelineMode { instanceUuid } hd
    have hp := hstart request pending rfl huuid
    rw [Engine.serveInstance, hcreate, check_ok_bind]
    cases hserve : engine.serveAll instanceUuid fuel (Session.start { instanceUuid } request pending)
      world with
    | ok session world₁ =>
      obtain ⟨hwf', hp'⟩ := serve_all_induction (P := fun session world ↦
        session.Wf engine.config engine.timelineMode (request :: pending) ∧ P session world)
        hkept ⟨hwf, hp⟩ hserve
      obtain ⟨hpending, hidle⟩ := serve_all_idle hserve
      rw [bind_apply, hserve]
      exact .served hwf' hp' hpending hidle
    | error e world' =>
      have hlt := Session.start_potential { instanceUuid } request pending
      obtain ⟨last, hreach, hpass⟩ := serve_all_error hwf (hlt.trans_le hf) hserve
      obtain ⟨hwf', hp'⟩ := steps_induction (P := fun session world ↦
        session.Wf engine.config engine.timelineMode (request :: pending) ∧ P session world)
        hkept hreach ⟨hwf, hp⟩
      rw [bind_apply, hserve]
      exact .failed hwf' hp' hpass

/-- Whatever ends a replay that was given enough passes, it is not the bound on them. -/
theorem serve_instance_error (engine : Engine C K) {instanceUuid : String} {fuel : ℕ}
    {world world' : World C K} {e : ReplayError}
    (hd : (requests.map SimulationRequest.requestId).Nodup) (hf : replayFuel requests ≤ fuel)
    (h : engine.serveInstance instanceUuid fuel requests world = .error e world') :
    e.origin ≠ .fuel ∧ e.origin ≠ .internal ∧ e.origin ≠ .source := by
  have hends : Ends engine instanceUuid requests (fun _ _ ↦ True) world
      (engine.serveInstance instanceUuid fuel requests world) :=
    serve_instance_ends hd hf (fun _ _ _ _ ↦ trivial) fun _ _ _ _ _ _ _ ↦ trivial
  rw [h] at hends
  cases hends with
  | refused => decide
  | failed hwf _ hpass =>
    have horigin := (fails_of_pass hwf hpass).origin hwf
    refine ⟨?_, ?_, ?_⟩ <;>
    · intro he
      rw [he] at horigin
      revert horigin
      decide

end InferTwin
