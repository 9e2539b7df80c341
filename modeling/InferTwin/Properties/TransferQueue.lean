import InferTwin.Foundation.Effect
import InferTwin.Foundation.Lindley
import InferTwin.Replay.KvTransfer
import Mathlib.Tactic.Ring

namespace InferTwin

open Effect

/-- A submitted transfer with its result. -/
abbrev Transfer := KVTransferRequest × KVTransferResult

namespace SharedLinkFIFOTransferQueue

/-- Submit one transfer after the other. -/
def submitAll (queue : SharedLinkFIFOTransferQueue) : List KVTransferRequest →
    Except ReplayError (List KVTransferResult × SharedLinkFIFOTransferQueue)
  | [] => .ok ([], queue)
  | request :: requests => do
    let (result, queue) ← queue.submit request
    let (results, queue) ← submitAll queue requests
    return (result :: results, queue)

end SharedLinkFIFOTransferQueue

def KVTransferRequest.job (request : KVTransferRequest) : ℚ × ℚ :=
  (request.readyTimeMs, request.transferMs)

/-- The jobs of the link, in the order of their submission. -/
def jobs (history : List Transfer) : List (ℚ × ℚ) := history.map fun served ↦ served.1.job

/-- Whether a transfer of positive length is still under way after `t`. -/
def Transfer.pendingAfter (t : ℚ) (served : Transfer) : Bool :=
  served.1.transferMs > 0 && served.2.finishTimeMs > t

/-- What the result of a submission says, after the submissions before it. -/
structure Transfer.Served (before : List Transfer) (served : Transfer) : Prop where
  start_eq : served.2.startTimeMs =
    max served.1.readyTimeMs (Lindley.completion 0 (jobs before))
  finish_eq : served.2.finishTimeMs = served.2.startTimeMs + served.1.transferMs
  wait_eq : served.2.queueWaitMs = served.2.startTimeMs - served.1.readyTimeMs
  elapsed_eq : served.2.elapsedMs = served.2.finishTimeMs - served.1.readyTimeMs
  depth_eq : served.2.queueDepthBefore = before.countP (Transfer.pendingAfter served.1.readyTimeMs)

/-- A link and the transfers that were submitted to it. The completed ones may be pruned:
what is left tells how many are under way at any time from the last ready time on. -/
structure SharedLinkFIFOTransferQueue.Tracks (queue : SharedLinkFIFOTransferQueue)
    (history : List Transfer) : Prop where
  next_eq : queue.nextAvailableTimeMs = Lindley.completion 0 (jobs history)
  served : ∀ before served after, history = before ++ served :: after →
    Transfer.Served before served
  depth : ∀ t, (∀ served ∈ history, served.1.readyTimeMs ≤ t) →
    queue.unfinishedFinishTimes.countP (fun finish ↦ finish > t) =
      history.countP (Transfer.pendingAfter t)

theorem append_eq_concat {α : Type} {before after history : List α} {item new : α}
    (h : history ++ [new] = before ++ item :: after) :
    before = history ∧ item = new ∨ ∃ after', history = before ++ item :: after' := by
  rcases List.eq_nil_or_concat after with rfl | ⟨after', last, rfl⟩
  · obtain ⟨hb, hi⟩ := List.append_inj' h rfl
    exact .inl ⟨hb.symm, (List.singleton_inj.mp hi).symm⟩
  · rw [List.concat_eq_append, ← List.cons_append, ← List.append_assoc] at h
    exact .inr ⟨after', (List.append_inj' h rfl).1⟩

namespace SharedLinkFIFOTransferQueue.Tracks

variable {queue queue' : SharedLinkFIFOTransferQueue} {history : List Transfer}

theorem fresh (instanceUuid : String) : Tracks { instanceUuid } [] where
  next_eq := rfl
  served before served after h := by simp at h
  depth _ _ := rfl

/-- One more submission. -/
theorem submit (h : queue.Tracks history) {request : KVTransferRequest}
    (hready : ∀ served ∈ history, served.1.readyTimeMs ≤ request.readyTimeMs)
    (huuid : request.instanceUuid = queue.instanceUuid) :
    ∃ result queue', queue.submit request = .ok (result, queue') ∧
      queue'.instanceUuid = queue.instanceUuid ∧ queue'.Tracks (history ++ [(request, result)]) := by
  have hdepth := h.depth request.readyTimeMs hready
  unfold SharedLinkFIFOTransferQueue.submit
  rw [if_neg (not_not.mpr huuid)]
  refine ⟨_, _, rfl, rfl, ?_, ?_, ?_⟩
  · simp only [pruneCompleted, jobs, List.map_append, List.map_cons, List.map_nil,
      Lindley.completion_concat]
    rw [h.next_eq]
    rfl
  · intro before served after he
    rcases append_eq_concat he with ⟨rfl, rfl⟩ | ⟨after', he⟩
    · refine ⟨?_, rfl, rfl, rfl, ?_⟩
      · simp only [pruneCompleted]
        rw [h.next_eq]
      · simp only [pruneCompleted]
        rw [← hdepth, List.countP_eq_length_filter]
    · exact h.served before served after' he
  · intro t ht
    have htime : request.readyTimeMs ≤ t :=
      ht _ (List.mem_append_right _ (List.mem_singleton_self _))
    have hold := h.depth t fun served hs ↦ ht served (by simp [hs])
    -- what was pruned before the submission is not under way at `t` either
    have hpruned : (queue.unfinishedFinishTimes.filter fun finish ↦
        finish > request.readyTimeMs).countP (fun finish ↦ finish > t) =
          queue.unfinishedFinishTimes.countP fun finish ↦ finish > t := by
      rw [List.countP_filter]
      refine List.countP_congr fun finish _ ↦ ?_
      simp only [gt_iff_lt, Bool.and_eq_true, decide_eq_true_eq, and_iff_left_iff_imp]
      exact fun hlt ↦ htime.trans_lt hlt
    simp only [pruneCompleted, List.countP_append, ← hold, List.countP_singleton,
      Transfer.pendingAfter]
    by_cases hwork : request.transferMs > 0
    · rw [if_pos hwork, List.countP_append, hpruned]
      simp [hwork]
    · rw [if_neg hwork, hpruned]
      simp [hwork]

/-- Any number of submissions in the order of their ready times. -/
theorem submit_all (h : queue.Tracks history) {requests : List KVTransferRequest}
    (hready : ∀ served ∈ history, ∀ request ∈ requests,
      served.1.readyTimeMs ≤ request.readyTimeMs)
    (hordered : requests.Pairwise fun a b ↦ a.readyTimeMs ≤ b.readyTimeMs)
    (huuid : ∀ request ∈ requests, request.instanceUuid = queue.instanceUuid) :
    ∃ results queue', queue.submitAll requests = .ok (results, queue') ∧
      results.length = requests.length ∧ queue'.Tracks (history ++ requests.zip results) := by
  induction requests generalizing queue history with
  | nil => exact ⟨[], queue, rfl, rfl, by simpa using h⟩
  | cons request requests ih =>
    obtain ⟨hfirst, hrest⟩ := List.pairwise_cons.mp hordered
    obtain ⟨result, queue₁, hsubmit, huuid₁, h₁⟩ := h.submit
      (fun served hs ↦ hready served hs request (List.mem_cons_self ..))
      (huuid request (List.mem_cons_self ..))
    obtain ⟨results, queue₂, hall, hlength, h₂⟩ := ih h₁ (fun served hs other ho ↦ by
        rcases List.mem_append.mp hs with hs | hs
        · exact hready served hs other (List.mem_cons_of_mem _ ho)
        · rw [List.mem_singleton.mp hs]
          exact hfirst other ho) hrest
      (fun other ho ↦ (huuid other (List.mem_cons_of_mem _ ho)).trans huuid₁.symm)
    refine ⟨result :: results, queue₂, ?_, by simp [hlength], ?_⟩
    · simp only [submitAll, hsubmit, except_ok_bind, hall]
      rfl
    · simpa using h₂

end SharedLinkFIFOTransferQueue.Tracks

/-- The FIFO equations of a link, about each transfer with those submitted before it. -/
structure FollowsLindley (history : List Transfer) : Prop where
  finish : ∀ before served after, history = before ++ served :: after →
    IsGreatest {t | ∃ skipped first rest, before ++ [served] = skipped ++ first :: rest ∧
      t = first.1.readyTimeMs + ((first :: rest).map fun other ↦ other.1.transferMs).sum}
      served.2.finishTimeMs
  disjoint : history.Pairwise fun served later ↦ served.2.finishTimeMs ≤ later.2.startTimeMs
  forward : ∀ served ∈ history, served.2.startTimeMs ≤ served.2.finishTimeMs
  busy : ∀ served ∈ history, ∀ t, served.1.readyTimeMs ≤ t → t < served.2.finishTimeMs →
    ∃ other ∈ history, other.2.startTimeMs ≤ t ∧ t < other.2.finishTimeMs
  elapsed : ∀ served ∈ history,
    served.2.queueWaitMs + served.1.transferMs = served.2.elapsedMs ∧
      served.2.elapsedMs = served.2.finishTimeMs - served.1.readyTimeMs ∧
      served.1.transferMs ≤ served.2.elapsedMs
  depth : ∀ before served after, history = before ++ served :: after →
    served.2.queueDepthBefore = before.countP fun earlier ↦
      earlier.1.transferMs > 0 && earlier.2.finishTimeMs > served.1.readyTimeMs

theorem Transfer.Served.completion_eq {before : List Transfer} {served : Transfer}
    (h : Transfer.Served before served) :
    served.2.finishTimeMs = Lindley.completion 0 (jobs (before ++ [served])) := by
  have hjobs : jobs (before ++ [served]) = jobs before ++ [served.1.job] := List.map_append
  rw [h.finish_eq, h.start_eq, hjobs, Lindley.completion_concat]
  rfl

/-- The chains of a link are those of its jobs. -/
theorem chain_iff {history : List Transfer} {t : ℚ} : Lindley.Chain (jobs history) t ↔
    ∃ skipped first rest, history = skipped ++ first :: rest ∧
      t = first.1.readyTimeMs + ((first :: rest).map fun other ↦ other.1.transferMs).sum := by
  constructor
  · rintro ⟨skipped, first, rest, he, rfl⟩
    obtain ⟨skipped, others, rfl, rfl, hothers⟩ := List.map_eq_append_iff.mp he
    obtain ⟨first, rest, rfl, rfl, rfl⟩ := List.map_eq_cons_iff.mp hothers
    refine ⟨skipped, first, rest, rfl, ?_⟩
    simp [KVTransferRequest.job, Function.comp_def]
  · rintro ⟨skipped, first, rest, rfl, rfl⟩
    refine ⟨jobs skipped, first.1.job, jobs rest, by simp [jobs], ?_⟩
    simp [jobs, KVTransferRequest.job, Function.comp_def]

/-- What holds of each item and all those before it holds pairwise. -/
theorem pairwise_of_splits {α : Type} {R : α → α → Prop} {items : List α}
    (h : ∀ before item after, items = before ++ item :: after → ∀ earlier ∈ before, R earlier item) :
    items.Pairwise R := by
  induction items using List.reverseRecOn with
  | nil => exact .nil
  | append_singleton items item ih =>
    refine List.pairwise_append.mpr ⟨ih ?_, List.pairwise_singleton _ _, ?_⟩
    · rintro before other after rfl
      exact h before other (after ++ [item]) (by simp)
    · intro earlier he last hl
      rw [List.mem_singleton.mp hl]
      exact h items item [] rfl earlier he

theorem SharedLinkFIFOTransferQueue.Tracks.follows {queue : SharedLinkFIFOTransferQueue}
    {history : List Transfer} (h : queue.Tracks history)
    (hordered : history.Pairwise fun a b ↦ a.1.readyTimeMs ≤ b.1.readyTimeMs) :
    FollowsLindley history := by
  have hnonneg : ∀ (history : List Transfer), ∀ job ∈ jobs history, (0 : ℚ) ≤ job.1 := by
    intro history job hj
    obtain ⟨served, -, rfl⟩ := List.mem_map.mp hj
    exact served.1.ready_nonneg
  have hwork : ∀ (history : List Transfer), ∀ job ∈ jobs history, (0 : ℚ) ≤ job.2 := by
    intro history job hj
    obtain ⟨served, -, rfl⟩ := List.mem_map.mp hj
    exact served.1.transfer_nonneg
  have hforward : ∀ served ∈ history, served.2.startTimeMs ≤ served.2.finishTimeMs :=
    fun served _ ↦ served.2.start_le_finish
  constructor
  · intro before served after he
    have hgreatest := Lindley.completion_greatest (by simp [jobs]) (hnonneg (before ++ [served]))
    rw [(h.served before served after he).completion_eq]
    simpa only [chain_iff] using hgreatest
  · refine pairwise_of_splits ?_
    intro before served after he earlier hearlier
    obtain ⟨first, rest, rfl⟩ := List.append_of_mem hearlier
    have hfinish := (h.served first earlier (rest ++ served :: after) (by simp [he])).completion_eq
    have hmore := Lindley.completion_le_append 0 (jobs (first ++ [earlier])) (hwork rest)
    have hjobs : jobs (first ++ [earlier]) ++ jobs rest = jobs (first ++ earlier :: rest) := by
      simp [jobs]
    rw [hfinish, (h.served _ served after he).start_eq, ← hjobs]
    exact hmore.trans (le_max_right _ _)
  · exact hforward
  · intro served hs t hready ht
    obtain ⟨before, after, he⟩ := List.append_of_mem hs
    rw [(h.served before served after he).completion_eq] at ht
    have hearlier : ∀ job ∈ jobs (before ++ [served]), job.1 ≤ t := by
      intro job hj
      obtain ⟨other, ho, rfl⟩ := List.mem_map.mp hj
      refine le_trans ?_ hready
      rcases List.mem_append.mp ho with ho | ho
      · rw [he] at hordered
        exact (List.pairwise_append.mp hordered).2.2 other ho served (List.mem_cons_self ..)
      · rw [List.mem_singleton.mp ho]
        exact le_rfl
    obtain ⟨first, job, rest, hjobs, hstart, hend⟩ := Lindley.busy_until hearlier ht
      (served.1.ready_nonneg.trans hready)
    obtain ⟨first, others, hsplit, rfl, hothers⟩ := List.map_eq_append_iff.mp hjobs
    obtain ⟨other, rest, rfl, rfl, rfl⟩ := List.map_eq_cons_iff.mp hothers
    have hhistory : history = first ++ other :: (rest ++ after) := by
      rw [he, ← List.singleton_append, ← List.append_assoc, hsplit]
      simp
    have hother := h.served first other (rest ++ after) hhistory
    refine ⟨other, by simp [hhistory], ?_, ?_⟩
    · rw [hother.start_eq]
      exact hstart
    · rw [hother.finish_eq, hother.start_eq]
      exact hend
  · intro served hs
    obtain ⟨before, after, he⟩ := List.append_of_mem hs
    have hserved := h.served before served after he
    have hle : served.1.readyTimeMs ≤ served.2.startTimeMs := hserved.start_eq ▸ le_max_left _ _
    refine ⟨?_, hserved.elapsed_eq, ?_⟩
    · rw [hserved.wait_eq, hserved.elapsed_eq, hserved.finish_eq]
      ring
    · rw [hserved.elapsed_eq, hserved.finish_eq]
      linarith
  · exact fun before served after he ↦ (h.served before served after he).depth_eq

/-- Any number of transfers, submitted to a fresh link in the order of their ready times,
are all accepted and follow the FIFO equations. -/
theorem transfer_queue_lindley (instanceUuid : String) {requests : List KVTransferRequest}
    (hordered : requests.Pairwise fun a b ↦ a.readyTimeMs ≤ b.readyTimeMs)
    (huuid : ∀ request ∈ requests, request.instanceUuid = instanceUuid) :
    ∃ results queue, SharedLinkFIFOTransferQueue.submitAll { instanceUuid } requests =
        .ok (results, queue) ∧
      results.length = requests.length ∧ FollowsLindley (requests.zip results) := by
  obtain ⟨results, queue, hall, hlength, htracks⟩ :=
    (SharedLinkFIFOTransferQueue.Tracks.fresh instanceUuid).submit_all (by simp) hordered huuid
  refine ⟨results, queue, hall, hlength, htracks.follows ?_⟩
  have hrequests : (requests.zip results).map Prod.fst = requests :=
    List.map_fst_zip hlength.ge
  rw [← hrequests, List.pairwise_map] at hordered
  exact hordered

/-- A transfer of 3 ms, one of no length and one of 2 ms that becomes ready as the first ends. -/
def Sample.transfers : List KVTransferRequest :=
  [(0, 3), (1, 0), (3, 2)].map fun times : ℕ × ℕ ↦ {
    requestId := "request"
    instanceUuid := "instance"
    readyTimeMs := times.1
    transferMs := times.2
    request_id_required := by decide
    instance_uuid_required := by decide
    ready_nonneg := Nat.cast_nonneg _
    transfer_nonneg := Nat.cast_nonneg _ }

theorem transfer_queue_lindley_three :
    ∃ results queue, SharedLinkFIFOTransferQueue.submitAll { instanceUuid := "instance" }
        Sample.transfers = .ok (results, queue) ∧
      results.length = Sample.transfers.length ∧
      FollowsLindley (Sample.transfers.zip results) :=
  transfer_queue_lindley "instance" (by decide +kernel) (by decide +kernel)

end InferTwin
