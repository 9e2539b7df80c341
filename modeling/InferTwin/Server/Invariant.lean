import InferTwin.Server.Stages
import Mathlib.Data.List.Perm.Basic

namespace InferTwin

open Effect

variable {C K : Type}

/-- A request with its place in the order of arrival. -/
def Entry.ticket (entry : Entry) : SimulationRequest × ℕ := (entry.request, entry.seq)

def Job.ticket (job : Job) : SimulationRequest × ℕ := (job.request, job.seq)

@[simp] theorem Job.entry_ticket (job : Job) : job.entry.ticket = job.ticket := rfl

@[simp] theorem Entry.sitOut_ticket (mode : TimelineMode) (durationMs : ℚ) (entry : Entry) :
    (entry.sitOut mode durationMs).ticket = entry.ticket := by cases mode <;> rfl

@[simp] theorem Job.sitOut_ticket (mode : TimelineMode) (durationMs : ℚ) (job : Job) :
    (job.sitOut mode durationMs).ticket = job.ticket := by cases mode <;> rfl

@[simp] theorem Job.handOver_ticket (job : Job) : job.handOver.ticket = job.ticket := by
  simp [Job.handOver, Job.ticket, Job.seq]

@[simp] theorem Job.enter_ticket (nowMs : ℚ) (job : Job) : (job.enter nowMs).ticket = job.ticket :=
  rfl

def tickets (completed : List Completion) : List (SimulationRequest × ℕ) :=
  completed.map fun completion ↦ completion.1.ticket

@[simp] theorem tickets_nil : tickets [] = [] := rfl

@[simp] theorem tickets_cons (completion : Completion) (completed : List Completion) :
    tickets (completion :: completed) = completion.1.ticket :: tickets completed := rfl

@[simp] theorem tickets_append (completed completed' : List Completion) :
    tickets (completed ++ completed') = tickets completed ++ tickets completed' := by
  simp [tickets]

theorem Looks.ticket_eq {engine : Engine C K} {nowMs : ℚ} {entry : Entry} {job : Job}
    {world world' : World C K} (h : Looks engine nowMs entry world job world') :
    job.ticket = entry.ticket := Prod.ext h.request_eq h.seq_eq

theorem Job.complete_ticket {nowMs : ℚ} {job : Job} {completion : Completion}
    (h : job.complete nowMs = .ok completion) : completion.1.ticket = job.ticket := by
  simp only [Job.complete, except_bind_ok] at h
  obtain ⟨metric, -, h⟩ := h
  cases h
  rfl

/-- A scan deals with a front part of the waiting line and leaves the rest as it is. -/
theorem Scans.split {engine : Engine C K} {nowMs : ℚ} {tokenBudget seats : ℕ}
    {entries : List Entry} {scan : Scan} {world world' : World C K}
    (h : Scans engine nowMs tokenBudget seats entries world scan world') :
    ∃ dealt, entries.map Entry.ticket = dealt ++ scan.waiting.map Entry.ticket ∧
      (scan.admitted.map (·.1.ticket)).Sublist dealt ∧
      (tickets scan.completed ++ scan.admitted.map (·.1.ticket)).Perm dealt := by
  induction h with
  | nil => exact ⟨[], rfl, .slnil, .nil⟩
  | full => exact ⟨[], rfl, .slnil, .nil⟩
  | load hlook _ _ _ ih =>
    obtain ⟨dealt, he, hs, hp⟩ := ih
    refine ⟨_ :: dealt, congrArg (List.cons _) he, ?_, ?_⟩
    · rw [← hlook.ticket_eq]
      exact hs.cons_cons _
    · rw [← hlook.ticket_eq]
      exact List.perm_middle.trans (hp.cons _)
  | finish hlook _ _ hdone _ ih =>
    obtain ⟨dealt, he, hs, hp⟩ := ih
    refine ⟨_ :: dealt, congrArg (List.cons _) he, hs.cons _, ?_⟩
    rw [← hlook.ticket_eq, ← Job.complete_ticket hdone]
    exact hp.cons _
  | stop hlook => exact ⟨[], by simp [hlook.ticket_eq], .slnil, .nil⟩
  | enter hlook _ _ _ ih =>
    obtain ⟨dealt, he, hs, hp⟩ := ih
    refine ⟨_ :: dealt, congrArg (List.cons _) he, ?_, ?_⟩
    · rw [← hlook.ticket_eq]
      exact hs.cons_cons _
    · rw [← hlook.ticket_eq]
      exact List.perm_middle.trans (hp.cons _)

/-- Who is admitted, who is finished, and who goes on waiting after a scan. -/
theorem Scans.stages {engine : Engine C K} {nowMs lostMs : ℚ} {tokenBudget seats : ℕ}
    {entries : List Entry} {scan : Scan} {world world' : World C K}
    (h : Scans engine nowMs tokenBudget seats entries world scan world')
    (hw : ∀ entry ∈ entries, entry.Waiting engine.timelineMode nowMs lostMs) :
    (∀ admitted ∈ scan.admitted, admitted.1.Ready engine.timelineMode nowMs lostMs) ∧
      (∀ completion ∈ scan.completed,
        completion.1.Finished engine.timelineMode nowMs lostMs completion.2) ∧
      ∀ entry ∈ scan.waiting, entry.Waiting engine.timelineMode nowMs lostMs := by
  induction h with
  | nil => simp
  | full => exact ⟨by simp, by simp, hw⟩
  | load hlook _ _ _ ih =>
    obtain ⟨ha, hc, hrest⟩ := ih (List.forall_mem_of_forall_mem_cons hw)
    exact ⟨List.forall_mem_cons.mpr ⟨(hw _ (List.mem_cons_self ..)).look hlook, ha⟩, hc, hrest⟩
  | finish hlook hr hload hdone _ ih =>
    obtain ⟨ha, hc, hrest⟩ := ih (List.forall_mem_of_forall_mem_cons hw)
    have hready := (hw _ (List.mem_cons_self ..)).look hlook
    exact ⟨ha, List.forall_mem_cons.mpr ⟨hready.complete hr hload hdone, hc⟩, hrest⟩
  | stop hlook hr =>
    refine ⟨by simp, by simp, List.forall_mem_cons.mpr ⟨?_, List.forall_mem_of_forall_mem_cons hw⟩⟩
    exact (hw _ (List.mem_cons_self ..)).keep hlook hr
  | enter hlook _ _ _ ih =>
    obtain ⟨ha, hc, hrest⟩ := ih (List.forall_mem_of_forall_mem_cons hw)
    exact ⟨List.forall_mem_cons.mpr ⟨(hw _ (List.mem_cons_self ..)).look hlook, ha⟩, hc, hrest⟩

/-- The tokens of an admitted request fit, and it has something to do. -/
theorem Scans.planned {engine : Engine C K} {nowMs : ℚ} {tokenBudget seats : ℕ}
    {entries : List Entry} {scan : Scan} {world world' : World C K}
    (h : Scans engine nowMs tokenBudget seats entries world scan world') :
    ∀ admitted ∈ scan.admitted, admitted.2 ≤ admitted.1.state.remaining ∧
      admitted.2 ≤ engine.config.perRequestChunkLimit ∧
      (admitted.2 ≠ 0 ∨ admitted.1.state.remaining = 0 ∧ admitted.1.state.pendingLoad ≠ (0, 0)) := by
  induction h with
  | nil => simp
  | full => simp
  | load _ hr hload _ ih =>
    exact List.forall_mem_cons.mpr ⟨⟨Nat.zero_le _, Nat.zero_le _, .inr ⟨hr, hload⟩⟩, ih⟩
  | finish _ _ _ _ _ ih => exact ih
  | stop => simp
  | enter _ _ hg _ ih =>
    exact List.forall_mem_cons.mpr ⟨⟨engine.config.grant_le_remaining _ _,
      engine.config.grant_le_limit _ _, .inl hg⟩, ih⟩

/-- At most the first of those left waiting has been looked up. -/
theorem Scans.tail_fresh {engine : Engine C K} {nowMs : ℚ} {tokenBudget seats : ℕ}
    {entries : List Entry} {scan : Scan} {world world' : World C K}
    (h : Scans engine nowMs tokenBudget seats entries world scan world')
    (ht : ∀ entry ∈ entries.tail, entry.lookup = none) :
    ∀ entry ∈ scan.waiting.tail, entry.lookup = none := by
  have hrest : ∀ {entries : List Entry}, (∀ entry ∈ entries, entry.lookup = none) →
      ∀ entry ∈ entries.tail, entry.lookup = none :=
    fun hf entry he ↦ hf entry (List.mem_of_mem_tail he)
  induction h with
  | nil => simp
  | full => exact ht
  | load _ _ _ _ ih => exact ih (hrest ht)
  | finish _ _ _ _ _ ih => exact ih (hrest ht)
  | stop => exact ht
  | enter _ _ _ _ ih => exact ih (hrest ht)

/-- With chunking disabled an admitted request is given everything it lacks. -/
theorem Scans.whole {engine : Engine C K} {nowMs : ℚ} {tokenBudget seats : ℕ}
    {entries : List Entry} {scan : Scan} {world world' : World C K}
    (h : Scans engine nowMs tokenBudget seats entries world scan world')
    (hc : engine.config.enableChunkedPrefill = false)
    (hb : tokenBudget ≤ engine.config.maxNumBatchedTokens) :
    ∀ admitted ∈ scan.admitted, admitted.2 = admitted.1.state.remaining := by
  induction h with
  | nil => simp
  | full => simp
  | load _ hr _ _ ih => exact List.forall_mem_cons.mpr ⟨hr.symm, ih hb⟩
  | finish _ _ _ _ _ ih => exact ih hb
  | stop => simp
  | enter _ _ hg _ ih =>
    refine List.forall_mem_cons.mpr ⟨?_, ih ((Nat.sub_le _ _).trans hb)⟩
    rw [engine.config.grant_unchunked hc hb] at hg ⊢
    split_ifs at hg ⊢ with hlt
    · exact absurd rfl hg
    · rfl

/-- A scan spends no more tokens and seats than it is given. -/
theorem Scans.budget {engine : Engine C K} {nowMs : ℚ} {tokenBudget seats : ℕ}
    {entries : List Entry} {scan : Scan} {world world' : World C K}
    (h : Scans engine nowMs tokenBudget seats entries world scan world') :
    grantedTokens scan.admitted ≤ tokenBudget ∧ scan.admitted.length ≤ seats := by
  induction h with
  | nil => simp [grantedTokens]
  | full => simp [grantedTokens]
  | load _ _ _ _ ih => simpa [grantedTokens] using ih
  | finish _ _ _ _ _ ih => exact ih
  | stop => simp [grantedTokens]
  | @enter tokenBudget _ _ _ _ job _ _ _ _ _ _ _ ih =>
    have hle := engine.config.grant_le_budget job.state.remaining tokenBudget
    simp only [grantedTokens, List.map_cons, List.sum_cons, List.length_cons] at ih ⊢
    omega

end InferTwin
