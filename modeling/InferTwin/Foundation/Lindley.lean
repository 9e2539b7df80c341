import Mathlib.Algebra.Order.Group.Defs
import Mathlib.Algebra.BigOperators.Group.List.Defs
import Mathlib.Data.List.Induction
import Mathlib.Order.Bounds.Basic

/-! A single server that takes its jobs in the order in which they are submitted. A job is
the time at which it is ready and the time it takes. -/

namespace InferTwin.Lindley

variable {α : Type*} [AddCommGroup α]

/-- The jobs from some job on, done without a pause from the time it is ready, are done at
this time. -/
def Chain (jobs : List (α × α)) (t : α) : Prop :=
  ∃ skipped first rest, jobs = skipped ++ first :: rest ∧
    t = first.1 + ((first :: rest).map Prod.snd).sum

theorem chain_concat {jobs : List (α × α)} {job : α × α} {t : α} :
    Chain (jobs ++ [job]) t ↔ t = job.1 + job.2 ∨ ∃ u, Chain jobs u ∧ t = u + job.2 := by
  constructor
  · rintro ⟨skipped, first, rest, he, rfl⟩
    rcases List.eq_nil_or_concat rest with rfl | ⟨init, last, rfl⟩
    · obtain ⟨-, hlast⟩ := List.append_inj' he rfl
      obtain rfl : job = first := List.singleton_inj.mp hlast
      exact .inl (by simp)
    · rw [List.concat_eq_append, ← List.cons_append, ← List.append_assoc] at he
      obtain ⟨hinit, hlast⟩ := List.append_inj' he rfl
      obtain rfl : job = last := List.singleton_inj.mp hlast
      refine .inr ⟨_, ⟨skipped, first, init, hinit, rfl⟩, ?_⟩
      simp [List.concat_eq_append, add_assoc]
  · rintro (rfl | ⟨_, ⟨skipped, first, rest, rfl, rfl⟩, rfl⟩)
    · exact ⟨jobs, job, [], rfl, by simp⟩
    · refine ⟨skipped, first, rest ++ [job], by simp, ?_⟩
      simp [add_assoc]

variable [LinearOrder α]

/-- When a server that is free from `free` on has done all its jobs. -/
def completion (free : α) (jobs : List (α × α)) : α :=
  jobs.foldl (fun free job ↦ max job.1 free + job.2) free

@[simp] theorem completion_concat (free : α) (jobs : List (α × α)) (job : α × α) :
    completion free (jobs ++ [job]) = max job.1 (completion free jobs) + job.2 := by
  simp [completion, List.foldl_append]

/-- More jobs do not make a server done earlier. -/
theorem completion_le_append [IsOrderedAddMonoid α] (free : α) (jobs : List (α × α))
    {more : List (α × α)} (h : ∀ job ∈ more, 0 ≤ job.2) :
    completion free jobs ≤ completion free (jobs ++ more) := by
  induction more using List.reverseRecOn with
  | nil => rw [List.append_nil]
  | append_singleton more job ih =>
    have hrest := ih fun other ho ↦ h other (by simp [ho])
    rw [← List.append_assoc, completion_concat]
    have hmax := hrest.trans (le_max_right job.1 _)
    exact hmax.trans (le_add_of_nonneg_right (h job (by simp)))

/-- A server is done with its jobs after the longest of their chains. -/
theorem completion_greatest [IsOrderedAddMonoid α] {free : α} {jobs : List (α × α)} (hne : jobs ≠ [])
    (hfree : ∀ job ∈ jobs, free ≤ job.1) : IsGreatest {t | Chain jobs t} (completion free jobs) := by
  induction jobs using List.reverseRecOn with
  | nil => exact absurd rfl hne
  | append_singleton jobs job ih =>
    have hjob := hfree job (by simp)
    have hrest : ∀ other ∈ jobs, free ≤ other.1 := fun other ho ↦ hfree other (by simp [ho])
    rw [completion_concat]
    rcases eq_or_ne jobs [] with rfl | hjobs
    · have hmax : max job.1 (completion free []) = job.1 := max_eq_left hjob
      rw [hmax]
      refine ⟨chain_concat.mpr (.inl rfl), ?_⟩
      rintro t ht
      rcases chain_concat.mp ht with rfl | ⟨u, ⟨skipped, first, rest, he, -⟩, -⟩
      · exact le_rfl
      · simp at he
    · obtain ⟨hmem, hupper⟩ := ih hjobs hrest
      constructor
      · rcases le_total job.1 (completion free jobs) with hle | hle
        · rw [max_eq_right hle]
          exact chain_concat.mpr (.inr ⟨_, hmem, rfl⟩)
        · rw [max_eq_left hle]
          exact chain_concat.mpr (.inl rfl)
      · rintro t ht
        rcases chain_concat.mp ht with rfl | ⟨u, hu, rfl⟩
        · exact add_le_add_left (le_max_left _ _) _
        · exact add_le_add_left ((hupper hu).trans (le_max_right _ _)) _

/-- Some job keeps the server busy at any time before it is done at which the last job is
ready, if the jobs become ready in their order. -/
theorem busy_until {free t : α} {jobs : List (α × α)} (hready : ∀ job ∈ jobs, job.1 ≤ t)
    (ht : t < completion free jobs) (hfree : free ≤ t) :
    ∃ before job after, jobs = before ++ job :: after ∧ max job.1 (completion free before) ≤ t ∧
      t < max job.1 (completion free before) + job.2 := by
  induction jobs using List.reverseRecOn with
  | nil => exact absurd ht (not_lt.mpr hfree)
  | append_singleton jobs job ih =>
    rw [completion_concat] at ht
    by_cases hbusy : completion free jobs ≤ t
    · exact ⟨jobs, job, [], rfl, max_le (hready job (by simp)) hbusy, ht⟩
    · obtain ⟨before, other, after, rfl, hstart, hend⟩ :=
        ih (fun other ho ↦ hready other (by simp [ho])) (not_le.mp hbusy)
      exact ⟨before, other, after ++ [job], by simp, hstart, hend⟩

end InferTwin.Lindley
