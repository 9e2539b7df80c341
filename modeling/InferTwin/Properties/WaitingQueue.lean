import InferTwin.Scheduler.Queue

namespace InferTwin

open Effect

namespace PyList

variable {length k : ℕ} {index : ℤ}

theorem position_lt (h : position length index = some k) : k < length := by
  unfold position at h
  split_ifs at h with hfront hback
  · have hk := Option.some.inj h
    omega
  · have hk := Option.some.inj h
    omega

/-- The normalization of an index is the position that a list gives it. -/
theorem position_eq (h : position length index = some k) :
    (if index < 0 then index + length else index) = k := by
  unfold position at h
  split_ifs at h ⊢ with hfront hback hneg <;> have hk := Option.some.inj h <;> omega

theorem position_none (h : position length index = none) :
    (if index < 0 then index + length else index) < 0 ∨
      (if index < 0 then index + length else index) ≥ length := by
  unfold position at h
  split_ifs at h ⊢ with hfront hback hneg <;> omega

/-- A list that has no answer is left alone. -/
theorem perform_none {α : Type} {operation : QueueOperation α} {list : List α}
    (h : (perform operation list).1 = none) : (perform operation list).2 = list := by
  have hpop (index : ℤ) (hnone : (answerPop index list).1 = none) :
      (answerPop index list).2 = list := by
    unfold answerPop at hnone ⊢
    cases hresult : pop index list with
    | none => rfl
    | some result =>
      rw [hresult] at hnone
      cases hnone
  cases operation with
  | append state => cases h
  | popleft => exact hpop 0 h
  | pop index => exact hpop index h
  | getItem index => rfl
  | iter => rfl
  | len => rfl
  | bool => rfl

end PyList

namespace WaitingQueue

variable {α : Type}

/-- The queue holds a list behind the items that were handed out. -/
def Holds (queue : WaitingQueue α) (list : List α) : Prop :=
  ∃ passed, queue.items = passed ++ list ∧ queue.head = passed.length

variable {queue : WaitingQueue α} {list : List α}

theorem holds_create (states : List α) : (create states).Holds states := ⟨[], rfl, rfl⟩

theorem Holds.iter_eq (h : queue.Holds list) : queue.iter = list := by
  obtain ⟨passed, hitems, hhead⟩ := h
  rw [iter, hitems, hhead, List.drop_left]

theorem Holds.head_le (h : queue.Holds list) : queue.head ≤ queue.items.length := by
  obtain ⟨passed, hitems, hhead⟩ := h
  rw [hitems, hhead, List.length_append]
  omega

theorem Holds.len_eq (h : queue.Holds list) : queue.len = list.length := by
  obtain ⟨passed, hitems, hhead⟩ := h
  rw [len, hitems, hhead, List.length_append]
  omega

theorem Holds.bool_eq (h : queue.Holds list) : queue.bool = !list.isEmpty := by
  rw [bool, h.len_eq]
  cases list with
  | nil => rfl
  | cons state list =>
    have hpos : ((state :: list).length : ℤ) > 0 := by
      rw [List.length_cons]
      omega
    exact decide_eq_true hpos

/-- Cutting off what was handed out does not show. -/
theorem Holds.compact (h : queue.Holds list) : queue.compactIfNeeded.Holds list := by
  unfold compactIfNeeded
  split_ifs with hfew hlong
  · exact h
  · exact h
  · exact ⟨[], h.iter_eq, rfl⟩

theorem Holds.append (h : queue.Holds list) (state : α) :
    Holds { queue with items := queue.items ++ [state] } (list ++ [state]) := by
  obtain ⟨passed, hitems, hhead⟩ := h
  refine ⟨passed, ?_, hhead⟩
  rw [← List.append_assoc, ← hitems]

theorem Holds.item_eq (h : queue.Holds list) {k : ℕ} {state : α} (hk : list[k]? = some state) :
    item (queue.head + k) queue = .ok state queue := by
  obtain ⟨passed, hitems, hhead⟩ := h
  have hitem : queue.items[queue.head + k]? = some state := by
    rw [hitems, hhead, List.getElem?_append_right (Nat.le_add_right _ _),
      Nat.add_sub_cancel_left, hk]
  unfold item
  simp only [bind_apply, get_apply, hitem]
  rfl

theorem Holds.normalize_index (h : queue.Holds list) (index : ℤ) :
    normalizeIndex index queue = match PyList.position list.length index with
      | some k => .ok (k : ℤ) queue
      | none => .error .indexOutOfRange queue := by
  unfold normalizeIndex
  simp only [bind_apply, get_apply, h.len_eq]
  cases hposition : PyList.position list.length index with
  | none =>
    rw [if_pos (PyList.position_none hposition)]
    rfl
  | some k =>
    have hlt := PyList.position_lt hposition
    rw [PyList.position_eq hposition, if_neg (by omega)]
    rfl

theorem Holds.popleft_nil (h : queue.Holds []) :
    popleft queue = .error .popleftFromEmpty queue := by
  unfold popleft
  simp only [bind_apply, get_apply, h.bool_eq]
  rfl

theorem Holds.popleft_cons {state : α} (h : queue.Holds (state :: list)) :
    ∃ queue', popleft queue = .ok state queue' ∧ queue'.Holds list := by
  have hitem : item queue.head queue = .ok state queue := h.item_eq (k := 0) rfl
  refine ⟨compactIfNeeded { queue with head := queue.head + 1 }, ?_, ?_⟩
  · unfold popleft
    simp only [bind_apply, get_apply, h.bool_eq]
    rw [if_neg (by simp)]
    simp only [bind_apply, get_apply, hitem]
    rfl
  · obtain ⟨passed, hitems, hhead⟩ := h
    apply Holds.compact
    refine ⟨passed ++ [state], ?_, ?_⟩
    · rw [hitems, List.append_assoc, List.singleton_append]
    · rw [hhead, List.length_append, List.length_singleton]

/-- A pop inside the queue removes what the list has at that position. -/
theorem Holds.pop_some (h : queue.Holds list) {index : ℤ} {k : ℕ} {state : α}
    (hposition : PyList.position list.length index = some k) (hk : list[k]? = some state) :
    ∃ queue', pop index queue = .ok state queue' ∧ queue'.Holds (list.eraseIdx k) := by
  unfold pop
  simp only [bind_apply, h.normalize_index, hposition]
  rcases Nat.eq_zero_or_pos k with rfl | hpos
  · cases list with
    | nil => cases hk
    | cons first list =>
      cases hk
      exact h.popleft_cons
  · refine ⟨compactIfNeeded { queue with items := queue.items.eraseIdx (queue.head + k) }, ?_, ?_⟩
    · rw [if_neg (by omega)]
      simp only [bind_apply, get_apply, Int.toNat_natCast, h.item_eq hk]
      rfl
    · obtain ⟨passed, hitems, hhead⟩ := h
      apply Holds.compact
      refine ⟨passed, ?_, hhead⟩
      rw [hitems, hhead, List.eraseIdx_append_of_length_le (Nat.le_add_right _ _),
        Nat.add_sub_cancel_left]

theorem Holds.pop_none (h : queue.Holds list) {index : ℤ}
    (hposition : PyList.position list.length index = none) :
    pop index queue = .error .indexOutOfRange queue := by
  unfold pop
  simp only [bind_apply, h.normalize_index, hposition]

theorem Holds.pop_refines (h : queue.Holds list) (index : ℤ) :
    (attempt (perform (.pop index)) queue).1 = (PyList.answerPop index list).1 ∧
      (attempt (perform (.pop index)) queue).2.Holds (PyList.answerPop index list).2 := by
  unfold attempt perform PyList.answerPop PyList.pop
  cases hposition : PyList.position list.length index with
  | none =>
    simp only [bind_apply, h.pop_none hposition]
    exact ⟨rfl, h⟩
  | some k =>
    have hk : list[k]? = some (list.get ⟨k, PyList.position_lt hposition⟩) :=
      List.getElem?_eq_getElem _
    obtain ⟨queue', hpop, h'⟩ := h.pop_some hposition hk
    simp only [bind_apply, hpop]
    rw [Option.bind_eq_bind, Option.bind_some, hk]
    exact ⟨rfl, h'⟩

/-- Every operation is answered as by the list, and the list stays the content. -/
theorem perform_refines (operation : QueueOperation α) (queue : WaitingQueue α) (list : List α)
    (h : queue.Holds list) :
    (attempt (perform operation) queue).1 = (PyList.perform operation list).1 ∧
      (attempt (perform operation) queue).2.Holds (PyList.perform operation list).2 := by
  cases operation with
  | append state => exact ⟨rfl, h.append state⟩
  | popleft =>
    cases list with
    | nil =>
      unfold attempt perform
      simp only [bind_apply, h.popleft_nil]
      exact ⟨rfl, h⟩
    | cons state list =>
      obtain ⟨queue', hpopleft, h'⟩ := h.popleft_cons
      have hposition : PyList.position (state :: list).length 0 = some 0 :=
        if_pos ⟨le_rfl, by rw [List.length_cons]; omega⟩
      have hanswer : PyList.answerPop 0 (state :: list) = (some (.state state), list) := by
        unfold PyList.answerPop PyList.pop
        rw [hposition]
        rfl
      unfold attempt perform PyList.perform
      simp only [bind_apply, hpopleft, hanswer]
      exact ⟨rfl, h'⟩
  | pop index => exact h.pop_refines index
  | getItem index =>
    unfold attempt perform PyList.perform PyList.getItem getItem
    simp only [bind_apply, h.normalize_index]
    cases hposition : PyList.position list.length index with
    | none => exact ⟨rfl, h⟩
    | some k =>
      have hk : list[k]? = some (list.get ⟨k, PyList.position_lt hposition⟩) :=
        List.getElem?_eq_getElem _
      simp only [get_apply, Int.toNat_natCast, h.item_eq hk]
      rw [Option.bind_eq_bind, Option.bind_some, hk]
      exact ⟨rfl, h⟩
  | iter => exact ⟨congrArg (fun states ↦ some (QueueAnswer.states states)) h.iter_eq, h⟩
  | len => exact ⟨congrArg (fun length ↦ some (QueueAnswer.length length)) h.len_eq, h⟩
  | bool => exact ⟨congrArg (fun truth ↦ some (QueueAnswer.truth truth)) h.bool_eq, h⟩

/-- A failing operation leaves the queue as it was. -/
theorem Holds.unchanged (h : queue.Holds list) {operation : QueueOperation α}
    {error : QueueError} {queue' : WaitingQueue α}
    (hfail : perform operation queue = .error error queue') : queue'.iter = queue.iter := by
  obtain ⟨hanswer, h'⟩ := perform_refines operation queue list h
  unfold attempt at hanswer h'
  rw [hfail] at hanswer h'
  have hlist : (PyList.perform operation list).2 = list :=
    PyList.perform_none hanswer.symm
  rw [h'.iter_eq, hlist, h.iter_eq]

end WaitingQueue

/-- A queue answers every sequence of operations as a list does, whatever it has cut off on
the way. -/
theorem waiting_queue_refines_list {α : Type} (states : List α)
    (operations : List (QueueOperation α)) :
    let queue := plays (fun operation ↦ attempt (WaitingQueue.perform operation)) operations
      (WaitingQueue.create states)
    let list := plays PyList.perform operations states
    queue.1 = list.1 ∧ queue.2.iter = list.2 ∧ queue.2.head ≤ queue.2.items.length ∧
      ∀ operation error queue', WaitingQueue.perform operation queue.2 = .error error queue' →
        queue'.iter = queue.2.iter := by
  intro queue list
  have h : queue.1 = list.1 ∧ queue.2.Holds list.2 :=
    plays_refine WaitingQueue.perform_refines operations (WaitingQueue.holds_create states)
  refine ⟨h.1, h.2.iter_eq, h.2.head_le, ?_⟩
  intro operation error queue' hfail
  exact h.2.unchanged hfail

end InferTwin
