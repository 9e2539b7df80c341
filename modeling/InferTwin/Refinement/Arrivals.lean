import InferTwin.Refinement.Held

namespace InferTwin

open Effect

variable {C K : Type}

namespace Locals

/-- Enter a new request into the heap, the dictionaries and the waiting queue. -/
def register (locals : Locals) (entry : Entry) : Locals :=
  { locals with
    heap := Function.update locals.heap entry.seq entry.state
    waiting := locals.waiting ++ [entry.seq]
    statesById := locals.statesById.insert entry.id entry.seq
    requestsById := locals.requestsById.insert entry.id entry.request }

variable (locals : Locals) (entries : List Entry)

theorem register_all_eq : entries.foldl register locals = { locals with
    heap := (entries.foldl register locals).heap
    waiting := locals.waiting ++ entries.map Entry.seq
    statesById := (entries.foldl register locals).statesById
    requestsById := (entries.foldl register locals).requestsById } := by
  induction entries generalizing locals with
  | nil => simp
  | cons entry entries ih =>
    rw [List.foldl_cons, ih]
    simp [register]

theorem register_all_states_keys : Finmap.keys (entries.foldl register locals).statesById =
    Finmap.keys locals.statesById ∪ (entries.map Entry.id).toFinset := by
  induction entries generalizing locals with
  | nil => simp
  | cons entry entries ih =>
    rw [List.foldl_cons, ih]
    simp only [register, Dict.keys_insert, List.map_cons, List.toFinset_cons]
    rw [Finset.insert_union, Finset.union_insert]

end Locals

namespace Held

variable {locals : Locals} {entry other : Entry}

theorem register_other (h : Held locals entry) (hs : entry.seq ≠ other.seq)
    (hid : entry.id ≠ other.id) : Held (locals.register other) entry where
  heap_eq := (Function.update_of_ne hs _ _).trans h.heap_eq
  state_eq := (Finmap.lookup_insert_of_ne _ hid).trans h.state_eq
  request_eq := (Finmap.lookup_insert_of_ne _ hid).trans h.request_eq
  lookup_eq := h.lookup_eq

theorem register_self (hl : entry.lookup = none) : Held (locals.register entry) entry where
  heap_eq := Function.update_self ..
  state_eq := Finmap.lookup_insert _
  request_eq := Finmap.lookup_insert _
  lookup_eq lookup h := by
    rw [hl] at h
    cases h

theorem register_all {entries news : List Entry} (hd : Distinct (entries ++ news))
    (hh : ∀ entry ∈ entries, Held locals entry) (hn : ∀ entry ∈ news, entry.lookup = none) :
    ∀ entry ∈ entries ++ news, Held (news.foldl Locals.register locals) entry := by
  induction news generalizing entries locals with
  | nil => simpa using hh
  | cons new news ih =>
    have happ : entries ++ new :: news = (entries ++ [new]) ++ news := by simp
    rw [happ] at hd ⊢
    have hfront : Distinct (new :: entries) :=
      (hd.sublist (List.sublist_append_left _ _)).perm (List.perm_append_singleton new entries).symm
    refine ih hd ?_ (List.forall_mem_of_forall_mem_cons hn)
    intro entry hentry
    rcases List.mem_append.mp hentry with he | he
    · refine (hh entry he).register_other ?_ ?_
      · exact fun heq ↦ hfront.head_seq (heq ▸ List.mem_map_of_mem he)
      · exact fun heq ↦ hfront.head_id (heq ▸ List.mem_map_of_mem he)
    · rw [List.mem_singleton.mp he]
      exact register_self (hn new (List.mem_cons_self ..))

end Held

theorem admit_arrival_eq (engine : Engine C K) (nowMs lostMs : ℚ) (request : SimulationRequest)
    (seq : ℕ) (locals : Locals) :
    engine.admitArrival nowMs request seq locals =
      (Entry.arrive engine.timelineMode nowMs lostMs request seq).map locals.register := by
  unfold Engine.admitArrival Entry.arrive
  cases hs : stateFromRequest request seq engine.timelineMode with
  | error e => rfl
  | ok state =>
    have hseq : state.arrivalSeq = seq := by
      unfold stateFromRequest at hs
      split_ifs at hs
      cases hs
      rfl
    cases hw : recordInitialComputeWait state nowMs with
    | error e => simp [bind, Except.bind, hw, Except.map]
    | ok state' =>
      have hseq' : state'.arrivalSeq = seq := by
        unfold recordInitialComputeWait RequestState.recordComputeWait at hw
        split at hw
        · cases hw
          exact hseq
        · split_ifs at hw
          cases hw
          exact hseq
      simp [bind, Except.bind, hw, Except.map, pure, Except.pure, Locals.register, Entry.seq,
        Entry.id, hseq']

theorem move_arrivals_eq (engine : Engine C K) (nowMs lostMs : ℚ)
    (pending : List SimulationRequest) (seq : ℕ) (locals : Locals) :
    engine.moveArrivals nowMs pending seq locals =
      (arrivals engine.timelineMode nowMs lostMs seq pending).map fun moved ↦
        (moved.2, seq + moved.1.length, moved.1.foldl Locals.register locals) := by
  induction pending generalizing seq locals with
  | nil => rfl
  | cons request pending ih =>
    unfold Engine.moveArrivals arrivals
    split_ifs with hle
    · rw [admit_arrival_eq engine nowMs lostMs, except_map_bind, except_bind_map]
      congr 1
      funext entry
      rw [ih, except_bind_map]
      cases arrivals engine.timelineMode nowMs lostMs (seq + 1) pending with
      | error e => rfl
      | ok moved =>
        simp [Except.map, bind, Except.bind, pure, Except.pure, Nat.add_comm, Nat.add_left_comm]
    · rfl

theorem represents_received {engine : Engine C K} {session : Session} {locals : Locals}
    {requests pending : List SimulationRequest} {entries : List Entry}
    (hw : session.Wf engine.config engine.timelineMode requests) (h : Represents locals session)
    (harr : arrivals engine.timelineMode session.nowMs session.lostMs session.arrivals
      session.pending = .ok (entries, pending)) :
    Represents (entries.foldl Locals.register locals) { session with
      pending
      arrivals := session.arrivals + entries.length
      waiting := session.waiting ++ entries } := by
  have hreceive : engine.receive session = .ok { session with
      pending
      arrivals := session.arrivals + entries.length
      waiting := session.waiting ++ entries } := by
    simp [Engine.receive, harr, bind, Except.bind, pure, Except.pure]
  have hdistinct := ((receives_of_receive hreceive).wf hw).active_distinct
  obtain ⟨taken, -, -, hall, -, -⟩ := arrivals_ok harr
  have hheld : ∀ entry ∈ session.active ++ entries,
      Held (entries.foldl Locals.register locals) entry := by
    refine Held.register_all ?_ h.held fun entry he ↦ (hall entry he).2.1
    simpa [Session.active] using hdistinct
  rw [Locals.register_all_eq] at hheld ⊢
  exact ⟨by simp [h.waiting_eq], h.running_eq, by simpa [Session.active] using hheld, h.queue_eq⟩

end InferTwin
