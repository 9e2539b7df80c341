import InferTwin.Server.Run

namespace InferTwin

open Effect

variable {C K : Type}

/-- The heap and the dictionaries of a replay hold an active request. -/
structure Held (locals : Locals) (entry : Entry) : Prop where
  heap_eq : locals.heap entry.seq = entry.state
  state_eq : locals.statesById.lookup entry.id = some entry.seq
  request_eq : locals.requestsById.lookup entry.id = some entry.request
  lookup_eq : ∀ lookup ∈ entry.lookup, locals.lookupById.lookup entry.id = some lookup

/-- A request stays held when its state changes in the heap only. -/
theorem Held.restate {locals : Locals} {entry : Entry} (h : Held locals entry) (entry' : Entry)
    (hseq : entry'.seq = entry.seq) (hid : entry'.id = entry.id)
    (hreq : entry'.request = entry.request) (hl : entry'.lookup = entry.lookup) {heap : Heap}
    (hheap : heap entry'.seq = entry'.state) : Held { locals with heap } entry' where
  heap_eq := hheap
  state_eq := by
    rw [hid, hseq]
    exact h.state_eq
  request_eq := by
    rw [hid, hreq]
    exact h.request_eq
  lookup_eq := by
    rw [hid, hl]
    exact h.lookup_eq

/-- Heap, dictionaries and queues of a replay hold exactly the requests of a session that
are not finished. What they hold besides does not matter. -/
structure Represents (locals : Locals) (session : Session) : Prop where
  waiting_eq : locals.waiting = session.waiting.map Entry.seq
  running_eq : locals.running = session.running.map Job.seq
  held : ∀ entry ∈ session.active, Held locals entry
  queue_eq : locals.transferQueue = session.transferQueue

/-- Outside the listed requests, heap and dictionaries are as before. -/
structure Frame (touched : List Entry) (locals locals' : Locals) : Prop where
  heap_eq : ∀ ref, ref ∉ touched.map Entry.seq → locals'.heap ref = locals.heap ref
  lookup_eq : ∀ id, id ∉ touched.map Entry.id →
    locals'.lookupById.lookup id = locals.lookupById.lookup id
  states_eq : locals'.statesById = locals.statesById
  requests_eq : locals'.requestsById = locals.requestsById

namespace Frame

variable {touched touched' : List Entry} {locals locals' locals'' : Locals} {entry : Entry}

theorem refl (touched : List Entry) (locals : Locals) : Frame touched locals locals :=
  ⟨fun _ _ ↦ rfl, fun _ _ ↦ rfl, rfl, rfl⟩

theorem trans (h : Frame touched locals locals') (h' : Frame touched' locals' locals'') :
    Frame (touched ++ touched') locals locals'' where
  heap_eq ref hr := by
    simp only [List.map_append, List.mem_append, not_or] at hr
    rw [h'.heap_eq ref hr.2, h.heap_eq ref hr.1]
  lookup_eq id hid := by
    simp only [List.map_append, List.mem_append, not_or] at hid
    rw [h'.lookup_eq id hid.2, h.lookup_eq id hid.1]
  states_eq := h'.states_eq.trans h.states_eq
  requests_eq := h'.requests_eq.trans h.requests_eq

theorem append (h : Frame touched locals locals') (touched' : List Entry) :
    Frame (touched ++ touched') locals locals' := h.trans (refl touched' locals')

theorem held (h : Frame touched locals locals') (hh : Held locals entry)
    (hs : entry.seq ∉ touched.map Entry.seq) (hid : entry.id ∉ touched.map Entry.id) :
    Held locals' entry where
  heap_eq := (h.heap_eq _ hs).trans hh.heap_eq
  state_eq := by rw [h.states_eq]; exact hh.state_eq
  request_eq := by rw [h.requests_eq]; exact hh.request_eq
  lookup_eq lookup hl := (h.lookup_eq _ hid).trans (hh.lookup_eq lookup hl)

end Frame

/-- No two of the requests share an arrival number or an id. -/
structure Distinct (entries : List Entry) : Prop where
  seqs : (entries.map Entry.seq).Nodup
  ids : (entries.map Entry.id).Nodup

namespace Distinct

variable {entry : Entry} {entries front back : List Entry}

theorem sublist (h : Distinct entries) (hs : front.Sublist entries) : Distinct front :=
  ⟨h.seqs.sublist (hs.map _), h.ids.sublist (hs.map _)⟩

theorem head_seq (h : Distinct (entry :: entries)) : entry.seq ∉ entries.map Entry.seq :=
  (List.nodup_cons.mp h.seqs).1

theorem head_id (h : Distinct (entry :: entries)) : entry.id ∉ entries.map Entry.id :=
  (List.nodup_cons.mp h.ids).1

theorem tail (h : Distinct (entry :: entries)) : Distinct entries :=
  ⟨(List.nodup_cons.mp h.seqs).2, (List.nodup_cons.mp h.ids).2⟩

theorem apart (h : Distinct (front ++ back)) (he : entry ∈ front) :
    entry.seq ∉ back.map Entry.seq ∧ entry.id ∉ back.map Entry.id := by
  have hs := h.seqs
  have hid := h.ids
  rw [List.map_append] at hs hid
  exact ⟨fun hb ↦ hs.disjoint (List.mem_map_of_mem he) hb,
    fun hb ↦ hid.disjoint (List.mem_map_of_mem he) hb⟩

theorem perm (h : Distinct entries) (hp : front.Perm entries) : Distinct front :=
  ⟨(hp.map _).nodup_iff.mpr h.seqs, (hp.map _).nodup_iff.mpr h.ids⟩

end Distinct

/-- The requests carry their own ids. -/
def Named (entries : List Entry) : Prop :=
  ∀ entry ∈ entries, entry.id = entry.request.requestId

theorem Named.ids_eq {entries : List Entry} (h : Named entries) : entries.map Entry.id =
    (entries.map Entry.ticket).map fun ticket ↦ ticket.1.requestId := by
  rw [List.map_map]
  exact List.map_congr_left h

theorem Distinct.of_tickets {entries front : List Entry} (h : Distinct entries)
    (hn : Named entries) (hf : Named front)
    (hs : (front.map Entry.ticket).Sublist (entries.map Entry.ticket)) : Distinct front := by
  have hseqs : ∀ entries : List Entry,
      entries.map Entry.seq = (entries.map Entry.ticket).map Prod.snd := by simp [Entry.ticket]
  constructor
  · rw [hseqs]
    exact (hseqs entries ▸ h.seqs).sublist (hs.map _)
  · rw [hf.ids_eq]
    exact (hn.ids_eq ▸ h.ids).sublist (hs.map _)

theorem Session.Wf.named {config : SchedulerConfig} {timelineMode : TimelineMode}
    {requests : List SimulationRequest} {session : Session}
    (hw : session.Wf config timelineMode requests) : Named session.active := by
  intro entry hentry
  rcases List.mem_append.mp hentry with hj | he
  · obtain ⟨job, hjob, rfl⟩ := List.mem_map.mp hj
    exact (hw.running job hjob).ledger.tracks.id_eq
  · exact (hw.waiting entry he).tracks.id_eq

theorem Session.Wf.active_distinct {config : SchedulerConfig} {timelineMode : TimelineMode}
    {requests : List SimulationRequest} {session : Session}
    (hw : session.Wf config timelineMode requests) : Distinct session.active := by
  obtain ⟨arrived, hreq, hlen, hperm⟩ := hw.roster
  have hids := hw.named.ids_eq
  have hdistinct := hw.distinct
  rw [hreq, List.map_append] at hdistinct
  have harrived : (arrived.zipIdx.map fun ticket ↦ ticket.1.requestId).Nodup := by
    have he : arrived.zipIdx.map (fun ticket ↦ ticket.1.requestId) =
        (arrived.zipIdx.map Prod.fst).map SimulationRequest.requestId := by
      rw [List.map_map]
      rfl
    rw [he, List.zipIdx_map_fst]
    exact hdistinct.of_append_left
  constructor
  · have horder := hw.order
    rw [List.pairwise_map] at horder
    rw [List.Nodup, List.pairwise_map]
    exact horder.imp fun hlt ↦ hlt.ne
  · rw [hids]
    have hall := (hperm.map fun ticket ↦ ticket.1.requestId).nodup_iff.mpr harrived
    rw [List.map_append] at hall
    exact hall.of_append_right

end InferTwin
