import Expander.Proofs.Stage.View

/-!
The reads that wait for the media.

The table of pending reads and the queue of read bursts describe each other: every entry counts the
bursts of its packet that are still queued, and every queued burst belongs to an entry
(`ReadsKept`). Issuing a burst takes one off the count of its packet, and turns the entry into a
response with the last of them (`readsKept_finishRead`).
-/

set_option autoImplicit false

namespace Expander

/-- The pending reads count the queued bursts, which are given by the packets they belong to. -/
structure ReadsKept (pending : List (TransactionId × PendingRead)) (queued : List TransactionId) :
    Prop where
  /-- An entry is filed under the number of its packet. -/
  keyed : ∀ entry ∈ pending, entry.1 = entry.2.packet.id
  /-- No packet has two entries. -/
  distinct : (pending.map (·.1)).Nodup
  /-- An entry counts the queued bursts of its packet. -/
  counted : ∀ entry ∈ pending, entry.2.burstsLeft = queued.count entry.1
  /-- A packet with an entry has a queued burst. -/
  left : ∀ entry ∈ pending, 0 < entry.2.burstsLeft
  /-- A queued burst belongs to an entry. -/
  owned : ∀ id ∈ queued, id ∈ pending.map (·.1)

namespace ReadsKept

variable {pending pending' : List (TransactionId × PendingRead)}
  {queued queued' : List TransactionId} {id : TransactionId} {read rest : PendingRead}

theorem nil : ReadsKept [] [] where
  keyed _ mem := absurd mem List.not_mem_nil
  distinct := List.nodup_nil
  counted _ mem := absurd mem List.not_mem_nil
  left _ mem := absurd mem List.not_mem_nil
  owned _ mem := absurd mem List.not_mem_nil

theorem perm (h : ReadsKept pending queued) (eq : queued.Perm queued') :
    ReadsKept pending queued' where
  keyed := h.keyed
  distinct := h.distinct
  counted entry mem := (h.counted entry mem).trans (eq.count_eq entry.1)
  left := h.left
  owned i mem := h.owned i (eq.mem_iff.2 mem)

theorem perm_pending (h : ReadsKept pending queued) (eq : pending.Perm pending') :
    ReadsKept pending' queued where
  keyed entry mem := h.keyed entry (eq.mem_iff.2 mem)
  distinct := (eq.map _).nodup_iff.1 h.distinct
  counted entry mem := h.counted entry (eq.mem_iff.2 mem)
  left entry mem := h.left entry (eq.mem_iff.2 mem)
  owned i mem := (eq.map _).mem_iff.1 (h.owned i mem)

theorem eq_nil (h : ReadsKept pending []) : pending = [] := by
  cases pending with
  | nil => rfl
  | cons entry rest =>
    have counted := h.counted entry List.mem_cons_self
    have left := h.left entry List.mem_cons_self
    simp only [List.count_nil] at counted
    omega

theorem file (h : ReadsKept pending queued) (fresh : id ∉ pending.map (·.1))
    (key : read.packet.id = id) (some : 0 < read.burstsLeft) :
    ReadsKept (pending ++ [(id, read)]) (queued ++ List.replicate read.burstsLeft id) where
  keyed entry mem := by
    rcases List.mem_append.1 mem with old | new
    · exact h.keyed entry old
    · rw [List.mem_singleton.1 new, key]
  distinct := by
    simpa using List.nodup_append'.2 ⟨h.distinct, List.nodup_singleton id, by simpa using fresh⟩
  counted entry mem := by
    rw [List.count_append, List.count_replicate]
    rcases List.mem_append.1 mem with old | new
    · have ne : entry.1 ≠ id := by
        intro eq
        exact fresh (eq ▸ List.mem_map_of_mem old)
      have ne' : (id == entry.1) = false := by simpa using Ne.symm ne
      rw [h.counted entry old]
      simp [ne']
    · have absent : queued.count id = 0 :=
        List.count_eq_zero.2 fun mem => fresh (h.owned id mem)
      rw [List.mem_singleton.1 new]
      simp [absent]
  left entry mem := by
    rcases List.mem_append.1 mem with old | new
    · exact h.left entry old
    · rw [List.mem_singleton.1 new]
      exact some
  owned i mem := by
    rw [List.map_append]
    rcases List.mem_append.1 mem with old | new
    · exact List.mem_append_left _ (h.owned i old)
    · exact List.mem_append_right _ (by simp [List.eq_of_mem_replicate new])

private theorem counted_tail (h : ReadsKept ((id, read) :: pending) (id :: queued)) :
    ∀ entry ∈ pending, entry.2.burstsLeft = queued.count entry.1 := by
  intro entry mem
  have distinct := h.distinct
  rw [List.map_cons, List.nodup_cons] at distinct
  have owner : entry.1 ∈ pending.map (·.1) := List.mem_map_of_mem mem
  have ne : id ≠ entry.1 := fun eq => distinct.1 (eq ▸ owner)
  rw [h.counted entry (List.mem_cons_of_mem _ mem), List.count_cons_of_ne ne]

theorem issue (h : ReadsKept ((id, read) :: pending) (id :: queued)) (more : id ∈ queued)
    (packet : rest.packet = read.packet) (left : rest.burstsLeft = queued.count id) :
    ReadsKept ((id, rest) :: pending) queued where
  keyed := by
    refine List.forall_mem_cons.2 ⟨?_, fun entry mem => ?_⟩
    · rw [packet]
      exact h.keyed (id, read) List.mem_cons_self
    · exact h.keyed entry (List.mem_cons_of_mem _ mem)
  distinct := h.distinct
  counted := List.forall_mem_cons.2 ⟨left, h.counted_tail⟩
  left := by
    refine List.forall_mem_cons.2 ⟨?_, fun entry mem => ?_⟩
    · rw [left]
      exact List.count_pos_iff.2 more
    · exact h.left entry (List.mem_cons_of_mem _ mem)
  owned i mem := h.owned i (List.mem_cons_of_mem id mem)

theorem issue_last (h : ReadsKept ((id, read) :: pending) (id :: queued)) (last : id ∉ queued) :
    ReadsKept pending queued where
  keyed entry mem := h.keyed entry (List.mem_cons_of_mem _ mem)
  distinct := (List.nodup_cons.1 h.distinct).2
  counted := h.counted_tail
  left entry mem := h.left entry (List.mem_cons_of_mem _ mem)
  owned i mem := by
    rcases List.mem_cons.1 (h.owned i (List.mem_cons_of_mem id mem)) with rfl | owner
    · exact absurd mem last
    · exact owner

theorem lookup (h : ReadsKept pending (id :: queued)) :
    ∃ front read back, pending = front ++ (id, read) :: back ∧
      (∀ entry ∈ front ++ back, entry.1 ≠ id) ∧ pending.lookup id = some read ∧
      read.burstsLeft = queued.count id + 1 := by
  obtain ⟨⟨key, read⟩, mem, rfl⟩ := List.mem_map.1 (h.owned id List.mem_cons_self)
  obtain ⟨front, back, split⟩ := List.append_of_mem mem
  have apart : ∀ entry ∈ front ++ back, entry.1 ≠ key := by
    intro entry hmem eq
    have distinct := h.distinct
    rw [split, List.map_append, List.map_cons, List.nodup_append'] at distinct
    obtain ⟨-, hback, disjoint⟩ := distinct
    rcases List.mem_append.1 hmem with hfront | hrest
    · exact disjoint (List.mem_map_of_mem hfront) (by simp [eq])
    · have again : entry.1 ∈ back.map (·.1) := List.mem_map_of_mem hrest
      exact (List.nodup_cons.1 hback).1 (eq ▸ again)
  refine ⟨front, read, back, split, apart, ?_, ?_⟩
  · refine List.lookup_eq_some_iff.2 ⟨front, back, split, fun entry hmem => ?_⟩
    simpa using Ne.symm (apart entry (List.mem_append_left _ hmem))
  · simpa using h.counted _ mem

end ReadsKept

namespace Controller

variable {μ : Type} {c : Controller μ}

theorem view_pushResponse (c : Controller μ) (ready : Tick) (p : Packet) :
    (c.pushResponse ready p).1.view = { c.view with answers := p.bare ::ₘ c.view.answers } := by
  have added := Heap.push_perm ReadyResponse.before c.responses ⟨ready, c.nextSeq, p⟩
  have answers : (c.pushResponse ready p).1.answers = p.bare ::ₘ c.answers := by
    have mapped := Multiset.coe_eq_coe.2 (added.map fun r => r.packet.bare)
    simp only [Controller.answers, pushResponse, mapped, List.map_cons, ← Multiset.cons_coe,
      Multiset.add_cons]
  simp only [view, answers]
  rfl

private theorem map_of_ne {entries : List (TransactionId × PendingRead)} {id : TransactionId}
    (rest : PendingRead) (apart : ∀ entry ∈ entries, entry.1 ≠ id) :
    entries.map (fun entry => if entry.1 = id then (id, rest) else entry) = entries := by
  rw [List.map_congr_left fun entry mem => if_neg (apart entry mem)]
  exact List.map_id entries

private theorem filter_of_ne {entries : List (TransactionId × PendingRead)} {id : TransactionId}
    (apart : ∀ entry ∈ entries, entry.1 ≠ id) :
    entries.filter (fun entry => entry.1 != id) = entries :=
  List.filter_eq_self.2 fun entry mem => by simpa using apart entry mem

theorem finishRead_cases {id : TransactionId} {queued : List TransactionId}
    (h : ReadsKept c.pending (id :: queued)) (readyAt : Tick) :
    ∃ front read back, c.pending = front ++ (id, read) :: back ∧
      ((id ∈ queued ∧ c.finishRead id readyAt =
        ({ c with pending := front ++ (id, { read with
            burstsLeft := queued.count id, ready := max read.ready readyAt }) :: back }, [])) ∨
      (id ∉ queued ∧ c.finishRead id readyAt =
        { c with pending := front ++ back }.pushResponse
          (max read.ready readyAt + read.headerDelay + c.config.frontendLatency +
            c.config.backendLatency) read.packet)) := by
  obtain ⟨front, read, back, split, apart, found, count⟩ := h.lookup
  refine ⟨front, read, back, split, ?_⟩
  -- The table has one entry for the packet, so mapping and filtering by its number touch that one.
  have notFront : ∀ entry ∈ front, entry.1 ≠ id :=
    fun entry mem => apart entry (List.mem_append_left _ mem)
  have notBack : ∀ entry ∈ back, entry.1 ≠ id :=
    fun entry mem => apart entry (List.mem_append_right _ mem)
  simp only [finishRead, found]
  by_cases more : 1 < read.burstsLeft
  · have mem : id ∈ queued := List.count_pos_iff.1 (by omega)
    have left : read.burstsLeft - 1 = queued.count id := by omega
    refine .inl ⟨mem, ?_⟩
    rw [if_pos more, split, List.map_append, List.map_cons, map_of_ne _ notFront,
      map_of_ne _ notBack, if_pos rfl, left]
  · have absent : id ∉ queued := List.count_eq_zero.1 (by omega)
    refine .inr ⟨absent, ?_⟩
    rw [if_neg more, split, List.filter_append, filter_of_ne notFront,
      List.filter_cons_of_neg (by simp), filter_of_ne notBack]

theorem readsKept_finishRead {id : TransactionId} {queued : List TransactionId}
    (h : ReadsKept c.pending (id :: queued)) (readyAt : Tick) :
    ReadsKept (c.finishRead id readyAt).1.pending queued ∧
      (c.finishRead id readyAt).1.view = c.view := by
  obtain ⟨front, read, back, split, cases⟩ := finishRead_cases h readyAt
  rw [split] at h
  -- The order of the entries is of no account: bring the one of the burst to the front.
  have first := h.perm_pending List.perm_middle
  rcases cases with ⟨more, eq⟩ | ⟨last, eq⟩
  · rw [eq]
    refine ⟨?_, by simp [view, answers, split]⟩
    refine ReadsKept.perm_pending ?_ List.perm_middle.symm
    exact first.issue more rfl rfl
  · rw [eq, view_pushResponse]
    refine ⟨first.issue_last last, ?_⟩
    have answers : read.packet.bare ::ₘ { c with pending := front ++ back }.answers =
        c.answers := by
      simp only [answers, split, List.map_append, List.map_cons, ← Multiset.cons_add]
      congr 1
      exact Multiset.coe_eq_coe.2 List.perm_middle.symm
    simp only [view, answers]

end Controller

end Expander
