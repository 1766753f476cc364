import Expander.Proofs.Agenda
import Mathlib.Data.List.Sort

/-!
The order in which events fire.

What leaves a queue is the head of its line, the first arrival of those that are pending
(`InLine.first_iff`). Pops with one limit take a line's arrivals up to that limit, and since these
are in the order of a stable sort by tick (`InLine.map_filter_isDue`), draining sorts what is due.
Together, a queue is a stable priority queue after any calls (`stable_run`).
-/

set_option autoImplicit false

namespace Expander.Agenda

variable {a b : Agenda} {line rest : List Arrival} {x y : Arrival} {e : Event} {limit : Tick}

def drain (a : Agenda) (limit : Tick) (pops : Nat) : Agenda :=
  a.run (List.replicate pops (.popDue limit))

/-- The arrival is pending, and before every other one that is. -/
structure First (a : Agenda) (x : Arrival) : Prop where
  pending : x ∈ a.pending
  before : ∀ y ∈ a.pending, y ≠ x → x.before y = true

/-- Every event is in the queue or has fired once, and the next one to fire is the earliest that is
pending, among those of one tick the one that was scheduled first. -/
structure Stable (a : Agenda) : Prop where
  due : ∀ limit e, (∃ left, a.queue.popDue limit = some (e, left)) ↔
    ∃ x, a.First x ∧ x.event = e ∧ e.tick ≤ limit
  dueNumbered : ∀ limit x, (∃ left, a.numbered.popDue limit = some (x, left)) ↔
    a.First x ∧ x.event.tick ≤ limit
  leaves : ∀ limit x, a.First x → x.event.tick ≤ limit →
    (a.perform (.popDue limit)).pending = a.pending.erase x ∧
      (a.perform (.popDue limit)).fired = a.fired ++ [x.event]
  /-- Where nothing is due, a pop changes nothing. -/
  idle : ∀ limit, (∀ x, a.First x → limit < x.event.tick) → a.perform (.popDue limit) = a
  next : a.queue.nextTick = (a.pending.map fun x => x.event.tick).min?
  nextNumbered : a.numbered.nextTick = a.queue.nextTick
  once : a.popped.Nodup
  fired : a.fired = a.popped.map Arrival.event
  kept : (a.popped ++ a.numbered.heap.toList).Perm a.arrivals
  waiting : a.queue.events.Perm (a.pending.map Arrival.event)
  /-- Enough pops with one limit give the events within it away, sorted by tick. -/
  drained : ∀ limit pops, (a.pending.filter (Arrival.isDue limit)).length ≤ pops →
    (a.drain limit pops).fired = a.fired ++
        ((a.pending.filter (Arrival.isDue limit)).map Arrival.event).mergeSort
          (fun e f => decide (e.tick ≤ f.tick)) ∧
      (a.drain limit pops).pending = a.pending.filter (fun x => !x.isDue limit) ∧
      (a.drain limit pops).queue.popDue limit = none

/-! ### Draining -/

theorem drain_of_idle (idle : a.perform (.popDue limit) = a) (pops : Nat) :
    a.drain limit pops = a := by
  induction pops with
  | zero => rfl
  | succ pops ih =>
    rw [drain, run, List.replicate_succ, List.foldl_cons, idle]
    exact ih

theorem InLine.gives_drain_of_late (h : a.InLine line) (late : ∀ x ∈ line, limit < x.tick)
    (pops : Nat) :
    Gives a (a.drain limit pops) (line.filter (Arrival.isDue limit))
      (line.filter fun x => !x.isDue limit) := by
  have notDue : ∀ x ∈ line, x.isDue limit = false := fun x mem =>
    decide_eq_false (Nat.not_le_of_lt (late x mem))
  have none' : line.filter (Arrival.isDue limit) = [] :=
    List.filter_eq_nil_iff.2 fun x mem => Bool.eq_false_iff.1 (notDue x mem)
  have all : (line.filter fun x => !x.isDue limit) = line :=
    List.filter_eq_self.2 fun x mem => by rw [notDue x mem, Bool.not_false]
  rw [drain_of_idle (h.perform_of_late late), none', all]
  exact h.gives_nil

theorem InLine.gives_drain (h : a.InLine line) {pops : Nat}
    (enough : (line.filter (Arrival.isDue limit)).length ≤ pops) :
    Gives a (a.drain limit pops) (line.filter (Arrival.isDue limit))
      (line.filter fun x => !x.isDue limit) := by
  induction line generalizing a pops with
  | nil => exact h.gives_drain_of_late (List.forall_mem_nil _) pops
  | cons x rest ih =>
    rcases Nat.lt_or_ge limit x.tick with lt | le
    · exact h.gives_drain_of_late (h.late lt) pops
    · have due : x.isDue limit = true := Arrival.isDue_iff.2 le
      rw [List.filter_cons_of_pos due] at enough ⊢
      rw [List.filter_cons_of_neg (by rw [due]; decide)]
      cases pops with
      | zero => exact absurd enough (Nat.not_succ_le_zero _)
      | succ pops =>
        have pop := h.gives_perform le
        exact pop.trans (ih pop.inLine (Nat.le_of_succ_le_succ enough))

/-! ### Sorting by tick -/

def notLater (x y : Arrival) : Bool := decide (x.tick ≤ y.tick)

theorem notLater_trans (x y z : Arrival) (hxy : notLater x y = true) (hyz : notLater y z = true) :
    notLater x z = true :=
  decide_eq_true (Nat.le_trans (of_decide_eq_true hxy) (of_decide_eq_true hyz))

theorem notLater_total (x y : Arrival) : (notLater x y || notLater y x) = true := by
  simpa [notLater] using Nat.le_total x.tick y.tick

theorem filter_mergeSort (l : List Arrival) (t : Tick) :
    (l.mergeSort notLater).filter (fun x => decide (x.tick = t)) =
      l.filter fun x => decide (x.tick = t) := by
  -- The arrivals of one tick are a sorted part of the list, and so a part of the sorted list. They
  -- are all that it has of this tick, since sorting only rearranges.
  have ties : (l.filter fun x => decide (x.tick = t)).Pairwise fun x y => notLater x y = true := by
    refine List.pairwise_of_forall_mem_list fun x hx y hy => decide_eq_true ?_
    have hx : x.tick = t := of_decide_eq_true (List.mem_filter.1 hx).2
    have hy : y.tick = t := of_decide_eq_true (List.mem_filter.1 hy).2
    rw [hx, hy]
  have part := (List.sublist_mergeSort notLater_trans notLater_total ties
    List.filter_sublist).filter fun x => decide (x.tick = t)
  rw [List.filter_filter] at part
  simp only [Bool.and_self] at part
  have length := ((List.mergeSort_perm l notLater).filter fun x => decide (x.tick = t)).length_eq
  exact (part.eq_of_length length.symm).symm

theorem inOrder_mergeSort {l : List Arrival}
    (numbered : l.Pairwise fun x y => x.number < y.number) :
    InOrder Arrival.before (l.mergeSort notLater) := by
  have byTick := List.pairwise_mergeSort notLater_trans notLater_total l
  refine List.pairwise_iff_forall_sublist.2 fun {x y} pair => ?_
  have le : x.tick ≤ y.tick := of_decide_eq_true (List.pairwise_iff_forall_sublist.1 byTick pair)
  refine Arrival.before_eq_false_iff.2 ((Nat.lt_or_eq_of_le le).imp_right fun same => ⟨same, ?_⟩)
  have both : [x, y].filter (fun z => decide (z.tick = y.tick)) = [x, y] := by simp [same]
  have ties := pair.filter fun z => decide (z.tick = y.tick)
  rw [both, filter_mergeSort] at ties
  have lt : x.number < y.number :=
    List.pairwise_iff_forall_sublist.1 numbered (ties.trans List.filter_sublist)
  exact Nat.le_of_lt lt

theorem pairwise_pending (a : Agenda) : a.pending.Pairwise fun x y => x.number < y.number :=
  a.pairwise_arrivals.filter _

theorem InLine.map_filter_isDue (h : a.InLine line) (limit : Tick) :
    (line.filter (Arrival.isDue limit)).map Arrival.event =
      ((a.pending.filter (Arrival.isDue limit)).map Arrival.event).mergeSort
        fun e f => decide (e.tick ≤ f.tick) := by
  have perm : (line.filter (Arrival.isDue limit)).Perm
      ((a.pending.filter (Arrival.isDue limit)).mergeSort notLater) :=
    (h.pending_perm.symm.filter _).trans (List.mergeSort_perm _ _).symm
  have sorted : InOrder Arrival.before (line.filter (Arrival.isDue limit)) := h.sorted.filter _
  have sorted' : InOrder Arrival.before
      ((a.pending.filter (Arrival.isDue limit)).mergeSort notLater) :=
    inOrder_mergeSort (a.pairwise_pending.filter _)
  have same := List.Perm.eq_of_pairwise (fun x y hx hy hyx hxy => by
    have mem : x ∈ a.arrivals := h.mem_arrivals (List.mem_filter.1 hx).1
    have mem' : y ∈ a.arrivals := h.mem_arrivals (List.mem_filter.1 (perm.mem_iff.2 hy)).1
    exact eq_of_number_eq mem mem' (Arrival.number_eq hxy hyx)) sorted sorted' perm
  rw [same]
  exact List.map_mergeSort fun _ _ _ _ => rfl

/-! ### What the queue promises -/

theorem InLine.first_iff (h : a.InLine line) : a.First x ↔ line.head? = some x := by
  have mem {y : Arrival} : y ∈ a.pending ↔ y ∈ line := h.pending_perm.mem_iff
  cases line with
  | nil => exact ⟨fun first => absurd (mem.1 first.pending) List.not_mem_nil, nofun⟩
  | cons z rest =>
    have ahead := (List.pairwise_cons.1 h.pairwise).1
    have behind := (List.pairwise_cons.1 h.sorted).1
    rw [List.head?_cons, Option.some_inj]
    constructor
    · intro first
      by_contra ne
      have mem' : x ∈ rest := (List.mem_cons.1 (mem.1 first.pending)).resolve_left (Ne.symm ne)
      have early := first.before z (mem.2 List.mem_cons_self) ne
      exact Bool.false_ne_true ((behind x mem').symm.trans early)
    · rintro rfl
      refine ⟨mem.2 List.mem_cons_self, fun y mem' ne => ?_⟩
      exact ahead y ((List.mem_cons.1 (mem.1 mem')).resolve_left ne)

theorem InLine.popDue_eq (h : a.InLine line) (limit : Tick) :
    (a.queue.popDue limit).map (·.1) =
        (line.head?.filter (Arrival.isDue limit)).map Arrival.event ∧
      (a.numbered.popDue limit).map (·.1) = line.head?.filter (Arrival.isDue limit) := by
  rcases h.late_or_due limit with late | ⟨x, rest, rfl, le⟩
  · obtain ⟨list, heap⟩ := h.popDue_of_late late
    have none' : line.head?.filter (Arrival.isDue limit) = none :=
      Option.filter_eq_none_iff.2 fun x head due =>
        Nat.not_lt_of_le (Arrival.isDue_iff.1 due) (late x (List.mem_of_head? head))
    rw [list, heap, none']
    exact ⟨rfl, rfl⟩
  · obtain ⟨left, list, heap, -, -⟩ := h.popDue_of_le le
    have due : x.isDue limit = true := Arrival.isDue_iff.2 le
    rw [list, heap, List.head?_cons, Option.filter_some_pos due]
    exact ⟨rfl, rfl⟩

theorem InLine.dueNumbered_iff (h : a.InLine line) :
    (∃ left, a.numbered.popDue limit = some (x, left)) ↔ a.First x ∧ x.event.tick ≤ limit := by
  have pops : (∃ left, a.numbered.popDue limit = some (x, left)) ↔
      (a.numbered.popDue limit).map (·.1) = some x := by simp
  rw [pops, (h.popDue_eq limit).2, Option.filter_eq_some_iff, h.first_iff, Arrival.isDue_iff,
    Arrival.tick]

theorem InLine.due_iff (h : a.InLine line) :
    (∃ left, a.queue.popDue limit = some (e, left)) ↔
      ∃ x, a.First x ∧ x.event = e ∧ e.tick ≤ limit := by
  have pops : (∃ left, a.queue.popDue limit = some (e, left)) ↔
      (a.queue.popDue limit).map (·.1) = some e := by simp
  rw [pops, (h.popDue_eq limit).1, Option.map_eq_some_iff]
  refine exists_congr fun x => ?_
  rw [Option.filter_eq_some_iff, h.first_iff, Arrival.isDue_iff, Arrival.tick, and_assoc]
  refine and_congr_right fun _ => and_comm.trans (and_congr_right fun same => ?_)
  rw [same]

theorem InLine.leaves (h : a.InLine line) (first : a.First x) (le : x.tick ≤ limit) :
    (a.perform (.popDue limit)).pending = a.pending.erase x ∧
      (a.perform (.popDue limit)).fired = a.fired ++ [x.event] := by
  obtain ⟨rest, rfl⟩ := List.head?_eq_some_iff.1 (h.first_iff.1 first)
  have pop := h.gives_perform le
  have different : a.pending.Nodup := a.nodup_arrivals.filter _
  constructor
  · rw [pop.pending_eq, different.erase_eq_filter]
    exact List.filter_congr fun y _ => by simp [bne, beq_eq_decide]
  · rw [pop.inLine.fired, pop.popped, List.map_append, ← h.fired]
    rfl

theorem InLine.idle (h : a.InLine line) (late : ∀ x, a.First x → limit < x.tick) :
    a.perform (.popDue limit) = a := by
  rcases h.late_or_due limit with late' | ⟨x, rest, rfl, le⟩
  · exact h.perform_of_late late'
  · exact absurd (late x (h.first_iff.2 rfl)) (Nat.not_lt_of_le le)

theorem InLine.nextTick_eq (h : a.InLine line) :
    a.queue.nextTick = line.head?.map Arrival.tick := by
  rw [EventQueue.nextTick, h.events, List.head?_map, Option.map_map]
  rfl

theorem InLine.nextTick_eq_min? (h : a.InLine line) :
    a.queue.nextTick = (a.pending.map Arrival.tick).min? := by
  have ticks := h.pending_perm.map Arrival.tick
  rw [h.nextTick_eq]
  cases line with
  | nil => rw [ticks.eq_nil]; rfl
  | cons x rest =>
    refine (List.min?_eq_some_iff.2 ⟨ticks.mem_iff.2 List.mem_cons_self, fun t mem => ?_⟩).symm
    obtain ⟨y, mem', rfl⟩ := List.mem_map.1 (ticks.mem_iff.1 mem)
    exact h.head_le y mem'

theorem InLine.drain_spec (h : a.InLine line) {pops : Nat}
    (enough : (a.pending.filter (Arrival.isDue limit)).length ≤ pops) :
    (a.drain limit pops).fired = a.fired ++
        ((a.pending.filter (Arrival.isDue limit)).map Arrival.event).mergeSort
          (fun e f => decide (e.tick ≤ f.tick)) ∧
      (a.drain limit pops).pending = a.pending.filter (fun x => !x.isDue limit) ∧
      (a.drain limit pops).queue.popDue limit = none := by
  rw [(h.pending_perm.filter _).length_eq] at enough
  have drain := h.gives_drain enough
  refine ⟨?_, ?_, ?_⟩
  · rw [drain.inLine.fired, drain.popped, List.map_append, ← h.fired, h.map_filter_isDue]
  · rw [drain.pending_eq]
    refine List.filter_congr fun x mem => ?_
    have mem : x ∈ line := h.pending_perm.mem_iff.1 mem
    simp [mem]
  · refine (drain.inLine.popDue_of_late fun x mem => ?_).1
    have notDue := (List.mem_filter.1 mem).2
    simpa [Arrival.isDue] using notDue

theorem InLine.stable (h : a.InLine line) : a.Stable where
  due _ _ := h.due_iff
  dueNumbered _ _ := h.dueNumbered_iff
  leaves _ _ := h.leaves
  idle _ := h.idle
  next := h.nextTick_eq_min?
  nextNumbered := by rw [NumberedQueue.nextTick, h.top?_eq, h.nextTick_eq]
  once := (List.nodup_append.1 h.nodup).1
  fired := h.fired
  kept := (h.heap.symm.append_left _).trans h.all
  waiting := h.events ▸ (h.pending_perm.map _).symm
  drained _ _ := h.drain_spec

/-- A queue is a stable priority queue, whatever is scheduled and popped in whatever order. -/
theorem stable_run (calls : List QueueCall) : (run {} calls).Stable := by
  obtain ⟨line, h⟩ := inLine_run calls
  exact h.stable

/-- Events of one tick fire as they were scheduled. -/
example : (run {} [.schedule ⟨10, 2, .process⟩, .schedule ⟨5, 1, .sendRequest⟩,
    .schedule ⟨10, 0, .sendResponse⟩, .popDue 10, .popDue 10, .popDue 10]).fired =
      [⟨5, 1, .sendRequest⟩, ⟨10, 2, .process⟩, ⟨10, 0, .sendResponse⟩] := rfl

end Expander.Agenda
