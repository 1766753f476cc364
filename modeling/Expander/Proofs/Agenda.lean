import Expander.EventQueue
import Expander.Heap
import Mathlib.Data.List.Nodup

/-!
Calls to an event queue, and where its events are.

The queue is a list in firing order, where an event is put behind all that are not later. Another
way to find the next event is a heap of arrivals, that is, of events with the number of those
scheduled before them. No two arrivals have one rank, so the shape of the heap decides nothing:
whatever is scheduled and popped, the list and the heap hold the same line of arrivals (`InLine`),
and give its head away (`inLine_run`).
-/

set_option autoImplicit false

namespace Expander

/-- An event, and the number of events that were scheduled before it. -/
@[ext]
structure Arrival where
  event : Event
  number : Nat
deriving DecidableEq, Repr

namespace Arrival

variable {a b : Arrival} {limit : Tick}

def tick (a : Arrival) : Tick := a.event.tick

def before (a b : Arrival) : Bool :=
  decide (a.tick < b.tick ∨ a.tick = b.tick ∧ a.number < b.number)

def isDue (limit : Tick) (a : Arrival) : Bool := decide (a.tick ≤ limit)

theorem isDue_iff : a.isDue limit = true ↔ a.tick ≤ limit := decide_eq_true_iff

theorem before_eq_false_iff :
    a.before b = false ↔ b.tick < a.tick ∨ b.tick = a.tick ∧ b.number ≤ a.number := by
  simp only [before, decide_eq_false_iff_not]
  grind

theorem isRanking_before : IsRanking before where
  asymm a b h := by
    have first : a.tick < b.tick ∨ a.tick = b.tick ∧ a.number < b.number := of_decide_eq_true h
    rw [before_eq_false_iff]
    exact first.imp_right fun same => ⟨same.1, Nat.le_of_lt same.2⟩
  trans a b c hab hbc := by
    rw [before_eq_false_iff] at hab hbc ⊢
    grind

theorem number_eq (hab : a.before b = false) (hba : b.before a = false) : a.number = b.number := by
  rw [before_eq_false_iff] at hab hba
  grind

theorem before_of_number_lt (h : b.number < a.number) : a.before b = a.event.before b.event := by
  have late : ¬a.number < b.number := Nat.not_lt_of_lt h
  simp [before, Event.before, tick, late]

end Arrival

/-- A heap that numbers its events as they are scheduled. -/
structure NumberedQueue where
  heap : Heap Arrival := {}
  /-- The number of the next event. -/
  next : Nat := 0

namespace NumberedQueue

def schedule (q : NumberedQueue) (e : Event) : NumberedQueue :=
  ⟨q.heap.push Arrival.before ⟨e, q.next⟩, q.next + 1⟩

def popDue (q : NumberedQueue) (limit : Tick) : Option (Arrival × NumberedQueue) :=
  match q.heap.top? with
  | none => none
  | some top =>
    if limit < top.tick then none
    else (q.heap.pop? Arrival.before).map fun (x, rest) => (x, ⟨rest, q.next⟩)

def nextTick (q : NumberedQueue) : Option Tick := q.heap.top?.map Arrival.tick

end NumberedQueue

/-- A call to a queue. -/
inductive QueueCall where
  | schedule (e : Event)
  | popDue (limit : Tick)

/-- Two queues that get the same calls, and what has become of the events. -/
structure Agenda where
  queue : EventQueue := {}
  numbered : NumberedQueue := {}
  /-- The events in the order in which they were scheduled. -/
  scheduled : List Event := []
  /-- What the queue has given away. -/
  fired : List Event := []
  /-- What the heap has given away. -/
  popped : List Arrival := []

namespace Agenda

variable {a b : Agenda} {line rest : List Arrival} {x y : Arrival} {e : Event} {limit : Tick}

def perform (a : Agenda) : QueueCall → Agenda
  | .schedule e =>
    { a with
      queue := a.queue.schedule e
      numbered := a.numbered.schedule e
      scheduled := a.scheduled ++ [e] }
  | .popDue limit =>
    { a with
      queue := ((a.queue.popDue limit).map (·.2)).getD a.queue
      numbered := ((a.numbered.popDue limit).map (·.2)).getD a.numbered
      fired := a.fired ++ ((a.queue.popDue limit).map (·.1)).toList
      popped := a.popped ++ ((a.numbered.popDue limit).map (·.1)).toList }

def run (a : Agenda) (calls : List QueueCall) : Agenda := calls.foldl perform a

def arrivals (a : Agenda) : List Arrival := a.scheduled.zipIdx.map fun (e, n) => ⟨e, n⟩

def pending (a : Agenda) : List Arrival := a.arrivals.filter fun x => decide (x ∉ a.popped)

/-! ### Arrivals -/

theorem mem_arrivals : x ∈ a.arrivals ↔ a.scheduled[x.number]? = some x.event := by
  obtain ⟨event, number⟩ := x
  simp [arrivals, List.mem_zipIdx_iff_getElem?]

theorem pairwise_arrivals (a : Agenda) : a.arrivals.Pairwise fun x y => x.number < y.number := by
  have numbers : a.arrivals.map Arrival.number = List.range' 0 a.scheduled.length := by
    rw [arrivals, List.map_map]
    exact List.zipIdx_map_snd 0 a.scheduled
  rw [← List.pairwise_map (R := (· < ·)), numbers]
  exact List.pairwise_lt_range'

theorem nodup_arrivals (a : Agenda) : a.arrivals.Nodup :=
  a.pairwise_arrivals.imp fun {x y} (lt : x.number < y.number) same =>
    Nat.ne_of_lt lt (congrArg Arrival.number same)

theorem eq_of_number_eq (hx : x ∈ a.arrivals) (hy : y ∈ a.arrivals) (same : x.number = y.number) :
    x = y := by
  rw [mem_arrivals] at hx hy
  rw [same] at hx
  exact Arrival.ext (Option.some.inj (hx.symm.trans hy)) same

theorem number_lt (hx : x ∈ a.arrivals) : x.number < a.scheduled.length :=
  (List.getElem?_eq_some_iff.1 (mem_arrivals.1 hx)).1

theorem arrivals_schedule (a : Agenda) (e : Event) :
    (a.perform (.schedule e)).arrivals = a.arrivals ++ [⟨e, a.scheduled.length⟩] := by
  simp [arrivals, perform, List.zipIdx_append]

/-! ### The line of arrivals -/

/-- The list and the heap both hold the arrivals of a line, which is in firing order. -/
structure InLine (a : Agenda) (line : List Arrival) : Prop where
  events : a.queue.events = line.map Arrival.event
  heap : line.Perm a.numbered.heap.toList
  ordered : a.numbered.heap.Ordered Arrival.before
  sorted : InOrder Arrival.before line
  next : a.numbered.next = a.scheduled.length
  all : (a.popped ++ line).Perm a.arrivals
  fired : a.fired = a.popped.map Arrival.event

namespace InLine

theorem mem_arrivals (h : a.InLine line) (mem : x ∈ line) : x ∈ a.arrivals :=
  h.all.mem_iff.1 (List.mem_append_right _ mem)

theorem nodup (h : a.InLine line) : (a.popped ++ line).Nodup := h.all.nodup_iff.2 a.nodup_arrivals

theorem notMem_popped (h : a.InLine line) (mem : x ∈ line) : x ∉ a.popped := fun gone =>
  List.disjoint_of_nodup_append h.nodup gone mem

theorem pending_perm (h : a.InLine line) : a.pending.Perm line := by
  have gone : a.popped.filter (fun x => decide (x ∉ a.popped)) = [] := by simp
  have waits : line.filter (fun x => decide (x ∉ a.popped)) = line :=
    List.filter_eq_self.2 fun x mem => decide_eq_true (h.notMem_popped mem)
  have parts := h.all.symm.filter fun x => decide (x ∉ a.popped)
  rwa [List.filter_append, gone, waits] at parts

theorem pairwise (h : a.InLine line) : line.Pairwise fun x y => x.before y = true := by
  have different : line.Nodup := (List.nodup_append.1 h.nodup).2.1
  refine (h.sorted.and different).imp_of_mem fun {x y} hx hy both => ?_
  obtain ⟨notBefore, ne⟩ := both
  by_contra notAfter
  have number := Arrival.number_eq (Bool.eq_false_iff.2 notAfter) notBefore
  exact ne (eq_of_number_eq (h.mem_arrivals hx) (h.mem_arrivals hy) number)

theorem head_le (h : a.InLine (x :: rest)) : ∀ y ∈ x :: rest, x.tick ≤ y.tick := by
  refine List.forall_mem_cons.2 ⟨Nat.le_refl _, fun y mem => ?_⟩
  have notBefore : y.before x = false := (List.pairwise_cons.1 h.sorted).1 y mem
  rcases Arrival.before_eq_false_iff.1 notBefore with sooner | ⟨same, -⟩
  · exact Nat.le_of_lt sooner
  · exact Nat.le_of_eq same

theorem late (h : a.InLine (x :: rest)) (lt : limit < x.tick) : ∀ y ∈ x :: rest, limit < y.tick :=
  fun y mem => Nat.lt_of_lt_of_le lt (h.head_le y mem)

theorem late_or_due (h : a.InLine line) (limit : Tick) :
    (∀ x ∈ line, limit < x.tick) ∨ ∃ x rest, line = x :: rest ∧ x.tick ≤ limit := by
  cases line with
  | nil => exact .inl (List.forall_mem_nil _)
  | cons x rest => exact (Nat.lt_or_ge limit x.tick).imp h.late fun le => ⟨x, rest, rfl, le⟩

end InLine

/-! ### Scheduling -/

theorem map_insertStable (newest : ∀ y ∈ line, y.number < x.number) :
    (insertStable Arrival.before x line).map Arrival.event =
      insertStable Event.before x.event (line.map Arrival.event) := by
  induction line with
  | nil => rfl
  | cons y rest ih =>
    obtain ⟨newer, newest'⟩ := List.forall_mem_cons.1 newest
    rw [List.map_cons, insertStable, insertStable, Arrival.before_of_number_lt newer]
    split
    · rfl
    · rw [List.map_cons, ih newest']

theorem InLine.schedule (h : a.InLine line) (e : Event) :
    (a.perform (.schedule e)).InLine
      (insertStable Arrival.before ⟨e, a.scheduled.length⟩ line) where
  events := by
    rw [map_insertStable fun y mem => number_lt (h.mem_arrivals mem), ← h.events]
    rfl
  heap := by
    have added := Heap.push_perm Arrival.before a.numbered.heap ⟨e, a.scheduled.length⟩
    simp only [perform, NumberedQueue.schedule, h.next]
    exact (insertStable_perm ..).trans ((h.heap.cons _).trans added.symm)
  ordered := Heap.Ordered.push Arrival.isRanking_before h.ordered _
  sorted := InOrder.insertStable Arrival.isRanking_before h.sorted
  next := by simp [perform, NumberedQueue.schedule, h.next]
  all := by
    rw [arrivals_schedule]
    have inserted := (insertStable_perm Arrival.before ⟨e, a.scheduled.length⟩ line).append_left
      a.popped
    exact inserted.trans (List.perm_middle.trans ((h.all.cons _).trans
      (List.perm_append_singleton _ _).symm))
  fired := h.fired

/-! ### Popping -/

theorem InLine.pop_cons (h : a.InLine (x :: rest)) :
    ∃ left, a.numbered.heap.top? = some x ∧
      a.numbered.heap.pop? Arrival.before = some (x, left) ∧ rest.Perm left.toList ∧
        left.Ordered Arrival.before := by
  cases popped : a.numbered.heap.pop? Arrival.before with
  | none => exact absurd (h.heap.trans (.of_eq (Heap.pop?_eq_none_iff.1 popped))) (by simp)
  | some pair =>
    obtain ⟨top, left⟩ := pair
    obtain ⟨_, _, isTop, -, -⟩ := Heap.pop?_parts popped
    -- The heap gives a first value away, and in a line only the head is one.
    have parts := Heap.pop?_perm popped
    have mem : top ∈ x :: rest := h.heap.mem_iff.2 (parts.mem_iff.2 List.mem_cons_self)
    have notBefore : x.before top = false :=
      Heap.pop?_first Arrival.isRanking_before h.ordered popped
        (h.heap.mem_iff.1 List.mem_cons_self)
    have same : top = x := by
      refine (List.mem_cons.1 mem).resolve_right fun behind => ?_
      have early := (List.pairwise_cons.1 h.pairwise).1 top behind
      exact Bool.false_ne_true (notBefore.symm.trans early)
    subst same
    exact ⟨left, isTop, rfl, (h.heap.trans parts).cons_inv,
      Heap.Ordered.pop? Arrival.isRanking_before h.ordered popped⟩

theorem InLine.popDue_of_le (h : a.InLine (x :: rest)) (le : x.tick ≤ limit) :
    ∃ left, a.queue.popDue limit = some (x.event, ⟨rest.map Arrival.event⟩) ∧
      a.numbered.popDue limit = some (x, ⟨left, a.numbered.next⟩) ∧ rest.Perm left.toList ∧
        left.Ordered Arrival.before := by
  obtain ⟨left, isTop, popped, waits, ordered⟩ := h.pop_cons
  have due : x.event.tick ≤ limit := le
  refine ⟨left, ?_, ?_, waits, ordered⟩
  · rw [EventQueue.popDue, h.events, List.map_cons]
    exact if_pos due
  · simp only [NumberedQueue.popDue, isTop, popped, if_neg (Nat.not_lt_of_le le), Option.map_some]

theorem InLine.top?_eq (h : a.InLine line) : a.numbered.heap.top? = line.head? := by
  cases line with
  | nil =>
    have empty : a.numbered.heap.tree.toList = [] := h.heap.symm.eq_nil
    rw [Heap.top?]
    cases tree : a.numbered.heap.tree with
    | empty => rfl
    | node left value right =>
      rw [tree] at empty
      cases empty
  | cons x rest =>
    obtain ⟨_, isTop, -⟩ := h.pop_cons
    exact isTop

theorem InLine.popDue_of_late (h : a.InLine line) (late : ∀ x ∈ line, limit < x.tick) :
    a.queue.popDue limit = none ∧ a.numbered.popDue limit = none := by
  have top := h.top?_eq
  rw [EventQueue.popDue, NumberedQueue.popDue, h.events, top]
  cases line with
  | nil => exact ⟨rfl, rfl⟩
  | cons x rest =>
    have lt : limit < x.tick := late x List.mem_cons_self
    exact ⟨if_neg (Nat.not_le_of_lt lt), if_pos lt⟩

theorem InLine.perform_of_late (h : a.InLine line) (late : ∀ x ∈ line, limit < x.tick) :
    a.perform (.popDue limit) = a := by
  obtain ⟨list, heap⟩ := h.popDue_of_late late
  simp [perform, list, heap]

/-- Some arrivals have left from `a` to `b`, and others are still in line. -/
structure Gives (a b : Agenda) (taken left : List Arrival) : Prop where
  inLine : b.InLine left
  popped : b.popped = a.popped ++ taken
  scheduled : b.scheduled = a.scheduled

theorem InLine.gives_nil (h : a.InLine line) : Gives a a [] line :=
  ⟨h, (List.append_nil _).symm, rfl⟩

theorem Gives.trans {m : Agenda} {taken taken' left left' : List Arrival}
    (g : Gives a m taken left) (g' : Gives m b taken' left') :
    Gives a b (taken ++ taken') left' where
  inLine := g'.inLine
  popped := by rw [g'.popped, g.popped, List.append_assoc]
  scheduled := g'.scheduled.trans g.scheduled

theorem Gives.pending_eq {taken left : List Arrival} (g : Gives a b taken left) :
    b.pending = a.pending.filter fun x => decide (x ∉ taken) := by
  rw [pending, pending, List.filter_filter, arrivals, g.scheduled, g.popped]
  exact List.filter_congr fun x _ => by simp [and_comm]

theorem InLine.gives_perform (h : a.InLine (x :: rest)) (le : x.tick ≤ limit) :
    Gives a (a.perform (.popDue limit)) [x] rest := by
  obtain ⟨left, list, heap, waits, ordered⟩ := h.popDue_of_le le
  have popped : (a.perform (.popDue limit)).popped = a.popped ++ [x] := by simp [perform, heap]
  refine ⟨⟨?_, ?_, ?_, (List.pairwise_cons.1 h.sorted).2, ?_, ?_, ?_⟩, popped, rfl⟩
  · simp [perform, list]
  · simpa [perform, heap] using waits
  · simpa [perform, heap] using ordered
  · simpa [perform, heap] using h.next
  · rw [popped, List.append_assoc]
    exact h.all
  · simp [perform, heap, list, h.fired]

/-! ### Every run -/

theorem InLine.perform (h : a.InLine line) (call : QueueCall) :
    ∃ line', (a.perform call).InLine line' := by
  cases call with
  | schedule e => exact ⟨_, h.schedule e⟩
  | popDue limit =>
    rcases h.late_or_due limit with late | ⟨x, rest, rfl, le⟩
    · exact ⟨line, by rwa [h.perform_of_late late]⟩
    · exact ⟨rest, (h.gives_perform le).inLine⟩

theorem InLine.run (h : a.InLine line) (calls : List QueueCall) :
    ∃ line', (a.run calls).InLine line' := by
  induction calls generalizing a line with
  | nil => exact ⟨line, h⟩
  | cons call calls ih =>
    obtain ⟨line', h'⟩ := h.perform call
    exact ih h'

theorem inLine_run (calls : List QueueCall) : ∃ line, (run {} calls).InLine line :=
  have start : ({} : Agenda).InLine [] := ⟨rfl, .refl _, trivial, .nil, rfl, .refl _, rfl⟩
  start.run calls

end Agenda

end Expander
