import Expander.Packet
import Expander.StableOrder

/-!
Pending events in the order in which they fire.

Events fire by tick, and events of one tick in the order in which they were scheduled. The queue is
the list in that order: `schedule` inserts behind every event that is not later. So it only adds the
event (`events_schedule_perm`) and keeps the order (`Sorted.schedule`).
-/

set_option autoImplicit false

namespace Expander

/-- What a component is asked to do when its event fires. -/
inductive EventKind where
  /-- Try to send the head of the request path towards the memory. -/
  | sendRequest
  /-- Try to send the head of the response path towards the host. -/
  | sendResponse
  /-- Run the component's own processing. -/
  | process
deriving DecidableEq, Repr

structure Event where
  tick : Tick
  target : ComponentId
  /-- What the component is asked to do. -/
  kind : EventKind
deriving DecidableEq, Repr

/-- Whether an event fires before another one, whichever was scheduled first. -/
def Event.before (a b : Event) : Bool := decide (a.tick < b.tick)

theorem Event.isRanking_before : IsRanking Event.before := .byKey Event.tick

/-- The pending events, in firing order. -/
structure EventQueue where
  /-- The pending events; the first fires next. -/
  events : List Event := []
deriving DecidableEq, Repr

namespace EventQueue

/-- Adds a pending event behind every event that is not later. -/
def schedule (q : EventQueue) (e : Event) : EventQueue :=
  ⟨insertStable Event.before e q.events⟩

/-- The earliest event, if it fires at or before `limit`, and the queue without it. -/
def popDue (q : EventQueue) (limit : Tick) : Option (Event × EventQueue) :=
  match q.events with
  | [] => none
  | e :: rest => if e.tick ≤ limit then some (e, ⟨rest⟩) else none

def pop (q : EventQueue) : Option (Event × EventQueue) :=
  match q.events with
  | [] => none
  | e :: rest => some (e, ⟨rest⟩)

def nextTick (q : EventQueue) : Option Tick := q.events.head?.map (·.tick)

def size (q : EventQueue) : Nat := q.events.length

def isEmpty (q : EventQueue) : Bool := q.events.isEmpty

/-- The list is in firing order. -/
def Sorted (q : EventQueue) : Prop := InOrder Event.before q.events

theorem events_schedule_perm (q : EventQueue) (e : Event) :
    (q.schedule e).events.Perm (e :: q.events) :=
  insertStable_perm Event.before e q.events

theorem Sorted.schedule {q : EventQueue} (h : q.Sorted) (e : Event) : (q.schedule e).Sorted :=
  InOrder.insertStable Event.isRanking_before h

theorem Sorted.popDue {q rest : EventQueue} (h : q.Sorted) {limit : Tick} {e : Event}
    (hpop : q.popDue limit = some (e, rest)) : rest.Sorted := by
  obtain ⟨events⟩ := q
  cases events with
  | nil => cases hpop
  | cons first others =>
    simp only [EventQueue.popDue] at hpop
    split at hpop
    · cases hpop
      exact (List.pairwise_cons.1 h).2
    · cases hpop

end EventQueue

end Expander
