import Expander.EventQueue

/-!
What passes between a stage and its surroundings.

A stage answers an offered packet with a `Delivery`, and asks for later events or for retries with
`Action`s, in order. Its answer to a retry is wake-ups only, so that a retry never sets off another
one.
-/

set_option autoImplicit false

namespace Expander

/-- The outcome of offering a packet to a stage. -/
inductive Delivery where
  | accepted
  /-- The stage has no room; it hands the packet back and calls for a retry later. -/
  | busy (packet : Packet)
  /-- The stage does not serve the addresses of the packet. -/
  | unroutable (packet : Packet)
deriving DecidableEq, Repr

/-- The part of a stage in an access without queueing. -/
inductive AtomicHop where
  /-- The access goes on towards the memory after a delay. -/
  | forward (delay : Tick)
  /-- The access ended here after a delay; the packet is now its response. -/
  | complete (delay : Tick)
  /-- The stage does not serve the addresses of the packet. -/
  | unroutable
deriving DecidableEq, Repr

/-- A request of a stage for an event of its own. -/
structure Wakeup where
  tick : Tick
  /-- What the stage is asked to do then. -/
  kind : EventKind
deriving DecidableEq, Repr

/-- A side effect that a stage asks for. -/
inductive Action where
  | wake (wakeup : Wakeup)
  /-- The peer towards the host may resend a refused request. -/
  | retryRequest
  /-- The peer towards the memory may resend a refused response. -/
  | retryResponse
deriving DecidableEq, Repr

def Action.at (tick : Tick) (kind : EventKind) : Action := .wake ⟨tick, kind⟩

/-- What a call on a stage leaves behind: the stage, the actions it asks for, and the answer. -/
structure Reply (σ α : Type) where
  stage : σ
  actions : List Action
  answer : α

/-- The reply of another type of stage with the same actions and answer. -/
def Reply.map {σ τ α : Type} (f : σ → τ) (r : Reply σ α) : Reply τ α :=
  ⟨f r.stage, r.actions, r.answer⟩

/-- The event at which the head of a queue that is ready at `ready` may leave, seen from `now`. -/
def sendAfter (kind : EventKind) (now : Tick) (ready : Option Tick) : List Wakeup :=
  (ready.map fun tick => ⟨max tick now, kind⟩).toList

end Expander
