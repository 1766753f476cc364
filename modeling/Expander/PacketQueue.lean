import Expander.Packet

/-!
Queues of packets, most of them bounded, in which each packet waits until it is ready.

Packets leave in the order in which they came, so a packet that is not ready holds back the ones
behind it.
-/

set_option autoImplicit false

namespace Expander

structure Waiting where
  packet : Packet
  ready : Tick
deriving DecidableEq, Repr

/-- Waiting packets, first in first out, at most `capacity` of them if there is one. -/
structure PacketQueue where
  /-- The waiting packets; the first leaves next. -/
  entries : List Waiting := []
  /-- The number of packets from which on nothing is pushed. -/
  capacity : Option Nat
deriving DecidableEq, Repr

namespace PacketQueue

def empty (capacity : Nat) : PacketQueue := { capacity := some capacity }

/-- A queue without packets and without a limit. -/
def unbounded : PacketQueue := { capacity := none }

def size (q : PacketQueue) : Nat := q.entries.length

def isEmpty (q : PacketQueue) : Bool := q.entries.isEmpty

/-- Whether a push is refused. -/
def isFull (q : PacketQueue) : Bool := q.capacity.any fun limit => decide (limit ≤ q.entries.length)

/-- Appends a packet, unless the queue is full. -/
def push? (q : PacketQueue) (packet : Packet) (ready : Tick) : Option PacketQueue :=
  if q.isFull then none else some { q with entries := q.entries ++ [⟨packet, ready⟩] }

/-- Puts a packet that was taken and refused back in front. -/
def pushFront (q : PacketQueue) (packet : Packet) (ready : Tick) : PacketQueue :=
  { q with entries := ⟨packet, ready⟩ :: q.entries }

def popReady? (q : PacketQueue) (now : Tick) : Option (Packet × PacketQueue) :=
  match q.entries with
  | [] => none
  | w :: rest => if w.ready ≤ now then some (w.packet, { q with entries := rest }) else none

/-- The tick from which the first packet may leave. -/
def headReady (q : PacketQueue) : Option Tick := q.entries.head?.map (·.ready)

/-- The number of packets that are not ready at `now`. -/
def inFlight (q : PacketQueue) (now : Tick) : Nat :=
  q.entries.countP fun w => decide (now < w.ready)

/-- The number of packets that are ready at `now`. -/
def buffered (q : PacketQueue) (now : Tick) : Nat :=
  q.entries.countP fun w => decide (w.ready ≤ now)

end PacketQueue

end Expander
