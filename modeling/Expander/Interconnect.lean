import Expander.Error
import Expander.Packet
import Expander.StableOrder

/-!
The interconnect between the host and the memory targets.

The interconnect routes an access to the target whose range holds all of it. It remembers the route
that it used last and tries that one first.
-/

set_option autoImplicit false

namespace Expander

/-- A range and the component that serves it. -/
structure Route where
  range : AddressRange
  target : ComponentId
  name : String
deriving DecidableEq, Repr

structure Interconnect where
  width : Nat
  latency : Tick
  clock : Tick
  routes : List Route := []
  /-- The position of the route that was used last. -/
  lastHit : Nat := 0
deriving DecidableEq, Repr

namespace Interconnect

/-- Adds a route; fails when its range overlaps that of another route. -/
def addRoute (n : Interconnect) (route : Route) : Except ConfigError Interconnect :=
  match n.routes.find? fun r => r.range.overlaps route.range with
  | some other => .error (.overlappingRanges other.range other.name route.range route.name)
  | none =>
    .ok { n with
      routes := insertStable (fun a b => decide (a.range.base < b.range.base)) route n.routes
      lastHit := 0 }

def takes (addr size : Nat) (r : Route) : Bool := r.range.containsAccess addr size

/-- The target of an access by plain search of the routes. -/
def decode? (n : Interconnect) (addr size : Nat) : Option ComponentId :=
  (n.routes.find? (takes addr size)).map (·.target)

/-- The target of an access, trying the last used route first, and the interconnect that remembers
the route used now. -/
def route (n : Interconnect) (addr size : Nat) : Option ComponentId × Interconnect :=
  match n.routes[n.lastHit]?.filter (takes addr size) with
  | some r => (some r.target, n)
  | none =>
    match n.routes.findIdx? (takes addr size) with
    | none => (none, n)
    | some index => (n.routes[index]?.map (·.target), { n with lastHit := index })

/-- The time that `bytes` take: the fixed latency and whole beats; a packet without data takes one
beat. -/
def transitTime (n : Interconnect) (bytes : Nat) : Tick :=
  n.latency + ceilDiv (max bytes 1) (max n.width 1) * n.clock

end Interconnect

end Expander
