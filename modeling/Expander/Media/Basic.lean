import Expander.AddressDecoder
import Expander.Packet
import Expander.Statistics

/-!
What the two media technologies share: the state of a bank, the timing of one burst, and the
penalties for a change of direction or rank on the data bus.

`MediaChannel` is the contract between a channel and the controller in front of it.
-/

set_option autoImplicit false

namespace Expander

structure BankState where
  openRow : Option Nat := none
  lastActivate : Option Tick := none
  lastPrecharge : Option Tick := none
  refreshDue : Tick := 0
  activateAllowedAt : Tick := 0
  columnAllowedAt : Tick := 0
  prechargeAllowedAt : Tick := 0
deriving DecidableEq, Repr, Inhabited

structure MediaAccess where
  /-- The activate, unless the row was open. -/
  activatedAt : Option Tick
  /-- The precharge, when another row had to be closed. -/
  prechargedAt : Option Tick
  issuedAt : Tick
  /-- The end of the last beat of data. -/
  readyAt : Tick
  rowHit : Bool
deriving DecidableEq, Repr

structure BusBurst where
  rank : Nat
  /-- The bank group within the rank. -/
  group : Nat
  kind : AccessKind
  dataStart : Tick
  dataEnd : Tick
deriving DecidableEq, Repr

structure Turnaround where
  writeToRead : Tick
  readToWrite : Tick
  rankSwitch : Tick
deriving DecidableEq, Repr

namespace Turnaround

/-- The penalty for a change from one direction to another. -/
def directionGap (t : Turnaround) : AccessKind → AccessKind → Tick
  | .read, .write => t.readToWrite
  | .write, .read => t.writeToRead
  | .read, .read | .write, .write => 0

/-- The idle time on the bus between `last` and a burst of `kind` on `rank`: the larger of the
penalties for the change of rank and of direction. -/
def gap (t : Turnaround) (last : BusBurst) (rank : Nat) (kind : AccessKind) : Tick :=
  max (if last.rank = rank then 0 else t.rankSwitch) (t.directionGap last.kind kind)

end Turnaround

/-- The timing contract of one media channel. -/
class MediaChannel (μ : Type) where
  access : μ → Coordinate → AccessKind → Tick → MediaAccess × μ
  isRowHit : μ → Coordinate → Bool
  /-- The latency of an access to an idle channel with no row open. -/
  staticLatency : μ → Tick
  /-- The spacing of commands on the data bus. -/
  commandSlot : μ → Tick
  statistics : μ → MediaStatistics

end Expander
