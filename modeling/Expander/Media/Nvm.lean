import Expander.Media.Basic

/-!
The timing of one channel of non-volatile memory.

Each bank keeps the row that it read last in a buffer, and a read of that row skips the array. A
write crosses the data bus first and then keeps its bank busy. There is no refresh.
-/

set_option autoImplicit false

namespace Expander

/-- The timing parameters of non-volatile memory, in ticks. -/
structure NvmTiming where
  arrayRead : Tick
  arrayWrite : Tick
  send : Tick
  /-- The duration of a burst on the data bus. -/
  burst : Tick
  writeToRead : Tick
  readToWrite : Tick
  rankSwitch : Tick
deriving DecidableEq, Repr, Inhabited

def NvmTiming.turnaround (t : NvmTiming) : Turnaround :=
  ⟨t.writeToRead, t.readToWrite, t.rankSwitch⟩

/-- One channel of non-volatile memory. A bank is busy until it allows an activate. -/
structure Nvm where
  timing : NvmTiming
  geometry : Geometry
  banks : Array BankState
  lastBurst : Option BusBurst := none
  counters : MediaStatistics := {}
deriving DecidableEq, Repr

namespace Nvm

def create (geometry : Geometry) (timing : NvmTiming) : Nvm :=
  { timing, geometry
    banks := Array.replicate (geometry.ranksPerChannel * geometry.banksPerRank) {} }

def bankIndex (m : Nvm) (c : Coordinate) : Nat :=
  (c.rank * m.geometry.banksPerRank + c.bank % m.geometry.banksPerRank) % m.banks.size

def bankAt (m : Nvm) (index : Nat) : BankState := m.banks.getD index {}

def updateBank (m : Nvm) (index : Nat) (f : BankState → BankState) : Nvm :=
  { m with banks := m.banks.modify index f }

/-- The start of data that is ready at `ready`, once the bus is free, and whether the bus changes
direction or rank for it. -/
def busSlot (m : Nvm) (rank : Nat) (kind : AccessKind) (ready : Tick) : Tick × Bool :=
  match m.lastBurst with
  | none => (ready, false)
  | some last =>
    let gap := m.timing.turnaround.gap last rank kind
    (max (max ready (last.dataStart + m.timing.burst)) (last.dataEnd + gap), decide (0 < gap))

/-- Puts a burst on the bus and counts its turnaround. -/
def commitBurst (m : Nvm) (rank : Nat) (kind : AccessKind) (dataStart : Tick)
    (turnaround : Bool) : Nvm :=
  { m with
    lastBurst := some ⟨rank, 0, kind, dataStart, dataStart + m.timing.burst⟩
    counters := { m.counters with
      busTurnarounds := m.counters.busTurnarounds + if turnaround then 1 else 0 } }

def accessRead (m : Nvm) (c : Coordinate) (earliest : Tick) : MediaAccess × Nvm :=
  let t := m.timing
  let index := m.bankIndex c
  let bank := m.bankAt index
  let issuedAt := max earliest bank.activateAllowedAt
  let rowHit := bank.openRow == some c.row
  let ready := (if rowHit then issuedAt else issuedAt + t.arrayRead) + t.send
  let slot := m.busSlot c.rank .read ready
  let buffered := m.updateBank index fun b =>
    { b with
      openRow := some c.row
      lastActivate := if rowHit then b.lastActivate else some issuedAt
      activateAllowedAt := ready }
  let served := buffered.commitBurst c.rank .read slot.1 slot.2
  let s := served.counters
  ({ activatedAt := if rowHit then none else some issuedAt, prechargedAt := none
     issuedAt, readyAt := slot.1 + t.burst, rowHit },
    { served with counters := { s with
        rowHits := s.rowHits + if rowHit then 1 else 0
        activations := s.activations + if rowHit then 0 else 1
        reads := s.reads + 1
        bytesRead := s.bytesRead + m.geometry.burstSize } })

def accessWrite (m : Nvm) (c : Coordinate) (earliest : Tick) : MediaAccess × Nvm :=
  let t := m.timing
  let index := m.bankIndex c
  let issuedAt := max earliest (m.bankAt index).activateAllowedAt
  let slot := m.busSlot c.rank .write issuedAt
  let readyAt := slot.1 + t.burst
  let served := (m.updateBank index fun b => { b with activateAllowedAt := readyAt + t.arrayWrite
    }).commitBurst c.rank .write slot.1 slot.2
  let s := served.counters
  ({ activatedAt := none, prechargedAt := none, issuedAt, readyAt, rowHit := false },
    { served with counters := { s with
        writes := s.writes + 1
        bytesWritten := s.bytesWritten + m.geometry.burstSize } })

def access (m : Nvm) (c : Coordinate) (kind : AccessKind) (earliest : Tick) : MediaAccess × Nvm :=
  match kind with
  | .read => m.accessRead c earliest
  | .write => m.accessWrite c earliest

def isRowHit (m : Nvm) (c : Coordinate) : Bool := (m.bankAt (m.bankIndex c)).openRow == some c.row

instance : MediaChannel Nvm where
  access := access
  isRowHit := isRowHit
  staticLatency m := m.timing.arrayRead + m.timing.send
  commandSlot m := m.timing.burst
  statistics m := m.counters

end Nvm

end Expander
