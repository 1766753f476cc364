import Expander.Media.Basic

/-!
The timing of one DRAM channel.

An access first plans its commands and then commits the plan. A precharge closes another open row,
an activate opens the row, and the column command moves the data. A plan whose commands reach the
next refresh of the bank is dropped: the refresh is settled, which closes the row, and the access is
planned again behind it.
-/

set_option autoImplicit false

namespace Expander

structure DramTiming where
  clock : Tick
  /-- The duration of a burst on the data bus. -/
  burst : Tick
  /-- Column command to column command within a bank group. -/
  columnToColumn : Tick
  activateToColumn : Tick
  /-- Column command to the first beat of data. -/
  columnToData : Tick
  prechargeToActivate : Tick
  activateToPrecharge : Tick
  /-- Activate to activate in different bank groups. -/
  activateToActivate : Tick
  activateToActivateGroup : Tick
  activationWindow : Tick
  /-- The activates allowed in one window; zero lifts the limit. -/
  activationLimit : Nat
  refreshCycle : Tick
  /-- The interval between refreshes; zero turns refresh off. -/
  refreshInterval : Tick
  /-- End of write data to precharge. -/
  writeRecovery : Tick
  writeToRead : Tick
  readToPrecharge : Tick
  readToWrite : Tick
  rankSwitch : Tick
  powerdownExit : Tick
  /-- The idle time after which a rank is powered down; zero turns power-down off. -/
  powerdownIdle : Tick
deriving DecidableEq, Repr, Inhabited

namespace DramTiming

def rowCycle (t : DramTiming) : Tick := t.activateToPrecharge + t.prechargeToActivate

def turnaround (t : DramTiming) : Turnaround := ⟨t.writeToRead, t.readToWrite, t.rankSwitch⟩

end DramTiming

structure RankState where
  /-- The latest activate and its bank group. -/
  lastActivate : Option (Tick × Nat) := none
  /-- The latest activates, at most as many as one window allows, the newest first. -/
  recentActivates : List Tick := []
  lastActivity : Tick := 0
deriving DecidableEq, Repr, Inhabited

structure Dram where
  timing : DramTiming
  geometry : Geometry
  banks : Array BankState
  ranks : Array RankState
  lastBurst : Option BusBurst := none
  counters : MediaStatistics := {}
deriving DecidableEq, Repr

/-- The commands chosen for one burst. -/
structure DramPlan where
  rowHit : Bool
  prechargedAt : Option Tick
  activatedAt : Option Tick
  /-- Whether the rolling window delays the activate. -/
  windowStall : Bool
  issuedAt : Tick
  /-- Whether the data bus changes direction or rank. -/
  turnaround : Bool
deriving DecidableEq, Repr

def DramPlan.firstAtOrAfter (p : DramPlan) (due : Tick) : Option Tick :=
  (p.prechargedAt.toList ++ p.activatedAt.toList ++ [p.issuedAt]).find? fun c => decide (due ≤ c)

namespace Dram

/-- A channel with all banks precharged and the first refresh one interval away. -/
def create (geometry : Geometry) (timing : DramTiming) : Dram :=
  { timing, geometry
    banks := Array.replicate (geometry.ranksPerChannel * geometry.banksPerRank)
      { refreshDue := timing.refreshInterval }
    ranks := Array.replicate geometry.ranksPerChannel {} }

def bank? (m : Dram) (rank bank : Nat) : Option BankState :=
  m.banks[rank * m.geometry.banksPerRank + bank]?

/-- The rank that serves a place. -/
def rankOf (m : Dram) (c : Coordinate) : Nat := c.rank % m.ranks.size

def bankIndex (m : Dram) (c : Coordinate) : Nat :=
  m.rankOf c * m.geometry.banksPerRank + c.bank % m.geometry.banksPerRank

def groupOf (m : Dram) (c : Coordinate) : Nat := c.bank / max m.geometry.banksPerGroup 1

def bankAt (m : Dram) (index : Nat) : BankState := m.banks.getD index {}

def rankAt (m : Dram) (rank : Nat) : RankState := m.ranks.getD rank {}

def updateBank (m : Dram) (index : Nat) (f : BankState → BankState) : Dram :=
  { m with banks := m.banks.modify index f }

def updateRank (m : Dram) (rank : Nat) (f : RankState → RankState) : Dram :=
  { m with ranks := m.ranks.modify rank f }

def count (m : Dram) (f : MediaStatistics → MediaStatistics) : Dram :=
  { m with counters := f m.counters }

/-- Settles every refresh of a bank that starts by `now`, and gives the tick at which the bank can
go on: the end of the last of them, if it is still running. No other refresh has started by then,
provided that a refresh takes less than the interval between two of them, as it does in every valid
configuration. A bank whose refreshes take longer never gets out of them, and this is no more than
the first step of its wait. -/
def settleRefresh (m : Dram) (index : Nat) (now : Tick) : Tick × Dram :=
  let t := m.timing
  let due := (m.bankAt index).refreshDue
  if t.refreshInterval = 0 ∨ now < due then (now, m)
  else
    let missed := (now - due) / t.refreshInterval
    let start := due + missed * t.refreshInterval
    let finish := start + t.refreshCycle
    let stalls := if now < finish then 1 else 0
    let closed := m.updateBank index fun b =>
      { b with
        openRow := none
        activateAllowedAt := max b.activateAllowedAt finish
        refreshDue := start + t.refreshInterval }
    (max now finish, closed.count fun s =>
      { s with refreshes := s.refreshes + missed + 1, refreshStalls := s.refreshStalls + stalls })

/-- The earliest activate from `earliest` on that keeps its distance from the latest one and fits
into the rolling window, and whether the window delays it. -/
def activateBound (m : Dram) (rank group : Nat) (earliest : Tick) : Tick × Bool :=
  let t := m.timing
  let state := m.rankAt rank
  let spaced := match state.lastActivate with
    | none => earliest
    | some (last, lastGroup) =>
      max earliest
        (last + if lastGroup = group then t.activateToActivateGroup else t.activateToActivate)
  match t.activationLimit with
  | 0 => (spaced, false)
  | others + 1 =>
    match state.recentActivates[others]? with
    | none => (spaced, false)
    | some oldest =>
      if spaced < oldest + t.activationWindow then (oldest + t.activationWindow, true)
      else (spaced, false)

/-- The commands for a burst on `row` of a bank that starts no earlier than `now`. -/
def plan (m : Dram) (index rank group row : Nat) (kind : AccessKind) (now : Tick) : DramPlan :=
  let t := m.timing
  let bank := m.bankAt index
  let rowHit := bank.openRow == some row
  let prechargedAt :=
    if !rowHit && bank.openRow.isSome then some (max now bank.prechargeAllowedAt) else none
  let bound := m.activateBound rank group <|
    match prechargedAt with
    | none => max now bank.activateAllowedAt
    | some pre => max bank.activateAllowedAt (pre + t.prechargeToActivate)
  let columnFrom :=
    if rowHit then max now bank.columnAllowedAt
    else max bank.columnAllowedAt (bound.1 + t.activateToColumn)
  let unhindered := columnFrom + t.columnToData
  let gap := match m.lastBurst with
    | none => 0
    | some last => t.turnaround.gap last rank kind
  let dataStart := match m.lastBurst with
    | none => unhindered
    | some last =>
      let spacing := if last.rank = rank ∧ last.group = group then t.columnToColumn else t.burst
      max (max unhindered (last.dataStart + spacing)) (last.dataEnd + gap)
  { rowHit
    prechargedAt
    activatedAt := if rowHit then none else some bound.1
    windowStall := !rowHit && bound.2
    issuedAt := dataStart - t.columnToData
    turnaround := decide (0 < gap) }

/-- How often a plan is made again when it reaches a refresh. -/
def maxReplans : Nat := 8

/-- Plans a burst behind the refreshes that its commands would run into, at most `replans` times
again, and gives the plan and the channel with those refreshes settled. -/
def settlePlan (index rank group row : Nat) (kind : AccessKind) :
    Nat → Dram → Tick → DramPlan × Dram
  | replans, m, now =>
    let settled := m.settleRefresh index now
    let plan := settled.2.plan index rank group row kind settled.1
    match replans, plan.firstAtOrAfter (settled.2.bankAt index).refreshDue with
    | fewer + 1, some reached =>
      if m.timing.refreshInterval = 0 then (plan, settled.2)
      else settlePlan index rank group row kind fewer settled.2 reached
    | _, _ => (plan, settled.2)

/-- Leaves power-down, if the rank has been idle for long enough at `now`. -/
def wakeRank (m : Dram) (rank : Nat) (now : Tick) : Tick × Dram :=
  let t := m.timing
  if 0 < t.powerdownIdle ∧ (m.rankAt rank).lastActivity + t.powerdownIdle ≤ now then
    (now + t.powerdownExit, m.count fun s => { s with powerdownExits := s.powerdownExits + 1 })
  else (now, m)

def commitPrecharge (m : Dram) (index : Nat) : Option Tick → Dram
  | none => m
  | some pre =>
    (m.updateBank index fun b =>
      { b with
        openRow := none
        lastPrecharge := some pre
        activateAllowedAt := max b.activateAllowedAt (pre + m.timing.prechargeToActivate) }).count
      fun s => { s with precharges := s.precharges + 1 }

def commitActivate (m : Dram) (index rank group row : Nat) (windowStall : Bool) :
    Option Tick → Dram
  | none => m
  | some act =>
    let t := m.timing
    let recorded := m.updateRank rank fun r =>
      { r with
        lastActivate := some (act, group)
        recentActivates := (act :: r.recentActivates).take t.activationLimit }
    (recorded.updateBank index fun b =>
      { b with
        openRow := some row
        lastActivate := some act
        activateAllowedAt := act + t.rowCycle
        prechargeAllowedAt := max b.prechargeAllowedAt (act + t.activateToPrecharge) }).count
      fun s =>
        { s with
          activations := s.activations + 1
          activationWindowStalls := s.activationWindowStalls + if windowStall then 1 else 0 }

/-- Performs the column command of a burst whose data ends at `readyAt`. -/
def commitColumn (m : Dram) (index : Nat) (kind : AccessKind) (issuedAt readyAt : Tick) : Dram :=
  let t := m.timing
  let bytes := m.geometry.burstSize
  match kind with
  | .read =>
    (m.updateBank index fun b =>
      { b with
        columnAllowedAt := issuedAt + t.columnToColumn
        prechargeAllowedAt := max b.prechargeAllowedAt (issuedAt + t.readToPrecharge) }).count
      fun s => { s with reads := s.reads + 1, bytesRead := s.bytesRead + bytes }
  | .write =>
    (m.updateBank index fun b =>
      { b with
        columnAllowedAt := issuedAt + t.columnToColumn
        prechargeAllowedAt := max b.prechargeAllowedAt (readyAt + t.writeRecovery) }).count
      fun s => { s with writes := s.writes + 1, bytesWritten := s.bytesWritten + bytes }

def access (m : Dram) (c : Coordinate) (kind : AccessKind) (earliest : Tick) : MediaAccess × Dram :=
  let t := m.timing
  let index := m.bankIndex c
  let rank := m.rankOf c
  let group := m.groupOf c
  let awake := m.wakeRank rank earliest
  let planned := settlePlan index rank group c.row kind maxReplans awake.2 awake.1
  let plan := planned.1
  let dataStart := plan.issuedAt + t.columnToData
  let readyAt := dataStart + t.burst
  let opened :=
    (planned.2.commitPrecharge index plan.prechargedAt).commitActivate index rank group c.row
      plan.windowStall plan.activatedAt
  let served := opened.commitColumn index kind plan.issuedAt readyAt
  let idleFrom := served.updateRank rank fun r =>
    { r with lastActivity := max r.lastActivity readyAt }
  let counted := idleFrom.count fun s =>
    { s with
      rowHits := s.rowHits + if plan.rowHit then 1 else 0
      busTurnarounds := s.busTurnarounds + if plan.turnaround then 1 else 0 }
  ({ activatedAt := plan.activatedAt, prechargedAt := plan.prechargedAt
     issuedAt := plan.issuedAt, readyAt, rowHit := plan.rowHit },
    { counted with lastBurst := some ⟨rank, group, kind, dataStart, readyAt⟩ })

def isRowHit (m : Dram) (c : Coordinate) : Bool := (m.bankAt (m.bankIndex c)).openRow == some c.row

instance : MediaChannel Dram where
  access := access
  isRowHit := isRowHit
  staticLatency m := m.timing.activateToColumn + m.timing.columnToData
  commandSlot m := m.timing.burst
  statistics m := m.counters

end Dram

end Expander
