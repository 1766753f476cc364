import Expander.Media.Dram
import Expander.Media.Nvm

/-!
Media parameters of either technology, and the built-in parameter sets.

A profile fixes geometry, timing and the sizes of the controller queues. Overrides replace single
parameters of a profile; an override that the technology does not know is ignored.
-/

set_option autoImplicit false

namespace Expander

/-- Timing parameters of either technology. -/
inductive MediaTiming where
  | dram (timing : DramTiming)
  | nvm (timing : NvmTiming)
deriving DecidableEq, Repr

/-- Media parameters, with the sizes of the controller queues that go with them. -/
structure MediaConfig where
  geometry : Geometry
  timing : MediaTiming
  /-- The read bursts that can be queued. -/
  readBufferSize : Nat
  /-- The write bursts that can be queued. -/
  writeBufferSize : Nat
  /-- The read bursts that can be outstanding. -/
  maxPendingReads : Nat
  /-- The write bursts that can be outstanding. -/
  maxPendingWrites : Nat
deriving DecidableEq, Repr

inductive MediaProfile where
  /-- Devices of 4 pins, 16 in a rank, two ranks. -/
  | ddr4x4
  /-- Devices of 8 pins, 8 in a rank, two ranks. -/
  | ddr4x8
  /-- Devices of 16 pins, 4 in a rank, one rank of two bank groups. -/
  | ddr4x16
  /-- One non-volatile device of 64 pins. -/
  | nvm
deriving DecidableEq, Repr, Inhabited

def ddr4Geometry : Geometry where
  deviceSize := gibibyte
  deviceBusWidth := 4
  burstLength := 8
  deviceRowBuffer := 512
  devicesPerRank := 16
  ranksPerChannel := 2
  banksPerRank := 16
  bankGroupsPerRank := 4
  channels := 1

def ddr4Timing : DramTiming where
  clock := 833
  burst := 3332
  columnToColumn := 5000
  activateToColumn := 14160
  columnToData := 14160
  prechargeToActivate := 14160
  activateToPrecharge := 32000
  activateToActivate := 3332
  activateToActivateGroup := 4900
  activationWindow := 13328
  activationLimit := 4
  refreshCycle := 350 * nanosecond
  refreshInterval := 7800 * nanosecond
  writeRecovery := 15 * nanosecond
  writeToRead := 5 * nanosecond
  readToPrecharge := 7500
  readToWrite := 1666
  rankSwitch := 1666
  powerdownExit := 6 * nanosecond
  powerdownIdle := 1000 * nanosecond

def nvmGeometry : Geometry where
  deviceSize := 512 * gibibyte
  deviceBusWidth := 64
  burstLength := 8
  deviceRowBuffer := 256
  devicesPerRank := 1
  ranksPerChannel := 1
  banksPerRank := 16
  bankGroupsPerRank := 1
  channels := 1

def nvmTiming : NvmTiming where
  arrayRead := 150 * nanosecond
  arrayWrite := 500 * nanosecond
  send := 14160
  burst := 3332
  writeToRead := 1666
  readToWrite := 1666
  rankSwitch := 1666

namespace MediaProfile

def all : List MediaProfile := [ddr4x4, ddr4x8, ddr4x16, nvm]

def name : MediaProfile → String
  | ddr4x4 => "DDR4_2400_16x4"
  | ddr4x8 => "DDR4_2400_8x8"
  | ddr4x16 => "DDR4_2400_4x16"
  | nvm => "NVM_2400_1x64"

/-- The profile whose name is `text` up to the case of its letters. -/
def ofName? (text : String) : Option MediaProfile :=
  all.find? fun p => p.name.toList.map Char.toLower == text.toList.map Char.toLower

def geometry : MediaProfile → Geometry
  | ddr4x4 => ddr4Geometry
  | ddr4x8 =>
    { ddr4Geometry with deviceBusWidth := 8, deviceRowBuffer := kibibyte, devicesPerRank := 8 }
  | ddr4x16 =>
    { ddr4Geometry with
      deviceBusWidth := 16
      deviceRowBuffer := 2 * kibibyte
      devicesPerRank := 4
      ranksPerChannel := 1
      bankGroupsPerRank := 2
      banksPerRank := 8 }
  | nvm => nvmGeometry

def timing : MediaProfile → MediaTiming
  | ddr4x4 => .dram ddr4Timing
  | ddr4x8 => .dram { ddr4Timing with activationWindow := 21 * nanosecond }
  | ddr4x16 =>
    .dram { ddr4Timing with
      activateToActivate := 5300
      activateToActivateGroup := 6400
      activationWindow := 30 * nanosecond }
  | nvm => .nvm nvmTiming

def baseline (p : MediaProfile) : MediaConfig where
  geometry := p.geometry
  timing := p.timing
  readBufferSize := 64
  writeBufferSize := 128
  maxPendingReads := 64
  maxPendingWrites := 128

end MediaProfile

/-- Replacements for the parameters of a geometry. -/
structure GeometryOverrides where
  deviceSize : Option Nat := none
  deviceBusWidth : Option Nat := none
  burstLength : Option Nat := none
  deviceRowBuffer : Option Nat := none
  devicesPerRank : Option Nat := none
  ranksPerChannel : Option Nat := none
  banksPerRank : Option Nat := none
  bankGroupsPerRank : Option Nat := none
  channels : Option Nat := none
deriving DecidableEq, Repr, Inhabited

/-- The geometry with its replacements in place. -/
def GeometryOverrides.apply (o : GeometryOverrides) (g : Geometry) : Geometry where
  deviceSize := o.deviceSize.getD g.deviceSize
  deviceBusWidth := o.deviceBusWidth.getD g.deviceBusWidth
  burstLength := o.burstLength.getD g.burstLength
  deviceRowBuffer := o.deviceRowBuffer.getD g.deviceRowBuffer
  devicesPerRank := o.devicesPerRank.getD g.devicesPerRank
  ranksPerChannel := o.ranksPerChannel.getD g.ranksPerChannel
  banksPerRank := o.banksPerRank.getD g.banksPerRank
  bankGroupsPerRank := o.bankGroupsPerRank.getD g.bankGroupsPerRank
  channels := o.channels.getD g.channels

/-- Replacements for timing parameters of either technology. -/
structure TimingOverrides where
  clock : Option Tick := none
  /-- The duration of a burst on the data bus. -/
  burst : Option Tick := none
  /-- Column command to column command within a bank group. -/
  columnToColumn : Option Tick := none
  activateToColumn : Option Tick := none
  /-- Column command to the first beat of data. -/
  columnToData : Option Tick := none
  prechargeToActivate : Option Tick := none
  activateToPrecharge : Option Tick := none
  /-- Activate to activate in different bank groups. -/
  activateToActivate : Option Tick := none
  activateToActivateGroup : Option Tick := none
  activationWindow : Option Tick := none
  activationLimit : Option Nat := none
  refreshCycle : Option Tick := none
  refreshInterval : Option Tick := none
  /-- End of write data to precharge. -/
  writeRecovery : Option Tick := none
  writeToRead : Option Tick := none
  readToPrecharge : Option Tick := none
  readToWrite : Option Tick := none
  rankSwitch : Option Tick := none
  powerdownExit : Option Tick := none
  /-- The idle time after which a rank is powered down. -/
  powerdownIdle : Option Tick := none
  /-- The read of a row from a non-volatile array. -/
  arrayRead : Option Tick := none
  /-- The write of a burst into a non-volatile array. -/
  arrayWrite : Option Tick := none
  /-- The transfer from the buffer of a non-volatile bank. -/
  send : Option Tick := none
deriving DecidableEq, Repr, Inhabited

namespace TimingOverrides

def applyDram (o : TimingOverrides) (t : DramTiming) : DramTiming where
  clock := o.clock.getD t.clock
  burst := o.burst.getD t.burst
  columnToColumn := o.columnToColumn.getD t.columnToColumn
  activateToColumn := o.activateToColumn.getD t.activateToColumn
  columnToData := o.columnToData.getD t.columnToData
  prechargeToActivate := o.prechargeToActivate.getD t.prechargeToActivate
  activateToPrecharge := o.activateToPrecharge.getD t.activateToPrecharge
  activateToActivate := o.activateToActivate.getD t.activateToActivate
  activateToActivateGroup := o.activateToActivateGroup.getD t.activateToActivateGroup
  activationWindow := o.activationWindow.getD t.activationWindow
  activationLimit := o.activationLimit.getD t.activationLimit
  refreshCycle := o.refreshCycle.getD t.refreshCycle
  refreshInterval := o.refreshInterval.getD t.refreshInterval
  writeRecovery := o.writeRecovery.getD t.writeRecovery
  writeToRead := o.writeToRead.getD t.writeToRead
  readToPrecharge := o.readToPrecharge.getD t.readToPrecharge
  readToWrite := o.readToWrite.getD t.readToWrite
  rankSwitch := o.rankSwitch.getD t.rankSwitch
  powerdownExit := o.powerdownExit.getD t.powerdownExit
  powerdownIdle := o.powerdownIdle.getD t.powerdownIdle

/-- Timing of non-volatile memory with its replacements in place. -/
def applyNvm (o : TimingOverrides) (t : NvmTiming) : NvmTiming where
  arrayRead := o.arrayRead.getD t.arrayRead
  arrayWrite := o.arrayWrite.getD t.arrayWrite
  send := o.send.getD t.send
  burst := o.burst.getD t.burst
  writeToRead := o.writeToRead.getD t.writeToRead
  readToWrite := o.readToWrite.getD t.readToWrite
  rankSwitch := o.rankSwitch.getD t.rankSwitch

/-- The timing with its replacements in place. -/
def apply (o : TimingOverrides) : MediaTiming → MediaTiming
  | .dram t => .dram (o.applyDram t)
  | .nvm t => .nvm (o.applyNvm t)

end TimingOverrides

/-- A profile and replacements for some of its parameters. -/
structure MediaParams where
  profile : MediaProfile := default
  geometry : GeometryOverrides := {}
  timing : TimingOverrides := {}
deriving DecidableEq, Repr, Inhabited

namespace MediaConfig

def resolve (params : MediaParams) : MediaConfig :=
  let base := params.profile.baseline
  { base with
    geometry := params.geometry.apply base.geometry
    timing := params.timing.apply base.timing }

/-- Passes when the geometry is valid, a burst takes time, and a refresh ends before the next. -/
def validate (c : MediaConfig) : Except ConfigError Unit := do
  c.geometry.validate
  match c.timing with
  | .dram t =>
    requirePositive [("t_burst", t.burst)]
    if t.refreshInterval ≠ 0 ∧ t.refreshInterval ≤ t.refreshCycle then
      .error (.threshold (.refreshTooLong t.refreshCycle t.refreshInterval))
    else .ok ()
  | .nvm t => requirePositive [("t_burst", t.burst)]

end MediaConfig

end Expander
