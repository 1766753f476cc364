import Expander.Media.Profile

/-!
The sections of a configuration, with the value that each parameter takes when it is not given.
-/

set_option autoImplicit false

namespace Expander

/-- The chain of stages in front of the expander's media. -/
inductive Topology where
  /-- Host, bridge, device, controller. -/
  | bridged
  /-- Host, device, controller. -/
  | direct
  /-- Host, controller. -/
  | controller
deriving DecidableEq, Repr, Inhabited

def Topology.name : Topology → String
  | .bridged => "Bridged"
  | .direct => "Direct"
  | .controller => "Controller"

/-- The system memory and the host interconnect. -/
structure SystemConfig where
  memoryBase : Nat := 0
  memorySize : Nat := 512 * mebibyte
  memoryLatency : Tick := 30 * nanosecond
  /-- The bytes that the interconnect moves in one beat. -/
  busWidth : Nat := 16
  busLatency : Tick := 2 * nanosecond
  busClock : Tick := nanosecond
deriving DecidableEq, Repr, Inhabited

namespace SystemConfig

def memoryRange (c : SystemConfig) : AddressRange := ⟨c.memoryBase, c.memorySize⟩

/-- The ranges that must stay free of memory, and their owners: the PCI input and output window
and the BIOS window. -/
def reservedRanges : List (AddressRange × String) :=
  [(⟨0xC0000000, 0x100000⟩, "pci-io"), (⟨0xFFFF0000, 0x10000⟩, "bios")]

end SystemConfig

structure BridgeConfig where
  /-- Whether a bridge stands in front of the device. -/
  enabled : Bool := true
  latency : Tick := 50 * nanosecond
  /-- The further latency of packets inside the expander range. -/
  protocolLatency : Tick := 14 * nanosecond
  requestDepth : Nat := 48
  /-- The depth of the response queue, and the number of responses that can be reserved. -/
  responseDepth : Nat := 48
  /-- The ranges that pass the bridge; none stands for the expander range alone. -/
  ranges : List AddressRange := []
deriving DecidableEq, Repr, Inhabited

structure PciIdentity where
  vendorId : Nat := 0x8086
  deviceId : Nat := 0x7890
  classCode : Nat := 0x05
  interruptLine : Nat := 0x1f
  interruptPin : Nat := 0x01
  /-- The size of the first base address register. -/
  bar0Size : Nat := 2 * gibibyte
deriving DecidableEq, Repr, Inhabited

inductive DeviceProfile where
  | asic
  | fpga
deriving DecidableEq, Repr, Inhabited

namespace DeviceProfile

def all : List DeviceProfile := [asic, fpga]

def name : DeviceProfile → String
  | asic => "Asic"
  | fpga => "Fpga"

def protocolLatency : DeviceProfile → Tick
  | asic => 15 * nanosecond
  | fpga => 60 * nanosecond

/-- The depth of the request and response buffers of a profile. -/
def bufferSize : DeviceProfile → Nat
  | asic => 48
  | fpga => 36

end DeviceProfile

/-- The front-end device: a profile, replacements for its parameters, and the expander range. -/
structure DeviceParams where
  profile : DeviceProfile := default
  protocolLatency : Option Tick := none
  /-- A replacement for the depth of the request buffer. -/
  requestSize : Option Nat := none
  /-- A replacement for the depth of the response buffer. -/
  responseSize : Option Nat := none
  base : Nat := 4 * gibibyte
  size : Nat := 2 * gibibyte
  pci : PciIdentity := {}
deriving DecidableEq, Repr, Inhabited

/-- A front-end device with all parameters fixed. -/
structure DeviceConfig where
  protocolLatency : Tick
  requestSize : Nat
  responseSize : Nat
  range : AddressRange
  pci : PciIdentity
deriving DecidableEq, Repr, Inhabited

def DeviceConfig.resolve (params : DeviceParams) : DeviceConfig where
  protocolLatency := params.protocolLatency.getD params.profile.protocolLatency
  requestSize := params.requestSize.getD params.profile.bufferSize
  responseSize := params.responseSize.getD params.profile.bufferSize
  range := ⟨params.base, params.size⟩
  pci := params.pci

/-- The memory controller; its queues take the sizes of the media unless they are given. -/
structure ControllerParams where
  frontendLatency : Tick := 10 * nanosecond
  backendLatency : Tick := 10 * nanosecond
  writeHighPercent : Nat := 85
  /-- The fill of the write queue, in percent, below which waiting reads win. -/
  writeLowPercent : Nat := 50
  /-- The writes served before turning back to waiting reads. -/
  minWritesPerSwitch : Nat := 16
  /-- The reads served before a forced turn to writes. -/
  minReadsPerSwitch : Nat := 16
  /-- The rounds after which a waiting burst goes before row hits. -/
  starvationThreshold : Nat := 16
  addressMapping : AddressMapping := default
  /-- The read bursts that can be queued. -/
  readBufferSize : Option Nat := none
  /-- The write bursts that can be queued. -/
  writeBufferSize : Option Nat := none
  /-- The read bursts that can be outstanding. -/
  maxPendingReads : Option Nat := none
  /-- The write bursts that can be outstanding. -/
  maxPendingWrites : Option Nat := none
deriving DecidableEq, Repr, Inhabited

/-- A memory controller with all parameters fixed. -/
structure ControllerConfig where
  frontendLatency : Tick
  backendLatency : Tick
  /-- The read bursts that can be queued. -/
  readBufferSize : Nat
  /-- The write bursts that can be queued. -/
  writeBufferSize : Nat
  /-- The read bursts that can be outstanding. -/
  maxPendingReads : Nat
  /-- The write bursts that can be outstanding. -/
  maxPendingWrites : Nat
  /-- The write queue is above its high mark when it is longer than this. -/
  writeHighMark : Nat
  /-- The write queue is below its low mark when it is shorter than this. -/
  writeLowMark : Nat
  /-- The writes served before turning back to waiting reads. -/
  minWritesPerSwitch : Nat
  /-- The reads served before a forced turn to writes. -/
  minReadsPerSwitch : Nat
  /-- The rounds after which a waiting burst goes before row hits. -/
  starvationThreshold : Nat
  addressMapping : AddressMapping
deriving DecidableEq, Repr, Inhabited

/-- The first fault of the marks of the write queue. -/
def ControllerParams.markFault? (params : ControllerParams) : Option ThresholdFault :=
  if 100 < params.writeHighPercent then some (.highAboveFull params.writeHighPercent)
  else if params.writeHighPercent ≤ params.writeLowPercent then
    some (.lowNotBelowHigh params.writeLowPercent params.writeHighPercent)
  else none

/-- The parameters over the queue sizes of the media; fails when a mark of the write queue is out
of range or a queue holds nothing. -/
def ControllerConfig.resolve (params : ControllerParams) (media : MediaConfig) :
    Except ConfigError ControllerConfig := do
  match params.markFault? with
  | some fault => .error (.threshold fault)
  | none => .ok ()
  let readBufferSize := params.readBufferSize.getD media.readBufferSize
  let writeBufferSize := params.writeBufferSize.getD media.writeBufferSize
  let maxPendingReads := params.maxPendingReads.getD media.maxPendingReads
  let maxPendingWrites := params.maxPendingWrites.getD media.maxPendingWrites
  requirePositive
    [("read_buffer_size", readBufferSize), ("write_buffer_size", writeBufferSize),
      ("max_pending_reads", maxPendingReads), ("max_pending_writes", maxPendingWrites)]
  .ok
    { frontendLatency := params.frontendLatency
      backendLatency := params.backendLatency
      readBufferSize, writeBufferSize, maxPendingReads, maxPendingWrites
      writeHighMark := ceilDiv (writeBufferSize * params.writeHighPercent) 100
      writeLowMark := ceilDiv (writeBufferSize * params.writeLowPercent) 100
      minWritesPerSwitch := params.minWritesPerSwitch
      minReadsPerSwitch := params.minReadsPerSwitch
      starvationThreshold := params.starvationThreshold
      addressMapping := params.addressMapping }

end Expander
