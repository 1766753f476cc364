import Expander.Config.Sections

/-!
Configurations and their resolution.

Resolving a configuration applies every replacement to its profile and checks all sections, also
against each other. The result is what a system is built from.
-/

set_option autoImplicit false

namespace Expander

structure Config where
  topology : Topology := default
  /-- The system memory and the host interconnect. -/
  system : SystemConfig := {}
  bridge : BridgeConfig := {}
  device : DeviceParams := {}
  controller : ControllerParams := {}
  media : MediaParams := {}
deriving DecidableEq, Repr, Inhabited

/-- A configuration with all parameters fixed and checked. -/
structure ResolvedConfig where
  topology : Topology
  /-- The system memory and the host interconnect. -/
  system : SystemConfig
  /-- The bridge with its ranges filled in, if one is built. -/
  bridge : Option BridgeConfig
  device : DeviceConfig
  controller : ControllerConfig
  media : MediaConfig
deriving DecidableEq, Repr

/-- Passes when the owned ranges are pairwise disjoint, and otherwise names the first two that
overlap. -/
def requireDisjoint : List (AddressRange × String) → Except ConfigError Unit
  | [] => .ok ()
  | (range, owner) :: rest =>
    match rest.find? fun other => range.overlaps other.1 with
    | some (other, otherOwner) => .error (.overlappingRanges range owner other otherOwner)
    | none => requireDisjoint rest

def AddressRange.covers (filter expander : AddressRange) : Bool :=
  filter.contains expander.base && decide (expander.stop ≤ filter.stop)

/-- The bridge with its ranges filled in; fails when a queue holds nothing or the expander range
does not pass. -/
def BridgeConfig.resolve (bridge : BridgeConfig) (expander : AddressRange) :
    Except ConfigError BridgeConfig := do
  requirePositive
    [("bridge.req_fifo_depth", bridge.requestDepth),
      ("bridge.resp_fifo_depth", bridge.responseDepth)]
  let ranges := if bridge.ranges.isEmpty then [expander] else bridge.ranges
  if ranges.any fun filter => filter.covers expander then .ok { bridge with ranges }
  else .error (.uncoveredRange expander "cxl-device" "cxl-bridge")

namespace Config

/-- Whether the chain of stages starts with a bridge. -/
def hasBridge (c : Config) : Bool := c.topology == .bridged && c.bridge.enabled

/-- All replacements applied and all sections checked; fails with the first problem. -/
def resolve (c : Config) : Except ConfigError ResolvedConfig := do
  requirePositive
    [("system.memory_size", c.system.memorySize), ("system.bus_width", c.system.busWidth),
      ("device.size", c.device.size)]
  let device := DeviceConfig.resolve c.device
  requirePositive
    [("device.req_size", device.requestSize), ("device.rsp_size", device.responseSize)]
  let media := MediaConfig.resolve c.media
  media.validate
  let controller ← ControllerConfig.resolve c.controller media
  if media.geometry.capacity < device.range.size then
    .error (.rangeExceedsCapacity device.range media.geometry.capacity)
  requireDisjoint
    ((c.system.memoryRange, "system-memory") :: (device.range, "cxl-device") ::
      SystemConfig.reservedRanges)
  let bridge ← if c.hasBridge then some <$> c.bridge.resolve device.range else .ok none
  .ok { topology := c.topology, system := c.system, bridge, device, controller, media }

end Config

end Expander
