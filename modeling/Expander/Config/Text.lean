import Expander.Config
import Expander.Json.Reader
import Expander.Json.Section

/-!
Configurations as JSON text.

Each section has a reader and a writer over the same list of fields. `Config.parse` reads a text and
`Config.toJson` writes the document that reads back as the configuration.
-/

set_option autoImplicit false

namespace Expander

open Json (word? half? quarter? byte? bool? nullable? named? list? given?)

namespace AddressRange

def layout : List FieldName := [.plain "base", .plain "size"]

/-- A range read from a document; both fields have to be given. -/
def ofJson? (j : Json) : Option AddressRange := do
  match ← j.fields layout with
  | [some base, some size] => some { base := ← word? base, size := ← word? size }
  | _ => none

def toJson (r : AddressRange) : Json := .record [("base", .number r.base), ("size", .number r.size)]

end AddressRange

namespace Topology

def table : List (String × Topology) :=
  [("Bridged", bridged), ("Direct", direct), ("Controller", controller),
    ("ControllerOnly", controller)]

def ofJson? : Json → Option Topology := named? table

def toJson (t : Topology) : Json := .text t.name

end Topology

namespace MediaProfile

def table : List (String × MediaProfile) :=
  [("DDR4_2400_16x4", ddr4x4), ("Ddr4_2400_16x4", ddr4x4),
    ("DDR4_2400_8x8", ddr4x8), ("Ddr4_2400_8x8", ddr4x8),
    ("DDR4_2400_4x16", ddr4x16), ("Ddr4_2400_4x16", ddr4x16),
    ("NVM_2400_1x64", nvm), ("Nvm_2400_1x64", nvm)]

def ofJson? : Json → Option MediaProfile := named? table

def toJson (p : MediaProfile) : Json := .text p.name

end MediaProfile

namespace DeviceProfile

def table : List (String × DeviceProfile) :=
  [("Asic", asic), ("ASIC", asic), ("Fpga", fpga), ("FPGA", fpga)]

def ofJson? : Json → Option DeviceProfile := named? table

def toJson (p : DeviceProfile) : Json := .text p.name

end DeviceProfile

namespace AddressMapping

def name : AddressMapping → String
  | roRaBaCoCh => "RoRaBaCoCh"
  | roRaBaChCo => "RoRaBaChCo"
  | roCoRaBaCh => "RoCoRaBaCh"

def table : List (String × AddressMapping) :=
  [("RoRaBaCoCh", roRaBaCoCh), ("RoRaBaChCo", roRaBaChCo), ("RoCoRaBaCh", roCoRaBaCh)]

def ofJson? : Json → Option AddressMapping := named? table

def toJson (m : AddressMapping) : Json := .text m.name

end AddressMapping

namespace SystemConfig

def layout : List FieldName :=
  [.plain "memory_base", .plain "memory_size", .plain "memory_latency", .plain "bus_width",
    .plain "bus_latency", .plain "bus_clock"]

def ofJson? (j : Json) : Option SystemConfig := do
  let d : SystemConfig := {}
  match ← j.fields layout with
  | [memoryBase, memorySize, memoryLatency, busWidth, busLatency, busClock] =>
    some
      { memoryBase := ← given? word? d.memoryBase memoryBase
        memorySize := ← given? word? d.memorySize memorySize
        memoryLatency := ← given? word? d.memoryLatency memoryLatency
        busWidth := ← given? word? d.busWidth busWidth
        busLatency := ← given? word? d.busLatency busLatency
        busClock := ← given? word? d.busClock busClock }
  | _ => none

def toJson (c : SystemConfig) : Json :=
  .record
    [("memory_base", .number c.memoryBase), ("memory_size", .number c.memorySize),
      ("memory_latency", .number c.memoryLatency), ("bus_width", .number c.busWidth),
      ("bus_latency", .number c.busLatency), ("bus_clock", .number c.busClock)]

end SystemConfig

namespace BridgeConfig

def layout : List FieldName :=
  [.plain "enabled", { name := "bridge_lat", aliases := ["delay"] }, .plain "proto_proc_lat",
    { name := "req_fifo_depth", aliases := ["req_size"] },
    { name := "resp_fifo_depth", aliases := ["resp_size"] }, .plain "ranges"]

def ofJson? (j : Json) : Option BridgeConfig := do
  let d : BridgeConfig := {}
  match ← j.fields layout with
  | [enabled, latency, protocolLatency, requestDepth, responseDepth, ranges] =>
    some
      { enabled := ← given? bool? d.enabled enabled
        latency := ← given? word? d.latency latency
        protocolLatency := ← given? word? d.protocolLatency protocolLatency
        requestDepth := ← given? word? d.requestDepth requestDepth
        responseDepth := ← given? word? d.responseDepth responseDepth
        ranges := ← given? (list? AddressRange.ofJson?) d.ranges ranges }
  | _ => none

def toJson (c : BridgeConfig) : Json :=
  .record
    [("enabled", .bool c.enabled), ("bridge_lat", .number c.latency),
      ("proto_proc_lat", .number c.protocolLatency), ("req_fifo_depth", .number c.requestDepth),
      ("resp_fifo_depth", .number c.responseDepth),
      ("ranges", .array (c.ranges.map AddressRange.toJson))]

end BridgeConfig

namespace PciIdentity

def layout : List FieldName :=
  [.plain "vendor_id", .plain "device_id", .plain "class_code", .plain "interrupt_line",
    .plain "interrupt_pin", .plain "bar0_size"]

def ofJson? (j : Json) : Option PciIdentity := do
  let d : PciIdentity := {}
  match ← j.fields layout with
  | [vendorId, deviceId, classCode, interruptLine, interruptPin, bar0Size] =>
    some
      { vendorId := ← given? quarter? d.vendorId vendorId
        deviceId := ← given? quarter? d.deviceId deviceId
        classCode := ← given? byte? d.classCode classCode
        interruptLine := ← given? byte? d.interruptLine interruptLine
        interruptPin := ← given? byte? d.interruptPin interruptPin
        bar0Size := ← given? word? d.bar0Size bar0Size }
  | _ => none

def toJson (c : PciIdentity) : Json :=
  .record
    [("vendor_id", .number c.vendorId), ("device_id", .number c.deviceId),
      ("class_code", .number c.classCode), ("interrupt_line", .number c.interruptLine),
      ("interrupt_pin", .number c.interruptPin), ("bar0_size", .number c.bar0Size)]

end PciIdentity

namespace DeviceParams

def layout : List FieldName :=
  [.plain "profile", .plain "proto_proc_lat", .plain "req_size", .plain "rsp_size", .plain "base",
    .plain "size", .plain "pci"]

def ofJson? (j : Json) : Option DeviceParams := do
  let d : DeviceParams := {}
  match ← j.fields layout with
  | [profile, protocolLatency, requestSize, responseSize, base, size, pci] =>
    some
      { profile := ← given? DeviceProfile.ofJson? d.profile profile
        protocolLatency := ← given? (nullable? word?) d.protocolLatency protocolLatency
        requestSize := ← given? (nullable? word?) d.requestSize requestSize
        responseSize := ← given? (nullable? word?) d.responseSize responseSize
        base := ← given? word? d.base base
        size := ← given? word? d.size size
        pci := ← given? PciIdentity.ofJson? d.pci pci }
  | _ => none

def toJson (c : DeviceParams) : Json :=
  .record
    [("profile", c.profile.toJson), ("proto_proc_lat", .optional c.protocolLatency),
      ("req_size", .optional c.requestSize), ("rsp_size", .optional c.responseSize),
      ("base", .number c.base), ("size", .number c.size), ("pci", c.pci.toJson)]

end DeviceParams

namespace ControllerParams

def layout : List FieldName :=
  [.plain "frontend_latency", .plain "backend_latency", .plain "write_high_threshold_perc",
    .plain "write_low_threshold_perc", .plain "min_writes_per_switch",
    .plain "min_reads_per_switch", .plain "starvation_threshold", .plain "address_mapping",
    .plain "read_buffer_size", .plain "write_buffer_size", .plain "max_pending_reads",
    .plain "max_pending_writes"]

def ofJson? (j : Json) : Option ControllerParams := do
  let d : ControllerParams := {}
  match ← j.fields layout with
  | [frontendLatency, backendLatency, writeHighPercent, writeLowPercent, minWritesPerSwitch,
      minReadsPerSwitch, starvationThreshold, addressMapping, readBufferSize, writeBufferSize,
      maxPendingReads, maxPendingWrites] =>
    some
      { frontendLatency := ← given? word? d.frontendLatency frontendLatency
        backendLatency := ← given? word? d.backendLatency backendLatency
        writeHighPercent := ← given? half? d.writeHighPercent writeHighPercent
        writeLowPercent := ← given? half? d.writeLowPercent writeLowPercent
        minWritesPerSwitch := ← given? half? d.minWritesPerSwitch minWritesPerSwitch
        minReadsPerSwitch := ← given? half? d.minReadsPerSwitch minReadsPerSwitch
        starvationThreshold := ← given? half? d.starvationThreshold starvationThreshold
        addressMapping := ← given? AddressMapping.ofJson? d.addressMapping addressMapping
        readBufferSize := ← given? (nullable? word?) d.readBufferSize readBufferSize
        writeBufferSize := ← given? (nullable? word?) d.writeBufferSize writeBufferSize
        maxPendingReads := ← given? (nullable? word?) d.maxPendingReads maxPendingReads
        maxPendingWrites := ← given? (nullable? word?) d.maxPendingWrites maxPendingWrites }
  | _ => none

def toJson (c : ControllerParams) : Json :=
  .record
    [("frontend_latency", .number c.frontendLatency),
      ("backend_latency", .number c.backendLatency),
      ("write_high_threshold_perc", .number c.writeHighPercent),
      ("write_low_threshold_perc", .number c.writeLowPercent),
      ("min_writes_per_switch", .number c.minWritesPerSwitch),
      ("min_reads_per_switch", .number c.minReadsPerSwitch),
      ("starvation_threshold", .number c.starvationThreshold),
      ("address_mapping", c.addressMapping.toJson),
      ("read_buffer_size", .optional c.readBufferSize),
      ("write_buffer_size", .optional c.writeBufferSize),
      ("max_pending_reads", .optional c.maxPendingReads),
      ("max_pending_writes", .optional c.maxPendingWrites)]

end ControllerParams

namespace GeometryOverrides

def layout : List FieldName :=
  [.plain "device_size", .plain "device_bus_width", .plain "burst_length",
    .plain "device_rowbuffer_size", .plain "devices_per_rank", .plain "ranks_per_channel",
    .plain "banks_per_rank", .plain "bank_groups_per_rank", .plain "channels"]

def ofJson? (j : Json) : Option GeometryOverrides := do
  match ← j.fields layout with
  | [deviceSize, deviceBusWidth, burstLength, deviceRowBuffer, devicesPerRank, ranksPerChannel,
      banksPerRank, bankGroupsPerRank, channels] =>
    some
      { deviceSize := ← given? (nullable? word?) none deviceSize
        deviceBusWidth := ← given? (nullable? word?) none deviceBusWidth
        burstLength := ← given? (nullable? word?) none burstLength
        deviceRowBuffer := ← given? (nullable? word?) none deviceRowBuffer
        devicesPerRank := ← given? (nullable? word?) none devicesPerRank
        ranksPerChannel := ← given? (nullable? word?) none ranksPerChannel
        banksPerRank := ← given? (nullable? word?) none banksPerRank
        bankGroupsPerRank := ← given? (nullable? word?) none bankGroupsPerRank
        channels := ← given? (nullable? word?) none channels }
  | _ => none

def toJson (o : GeometryOverrides) : Json :=
  .record
    [("device_size", .optional o.deviceSize), ("device_bus_width", .optional o.deviceBusWidth),
      ("burst_length", .optional o.burstLength),
      ("device_rowbuffer_size", .optional o.deviceRowBuffer),
      ("devices_per_rank", .optional o.devicesPerRank),
      ("ranks_per_channel", .optional o.ranksPerChannel),
      ("banks_per_rank", .optional o.banksPerRank),
      ("bank_groups_per_rank", .optional o.bankGroupsPerRank),
      ("channels", .optional o.channels)]

end GeometryOverrides

namespace TimingOverrides

def layout : List FieldName :=
  [.plain "t_ck", .plain "t_burst", .plain "t_ccd_l", .plain "t_rcd", .plain "t_cl", .plain "t_rp",
    .plain "t_ras", .plain "t_rrd", .plain "t_rrd_l", .plain "t_xaw", .plain "activation_limit",
    .plain "t_rfc", .plain "t_refi", .plain "t_wr", .plain "t_wtr", .plain "t_rtp",
    .plain "t_rtw", .plain "t_cs", .plain "t_xp", .plain "powerdown_idle", .plain "t_read",
    .plain "t_write", .plain "t_send"]

def ofJson? (j : Json) : Option TimingOverrides := do
  match ← j.fields layout with
  | [clock, burst, columnToColumn, activateToColumn, columnToData, prechargeToActivate,
      activateToPrecharge, activateToActivate, activateToActivateGroup, activationWindow,
      activationLimit, refreshCycle, refreshInterval, writeRecovery, writeToRead, readToPrecharge,
      readToWrite, rankSwitch, powerdownExit, powerdownIdle, arrayRead, arrayWrite, send] =>
    some
      { clock := ← given? (nullable? word?) none clock
        burst := ← given? (nullable? word?) none burst
        columnToColumn := ← given? (nullable? word?) none columnToColumn
        activateToColumn := ← given? (nullable? word?) none activateToColumn
        columnToData := ← given? (nullable? word?) none columnToData
        prechargeToActivate := ← given? (nullable? word?) none prechargeToActivate
        activateToPrecharge := ← given? (nullable? word?) none activateToPrecharge
        activateToActivate := ← given? (nullable? word?) none activateToActivate
        activateToActivateGroup := ← given? (nullable? word?) none activateToActivateGroup
        activationWindow := ← given? (nullable? word?) none activationWindow
        activationLimit := ← given? (nullable? half?) none activationLimit
        refreshCycle := ← given? (nullable? word?) none refreshCycle
        refreshInterval := ← given? (nullable? word?) none refreshInterval
        writeRecovery := ← given? (nullable? word?) none writeRecovery
        writeToRead := ← given? (nullable? word?) none writeToRead
        readToPrecharge := ← given? (nullable? word?) none readToPrecharge
        readToWrite := ← given? (nullable? word?) none readToWrite
        rankSwitch := ← given? (nullable? word?) none rankSwitch
        powerdownExit := ← given? (nullable? word?) none powerdownExit
        powerdownIdle := ← given? (nullable? word?) none powerdownIdle
        arrayRead := ← given? (nullable? word?) none arrayRead
        arrayWrite := ← given? (nullable? word?) none arrayWrite
        send := ← given? (nullable? word?) none send }
  | _ => none

def toJson (o : TimingOverrides) : Json :=
  .record
    [("t_ck", .optional o.clock), ("t_burst", .optional o.burst),
      ("t_ccd_l", .optional o.columnToColumn), ("t_rcd", .optional o.activateToColumn),
      ("t_cl", .optional o.columnToData), ("t_rp", .optional o.prechargeToActivate),
      ("t_ras", .optional o.activateToPrecharge), ("t_rrd", .optional o.activateToActivate),
      ("t_rrd_l", .optional o.activateToActivateGroup), ("t_xaw", .optional o.activationWindow),
      ("activation_limit", .optional o.activationLimit), ("t_rfc", .optional o.refreshCycle),
      ("t_refi", .optional o.refreshInterval), ("t_wr", .optional o.writeRecovery),
      ("t_wtr", .optional o.writeToRead), ("t_rtp", .optional o.readToPrecharge),
      ("t_rtw", .optional o.readToWrite), ("t_cs", .optional o.rankSwitch),
      ("t_xp", .optional o.powerdownExit), ("powerdown_idle", .optional o.powerdownIdle),
      ("t_read", .optional o.arrayRead), ("t_write", .optional o.arrayWrite),
      ("t_send", .optional o.send)]

end TimingOverrides

namespace MediaParams

def layout : List FieldName := [.plain "profile", .plain "geometry", .plain "timing"]

def ofJson? (j : Json) : Option MediaParams := do
  let d : MediaParams := {}
  match ← j.fields layout with
  | [profile, geometry, timing] =>
    some
      { profile := ← given? MediaProfile.ofJson? d.profile profile
        geometry := ← given? GeometryOverrides.ofJson? d.geometry geometry
        timing := ← given? TimingOverrides.ofJson? d.timing timing }
  | _ => none

def toJson (c : MediaParams) : Json :=
  .record
    [("profile", c.profile.toJson), ("geometry", c.geometry.toJson), ("timing", c.timing.toJson)]

end MediaParams

namespace Config

def layout : List FieldName :=
  [.plain "topology", .plain "system", .plain "bridge", .plain "device", .plain "controller",
    .plain "media"]

def ofJson? (j : Json) : Option Config := do
  let d : Config := {}
  match ← j.fields layout with
  | [topology, system, bridge, device, controller, media] =>
    some
      { topology := ← given? Topology.ofJson? d.topology topology
        system := ← given? SystemConfig.ofJson? d.system system
        bridge := ← given? BridgeConfig.ofJson? d.bridge bridge
        device := ← given? DeviceParams.ofJson? d.device device
        controller := ← given? ControllerParams.ofJson? d.controller controller
        media := ← given? MediaParams.ofJson? d.media media }
  | _ => none

def toJson (c : Config) : Json :=
  .record
    [("topology", c.topology.toJson), ("system", c.system.toJson), ("bridge", c.bridge.toJson),
      ("device", c.device.toJson), ("controller", c.controller.toJson), ("media", c.media.toJson)]

def parse (text : String) : Except ConfigError Config :=
  match (Json.parse text).bind ofJson? with
  | some c => .ok c
  | none => .error .malformed

end Config

end Expander
