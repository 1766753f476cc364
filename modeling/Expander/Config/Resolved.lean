import Expander.Config.Text

/-!
Resolved configurations as JSON documents.

Resolved configurations are only written: they are what a system reports of itself.
-/

set_option autoImplicit false

namespace Expander

def Geometry.toJson (g : Geometry) : Json :=
  .record (g.parameters.map fun p => (p.1, .number p.2))

def DramTiming.toJson (t : DramTiming) : Json :=
  .record
    [("t_ck", .number t.clock), ("t_burst", .number t.burst),
      ("t_ccd_l", .number t.columnToColumn), ("t_rcd", .number t.activateToColumn),
      ("t_cl", .number t.columnToData), ("t_rp", .number t.prechargeToActivate),
      ("t_ras", .number t.activateToPrecharge), ("t_rrd", .number t.activateToActivate),
      ("t_rrd_l", .number t.activateToActivateGroup), ("t_xaw", .number t.activationWindow),
      ("activation_limit", .number t.activationLimit), ("t_rfc", .number t.refreshCycle),
      ("t_refi", .number t.refreshInterval), ("t_wr", .number t.writeRecovery),
      ("t_wtr", .number t.writeToRead), ("t_rtp", .number t.readToPrecharge),
      ("t_rtw", .number t.readToWrite), ("t_cs", .number t.rankSwitch),
      ("t_xp", .number t.powerdownExit), ("powerdown_idle", .number t.powerdownIdle)]

def NvmTiming.toJson (t : NvmTiming) : Json :=
  .record
    [("t_read", .number t.arrayRead), ("t_write", .number t.arrayWrite), ("t_send", .number t.send),
      ("t_burst", .number t.burst), ("t_wtr", .number t.writeToRead),
      ("t_rtw", .number t.readToWrite), ("t_cs", .number t.rankSwitch)]

def MediaTiming.toJson : MediaTiming → Json
  | .dram t => .record [("Dram", t.toJson)]
  | .nvm t => .record [("Nvm", t.toJson)]

def MediaConfig.toJson (c : MediaConfig) : Json :=
  .record
    [("geometry", c.geometry.toJson), ("timing", c.timing.toJson),
      ("read_buffer_size", .number c.readBufferSize),
      ("write_buffer_size", .number c.writeBufferSize),
      ("max_pending_reads", .number c.maxPendingReads),
      ("max_pending_writes", .number c.maxPendingWrites)]

def DeviceConfig.toJson (c : DeviceConfig) : Json :=
  .record
    [("proto_proc_lat", .number c.protocolLatency), ("req_size", .number c.requestSize),
      ("rsp_size", .number c.responseSize), ("range", c.range.toJson), ("pci", c.pci.toJson)]

def ControllerConfig.toJson (c : ControllerConfig) : Json :=
  .record
    [("frontend_latency", .number c.frontendLatency),
      ("backend_latency", .number c.backendLatency),
      ("read_buffer_size", .number c.readBufferSize),
      ("write_buffer_size", .number c.writeBufferSize),
      ("max_pending_reads", .number c.maxPendingReads),
      ("max_pending_writes", .number c.maxPendingWrites),
      ("write_high_threshold", .number c.writeHighMark),
      ("write_low_threshold", .number c.writeLowMark),
      ("min_writes_per_switch", .number c.minWritesPerSwitch),
      ("min_reads_per_switch", .number c.minReadsPerSwitch),
      ("starvation_threshold", .number c.starvationThreshold),
      ("address_mapping", c.addressMapping.toJson)]

def ResolvedConfig.toJson (c : ResolvedConfig) : Json :=
  .record
    [("topology", c.topology.toJson), ("system", c.system.toJson),
      ("bridge", match c.bridge with
        | none => .null
        | some bridge => bridge.toJson),
      ("device", c.device.toJson), ("controller", c.controller.toJson), ("media", c.media.toJson)]

end Expander
