import Expander.Config.Text
import Expander.Proofs.Configuring.Codec

/-!
The sections of a configuration and their codecs.

Each section lists its fields once, every one with its codec; the reader and the writer of the
section follow the list. A configuration is in the bounds of its types when all its numbers are
(`Config.Fits`).
-/

set_option autoImplicit false

namespace Expander

namespace Codec

abbrev word : Codec Nat := bounded lastAddress

abbrev half : Codec Nat := bounded 0xFFFFFFFF

abbrev quarter : Codec Nat := bounded 0xFFFF

abbrev byte : Codec Nat := bounded 0xFF

abbrev optionalWord : Codec (Option Nat) := optional lastAddress

abbrev optionalHalf : Codec (Option Nat) := optional 0xFFFFFFFF

end Codec

namespace Topology

def codec : Codec Topology :=
  .named table name [("Controller", "ControllerOnly")] (by rintro (_ | _ | _) <;> rfl) (by decide)

end Topology

namespace MediaProfile

def codec : Codec MediaProfile :=
  .named table name
    [("DDR4_2400_16x4", "Ddr4_2400_16x4"), ("DDR4_2400_8x8", "Ddr4_2400_8x8"),
      ("DDR4_2400_4x16", "Ddr4_2400_4x16"), ("NVM_2400_1x64", "Nvm_2400_1x64")]
    (by rintro (_ | _ | _ | _) <;> rfl) (by decide)

end MediaProfile

namespace DeviceProfile

def codec : Codec DeviceProfile :=
  .named table name [("Asic", "ASIC"), ("Fpga", "FPGA")] (by rintro (_ | _) <;> rfl) (by decide)

end DeviceProfile

namespace AddressMapping

def codec : Codec AddressMapping :=
  .named table name [] (by rintro (_ | _ | _) <;> rfl) (by decide)

@[simp]
theorem fits_codec {m : AddressMapping} : codec.Fits m := trivial

end AddressMapping

namespace AddressRange

def Fits (r : AddressRange) : Prop := ∀ n ∈ [r.base, r.size], n ≤ lastAddress

def fields : List (Field AddressRange) :=
  [⟨.plain "base", .word, base⟩, ⟨.plain "size", .word, size⟩]

def asSection : Section AddressRange where
  fields := fields
  default := none
  read := ofJson?
  write := toJson
  Fits := Fits
  distinct := by decide
  reads {j r} := by
    refine Field.reads_iff rfl fun given length => ?_
    match given, length with
    | [some _, some _], _ =>
      cases r
      simp only [fields, Option.bind_eq_bind, Option.bind_eq_some_iff, Field.Agree, Field.take,
        List.forall₂_cons, List.forall₂_nil_left_iff, and_true, true_and, mk.injEq,
        Option.some.injEq, existsAndEq]
      exact Iff.rfl
    | [none, _], _ => simp [fields, Field.Agree, Field.take]
    | [some _, none], _ => simp [fields, Field.Agree, Field.take]
  writes _ := rfl
  fits {r} fits := by simpa [Fits, fields] using fits
  default_fits := nofun

end AddressRange

namespace SystemConfig

def Fits (c : SystemConfig) : Prop :=
  ∀ n ∈ [c.memoryBase, c.memorySize, c.memoryLatency, c.busWidth, c.busLatency, c.busClock],
    n ≤ lastAddress

def fields : List (Field SystemConfig) :=
  [⟨.plain "memory_base", .word, memoryBase⟩, ⟨.plain "memory_size", .word, memorySize⟩,
    ⟨.plain "memory_latency", .word, memoryLatency⟩, ⟨.plain "bus_width", .word, busWidth⟩,
    ⟨.plain "bus_latency", .word, busLatency⟩, ⟨.plain "bus_clock", .word, busClock⟩]

def asSection : Section SystemConfig where
  fields := fields
  default := some {}
  read := ofJson?
  write := toJson
  Fits := Fits
  distinct := by decide
  reads {j c} := by
    refine Field.reads_iff rfl fun given length => ?_
    match given, length with
    | [_, _, _, _, _, _], _ =>
      iterate 6 refine Field.reads_cons fun _ => ?_
      refine Field.reads_nil ?_
      cases c
      simp [and_assoc]
  writes _ := rfl
  fits {c} fits := by
    simpa [Fits, fields] using fits
  default_fits := by
    rintro _ ⟨⟩
    simp only [Fits]
    decide

end SystemConfig

namespace BridgeConfig

structure Fits (c : BridgeConfig) : Prop where
  numbers : ∀ n ∈ [c.latency, c.protocolLatency, c.requestDepth, c.responseDepth], n ≤ lastAddress
  ranges : ∀ r ∈ c.ranges, r.Fits

def fields : List (Field BridgeConfig) :=
  [⟨.plain "enabled", .flag, enabled⟩,
    ⟨{ name := "bridge_lat", aliases := ["delay"] }, .word, latency⟩,
    ⟨.plain "proto_proc_lat", .word, protocolLatency⟩,
    ⟨{ name := "req_fifo_depth", aliases := ["req_size"] }, .word, requestDepth⟩,
    ⟨{ name := "resp_fifo_depth", aliases := ["resp_size"] }, .word, responseDepth⟩,
    ⟨.plain "ranges", AddressRange.asSection.codec.list, ranges⟩]

def asSection : Section BridgeConfig where
  fields := fields
  default := some {}
  read := ofJson?
  write := toJson
  Fits := Fits
  distinct := by decide
  reads {j c} := by
    refine Field.reads_iff rfl fun given length => ?_
    match given, length with
    | [_, _, _, _, _, _], _ =>
      iterate 6 refine Field.reads_cons fun _ => ?_
      refine Field.reads_nil ?_
      cases c
      simp [and_assoc]
  writes _ := rfl
  fits {c} fits := by
    obtain ⟨numbers, ranges⟩ := fits
    simp only [List.forall_mem_cons] at numbers
    simp only [fields, List.forall_mem_cons]
    exact ⟨trivial, numbers.1, numbers.2.1, numbers.2.2.1, numbers.2.2.2.1, ranges, nofun⟩
  default_fits := by
    rintro _ ⟨⟩
    exact ⟨by decide, nofun⟩

end BridgeConfig

namespace PciIdentity

structure Fits (c : PciIdentity) : Prop where
  quarters : ∀ n ∈ [c.vendorId, c.deviceId], n ≤ 0xFFFF
  bytes : ∀ n ∈ [c.classCode, c.interruptLine, c.interruptPin], n ≤ 0xFF
  bar0Size : c.bar0Size ≤ lastAddress

def fields : List (Field PciIdentity) :=
  [⟨.plain "vendor_id", .quarter, vendorId⟩, ⟨.plain "device_id", .quarter, deviceId⟩,
    ⟨.plain "class_code", .byte, classCode⟩, ⟨.plain "interrupt_line", .byte, interruptLine⟩,
    ⟨.plain "interrupt_pin", .byte, interruptPin⟩, ⟨.plain "bar0_size", .word, bar0Size⟩]

def asSection : Section PciIdentity where
  fields := fields
  default := some {}
  read := ofJson?
  write := toJson
  Fits := Fits
  distinct := by decide
  reads {j c} := by
    refine Field.reads_iff rfl fun given length => ?_
    match given, length with
    | [_, _, _, _, _, _], _ =>
      iterate 6 refine Field.reads_cons fun _ => ?_
      refine Field.reads_nil ?_
      cases c
      simp [and_assoc]
  writes _ := rfl
  fits {c} fits := by
    obtain ⟨quarters, bytes, bar0Size⟩ := fits
    simp_all [fields]
  default_fits := by
    rintro _ ⟨⟩
    exact ⟨by decide, by decide, by decide⟩

end PciIdentity

namespace DeviceParams

structure Fits (c : DeviceParams) : Prop where
  numbers : ∀ n ∈ [c.base, c.size], n ≤ lastAddress
  replacements : ∀ o ∈ [c.protocolLatency, c.requestSize, c.responseSize], ∀ n ∈ o, n ≤ lastAddress
  pci : c.pci.Fits

def fields : List (Field DeviceParams) :=
  [⟨.plain "profile", DeviceProfile.codec, profile⟩,
    ⟨.plain "proto_proc_lat", .optionalWord, protocolLatency⟩,
    ⟨.plain "req_size", .optionalWord, requestSize⟩,
    ⟨.plain "rsp_size", .optionalWord, responseSize⟩, ⟨.plain "base", .word, base⟩,
    ⟨.plain "size", .word, size⟩, ⟨.plain "pci", PciIdentity.asSection.codec, pci⟩]

def asSection : Section DeviceParams where
  fields := fields
  default := some {}
  read := ofJson?
  write := toJson
  Fits := Fits
  distinct := by decide
  reads {j c} := by
    refine Field.reads_iff rfl fun given length => ?_
    match given, length with
    | [_, _, _, _, _, _, _], _ =>
      iterate 7 refine Field.reads_cons fun _ => ?_
      refine Field.reads_nil ?_
      cases c
      simp [and_assoc]
  writes _ := rfl
  fits {c} fits := by
    obtain ⟨numbers, replacements, pci⟩ := fits
    simp only [List.forall_mem_cons] at numbers replacements
    simp only [fields, List.forall_mem_cons]
    exact ⟨trivial, replacements.1, replacements.2.1, replacements.2.2.1, numbers.1, numbers.2.1,
      pci, nofun⟩
  default_fits := by
    rintro _ ⟨⟩
    exact ⟨by decide, by simp, PciIdentity.asSection.default_fits _ rfl⟩

end DeviceParams

namespace ControllerParams

structure Fits (c : ControllerParams) : Prop where
  latencies : ∀ n ∈ [c.frontendLatency, c.backendLatency], n ≤ lastAddress
  numbers : ∀ n ∈ [c.writeHighPercent, c.writeLowPercent, c.minWritesPerSwitch,
    c.minReadsPerSwitch, c.starvationThreshold], n ≤ 0xFFFFFFFF
  replacements : ∀ o ∈ [c.readBufferSize, c.writeBufferSize, c.maxPendingReads,
    c.maxPendingWrites], ∀ n ∈ o, n ≤ lastAddress

def fields : List (Field ControllerParams) :=
  [⟨.plain "frontend_latency", .word, frontendLatency⟩,
    ⟨.plain "backend_latency", .word, backendLatency⟩,
    ⟨.plain "write_high_threshold_perc", .half, writeHighPercent⟩,
    ⟨.plain "write_low_threshold_perc", .half, writeLowPercent⟩,
    ⟨.plain "min_writes_per_switch", .half, minWritesPerSwitch⟩,
    ⟨.plain "min_reads_per_switch", .half, minReadsPerSwitch⟩,
    ⟨.plain "starvation_threshold", .half, starvationThreshold⟩,
    ⟨.plain "address_mapping", AddressMapping.codec, addressMapping⟩,
    ⟨.plain "read_buffer_size", .optionalWord, readBufferSize⟩,
    ⟨.plain "write_buffer_size", .optionalWord, writeBufferSize⟩,
    ⟨.plain "max_pending_reads", .optionalWord, maxPendingReads⟩,
    ⟨.plain "max_pending_writes", .optionalWord, maxPendingWrites⟩]

def asSection : Section ControllerParams where
  fields := fields
  default := some {}
  read := ofJson?
  write := toJson
  Fits := Fits
  distinct := by decide
  reads {j c} := by
    refine Field.reads_iff rfl fun given length => ?_
    match given, length with
    | [_, _, _, _, _, _, _, _, _, _, _, _], _ =>
      iterate 12 refine Field.reads_cons fun _ => ?_
      refine Field.reads_nil ?_
      cases c
      simp [and_assoc]
  writes _ := rfl
  fits {c} fits := by
    obtain ⟨latencies, numbers, replacements⟩ := fits
    simp_all [fields]
  default_fits := by
    rintro _ ⟨⟩
    exact ⟨by decide, by decide, by simp⟩

end ControllerParams

namespace GeometryOverrides

def Fits (c : GeometryOverrides) : Prop :=
  ∀ o ∈ [c.deviceSize, c.deviceBusWidth, c.burstLength, c.deviceRowBuffer, c.devicesPerRank,
    c.ranksPerChannel, c.banksPerRank, c.bankGroupsPerRank, c.channels], ∀ n ∈ o, n ≤ lastAddress

def fields : List (Field GeometryOverrides) :=
  [⟨.plain "device_size", .optionalWord, deviceSize⟩,
    ⟨.plain "device_bus_width", .optionalWord, deviceBusWidth⟩,
    ⟨.plain "burst_length", .optionalWord, burstLength⟩,
    ⟨.plain "device_rowbuffer_size", .optionalWord, deviceRowBuffer⟩,
    ⟨.plain "devices_per_rank", .optionalWord, devicesPerRank⟩,
    ⟨.plain "ranks_per_channel", .optionalWord, ranksPerChannel⟩,
    ⟨.plain "banks_per_rank", .optionalWord, banksPerRank⟩,
    ⟨.plain "bank_groups_per_rank", .optionalWord, bankGroupsPerRank⟩,
    ⟨.plain "channels", .optionalWord, channels⟩]

def asSection : Section GeometryOverrides where
  fields := fields
  default := some {}
  read := ofJson?
  write := toJson
  Fits := Fits
  distinct := by decide
  reads {j c} := by
    refine Field.reads_iff rfl fun given length => ?_
    match given, length with
    | [_, _, _, _, _, _, _, _, _], _ =>
      iterate 9 refine Field.reads_cons fun _ => ?_
      refine Field.reads_nil ?_
      cases c
      simp [and_assoc]
  writes _ := rfl
  fits {c} fits := by
    simpa [Fits, fields] using fits
  default_fits := by
    rintro _ ⟨⟩
    simp [Fits]

end GeometryOverrides

namespace TimingOverrides

structure Fits (c : TimingOverrides) : Prop where
  times : ∀ o ∈ [c.clock, c.burst, c.columnToColumn, c.activateToColumn, c.columnToData,
    c.prechargeToActivate, c.activateToPrecharge, c.activateToActivate, c.activateToActivateGroup,
    c.activationWindow, c.refreshCycle, c.refreshInterval, c.writeRecovery, c.writeToRead,
    c.readToPrecharge, c.readToWrite, c.rankSwitch, c.powerdownExit, c.powerdownIdle, c.arrayRead,
    c.arrayWrite, c.send], ∀ n ∈ o, n ≤ lastAddress
  activationLimit : ∀ n ∈ c.activationLimit, n ≤ 0xFFFFFFFF

def fields : List (Field TimingOverrides) :=
  [⟨.plain "t_ck", .optionalWord, clock⟩, ⟨.plain "t_burst", .optionalWord, burst⟩,
    ⟨.plain "t_ccd_l", .optionalWord, columnToColumn⟩,
    ⟨.plain "t_rcd", .optionalWord, activateToColumn⟩, ⟨.plain "t_cl", .optionalWord, columnToData⟩,
    ⟨.plain "t_rp", .optionalWord, prechargeToActivate⟩,
    ⟨.plain "t_ras", .optionalWord, activateToPrecharge⟩,
    ⟨.plain "t_rrd", .optionalWord, activateToActivate⟩,
    ⟨.plain "t_rrd_l", .optionalWord, activateToActivateGroup⟩,
    ⟨.plain "t_xaw", .optionalWord, activationWindow⟩,
    ⟨.plain "activation_limit", .optionalHalf, activationLimit⟩,
    ⟨.plain "t_rfc", .optionalWord, refreshCycle⟩,
    ⟨.plain "t_refi", .optionalWord, refreshInterval⟩,
    ⟨.plain "t_wr", .optionalWord, writeRecovery⟩, ⟨.plain "t_wtr", .optionalWord, writeToRead⟩,
    ⟨.plain "t_rtp", .optionalWord, readToPrecharge⟩, ⟨.plain "t_rtw", .optionalWord, readToWrite⟩,
    ⟨.plain "t_cs", .optionalWord, rankSwitch⟩, ⟨.plain "t_xp", .optionalWord, powerdownExit⟩,
    ⟨.plain "powerdown_idle", .optionalWord, powerdownIdle⟩,
    ⟨.plain "t_read", .optionalWord, arrayRead⟩, ⟨.plain "t_write", .optionalWord, arrayWrite⟩,
    ⟨.plain "t_send", .optionalWord, send⟩]

def asSection : Section TimingOverrides where
  fields := fields
  default := some {}
  read := ofJson?
  write := toJson
  Fits := Fits
  distinct := by decide
  reads {j c} := by
    refine Field.reads_iff rfl fun given length => ?_
    match given, length with
    | [_, _, _, _, _, _, _, _, _, _, _, _, _, _, _, _, _, _, _, _, _, _, _], _ =>
      iterate 23 refine Field.reads_cons fun _ => ?_
      refine Field.reads_nil ?_
      cases c
      simp [and_assoc]
  writes _ := rfl
  fits {c} fits := by
    obtain ⟨times, activationLimit⟩ := fits
    simp_all [fields]
  default_fits := by
    rintro _ ⟨⟩
    exact ⟨by simp, nofun⟩

end TimingOverrides

namespace MediaParams

structure Fits (c : MediaParams) : Prop where
  geometry : c.geometry.Fits
  timing : c.timing.Fits

def fields : List (Field MediaParams) :=
  [⟨.plain "profile", MediaProfile.codec, profile⟩,
    ⟨.plain "geometry", GeometryOverrides.asSection.codec, geometry⟩,
    ⟨.plain "timing", TimingOverrides.asSection.codec, timing⟩]

def asSection : Section MediaParams where
  fields := fields
  default := some {}
  read := ofJson?
  write := toJson
  Fits := Fits
  distinct := by decide
  reads {j c} := by
    refine Field.reads_iff rfl fun given length => ?_
    match given, length with
    | [_, _, _], _ =>
      iterate 3 refine Field.reads_cons fun _ => ?_
      refine Field.reads_nil ?_
      cases c
      simp [and_assoc]
  writes _ := rfl
  fits {c} fits := by
    simp only [fields, List.forall_mem_cons]
    exact ⟨trivial, fits.geometry, fits.timing, nofun⟩
  default_fits := by
    rintro _ ⟨⟩
    exact ⟨GeometryOverrides.asSection.default_fits _ rfl,
      TimingOverrides.asSection.default_fits _ rfl⟩

end MediaParams

namespace Config

/-- All numbers of the configuration are in the bounds of their types. -/
structure Fits (c : Config) : Prop where
  system : c.system.Fits
  bridge : c.bridge.Fits
  device : c.device.Fits
  controller : c.controller.Fits
  media : c.media.Fits

def fields : List (Field Config) :=
  [⟨.plain "topology", Topology.codec, topology⟩,
    ⟨.plain "system", SystemConfig.asSection.codec, system⟩,
    ⟨.plain "bridge", BridgeConfig.asSection.codec, bridge⟩,
    ⟨.plain "device", DeviceParams.asSection.codec, device⟩,
    ⟨.plain "controller", ControllerParams.asSection.codec, controller⟩,
    ⟨.plain "media", MediaParams.asSection.codec, media⟩]

def asSection : Section Config where
  fields := fields
  default := some {}
  read := ofJson?
  write := toJson
  Fits := Fits
  distinct := by decide
  reads {j c} := by
    refine Field.reads_iff rfl fun given length => ?_
    match given, length with
    | [_, _, _, _, _, _], _ =>
      iterate 6 refine Field.reads_cons fun _ => ?_
      refine Field.reads_nil ?_
      cases c
      simp [and_assoc]
  writes _ := rfl
  fits {c} fits := by
    simp only [fields, List.forall_mem_cons]
    exact ⟨trivial, fits.system, fits.bridge, fits.device, fits.controller, fits.media, nofun⟩
  default_fits := by
    rintro _ ⟨⟩
    exact ⟨SystemConfig.asSection.default_fits _ rfl, BridgeConfig.asSection.default_fits _ rfl,
      DeviceParams.asSection.default_fits _ rfl, ControllerParams.asSection.default_fits _ rfl,
      MediaParams.asSection.default_fits _ rfl⟩

end Config

end Expander
