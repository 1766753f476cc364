import Expander.Json.Basic
import Expander.Statistics
import Expander.Text.Decimal

/-!
Statistics as JSON documents.
-/

set_option autoImplicit false

namespace Expander

def Json.float (x : Float) : Json := .decimal (Text.shortest x)

def Json.part {α : Type} (write : α → Json) : Option α → Json
  | none => .null
  | some part => write part

def Histogram.toJson (h : Histogram) : Json :=
  .record
    [("min", .number h.min), ("bucket_size", .number h.bucketSize),
      ("buckets", .array (h.buckets.map .number)), ("underflows", .number h.underflows),
      ("overflows", .number h.overflows), ("samples", .number h.samples), ("sum", .number h.sum)]

def HostStatistics.toJson (s : HostStatistics) : Json :=
  .record
    [("issued", .number s.issued), ("retried", .number s.retried),
      ("completed", .number s.completed), ("total_latency", .number s.totalLatency)]

def BridgeStatistics.toJson (s : BridgeStatistics) : Json :=
  .record
    [("requests", .number s.requests), ("responses", .number s.responses),
      ("req_queue_full_events", .number s.requestQueueFull),
      ("req_retry_counts", .number s.requestRetries),
      ("resp_queue_full_events", .number s.responseQueueFull),
      ("resp_retry_counts", .number s.responseRetries),
      ("io_to_bridge_rsp", s.responseInterval.toJson)]

def DeviceStatistics.toJson (s : DeviceStatistics) : Json :=
  .record
    [("requests", .number s.requests), ("responses", .number s.responses),
      ("req_buffer_full", .number s.requestBufferFull),
      ("rsp_buffer_full", .number s.responseBufferFull),
      ("max_req_occupancy", .number s.maxRequests),
      ("max_rsp_occupancy", .number s.maxResponses)]

def ControllerStatistics.toJson (s : ControllerStatistics) : Json :=
  .record
    [("read_reqs", .number s.readRequests), ("write_reqs", .number s.writeRequests),
      ("read_bursts", .number s.readBursts), ("write_bursts", .number s.writeBursts),
      ("merged_writes", .number s.mergedWrites),
      ("reads_from_write_queue", .number s.forwardedReads),
      ("rejected_reads", .number s.rejectedReads), ("rejected_writes", .number s.rejectedWrites),
      ("row_hits", .number s.rowHits),
      ("starvation_promotions", .number s.starvationPromotions),
      ("bus_turnarounds", .number s.busTurnarounds),
      ("reads_per_turnaround", s.readsPerTurnaround.toJson),
      ("writes_per_turnaround", s.writesPerTurnaround.toJson),
      ("total_queue_latency", .number s.totalQueueLatency),
      ("max_rounds_waited", .number s.maxRoundsWaited)]

def MediaStatistics.toJson (s : MediaStatistics) : Json :=
  .record
    [("reads", .number s.reads), ("writes", .number s.writes), ("bytes_read", .number s.bytesRead),
      ("bytes_written", .number s.bytesWritten), ("row_hits", .number s.rowHits),
      ("activations", .number s.activations), ("precharges", .number s.precharges),
      ("refreshes", .number s.refreshes), ("refresh_stalls", .number s.refreshStalls),
      ("activation_window_stalls", .number s.activationWindowStalls),
      ("powerdown_exits", .number s.powerdownExits),
      ("bus_turnarounds", .number s.busTurnarounds)]

def MemoryStatistics.toJson (s : MemoryStatistics) : Json :=
  .record [("reads", .number s.reads), ("writes", .number s.writes)]

def Statistics.toJson (s : Statistics) : Json :=
  .record
    [("sim_ticks", .number s.ticks), ("host", s.host.toJson),
      ("bridge", .part BridgeStatistics.toJson s.bridge),
      ("device", .part DeviceStatistics.toJson s.device),
      ("controller", .part ControllerStatistics.toJson s.controller),
      ("media", .array (s.media.map MediaStatistics.toJson)),
      ("memory", .part MemoryStatistics.toJson s.memory)]

end Expander
