import Expander.Statistics
import Expander.Text.Decimal
import Expander.Text.Hexadecimal

/-!
Statistics as lines of text.
-/

set_option autoImplicit false

namespace Expander.Report

def doubleRule : String := String.ofList (List.replicate 58 '=')

def singleRule : String := String.ofList (List.replicate 58 '-')

def line (label value : String) : String := Text.padRight 25 label ++ value

def count (label : String) (n : Nat) : String := line ("  " ++ label) (toString n)

def mean (label : String) (x : Float) : String := line ("  " ++ label) (Text.fixed 2 x)

/-- The lines of the whole system and the host interface. -/
def systemLines (s : Statistics) : List String :=
  [line "sim_ticks" (toString s.ticks),
    line "sim_ns" (Text.fixed 3 (ratio s.ticks nanosecond)),
    line "host.issued" (toString s.host.issued),
    line "host.retried" (toString s.host.retried),
    line "host.completed" (toString s.host.completed),
    line "host.avg_latency_ns" (Text.fixed 3 (s.host.averageLatency / 1000))]

def bridgeLines (s : BridgeStatistics) : List String :=
  [singleRule, "BRIDGE",
    count "requests" s.requests,
    count "responses" s.responses,
    count "req_queue_full_events" s.requestQueueFull,
    count "req_retry_counts" s.requestRetries,
    count "resp_queue_full_events" s.responseQueueFull,
    count "resp_retry_counts" s.responseRetries,
    mean "rsp_interval_mean_ns" s.responseInterval.mean]

def deviceLines (s : DeviceStatistics) : List String :=
  [singleRule, "DEVICE",
    count "requests" s.requests,
    count "responses" s.responses,
    count "req_buffer_full" s.requestBufferFull,
    count "rsp_buffer_full" s.responseBufferFull,
    count "max_req_occupancy" s.maxRequests,
    count "max_rsp_occupancy" s.maxResponses]

def controllerLines (s : ControllerStatistics) : List String :=
  [singleRule, "CONTROLLER",
    count "read_reqs" s.readRequests,
    count "write_reqs" s.writeRequests,
    count "read_bursts" s.readBursts,
    count "write_bursts" s.writeBursts,
    count "merged_writes" s.mergedWrites,
    count "reads_from_write_queue" s.forwardedReads,
    count "rejected_reads" s.rejectedReads,
    count "rejected_writes" s.rejectedWrites,
    count "row_hits" s.rowHits,
    count "starvation_promotions" s.starvationPromotions,
    count "bus_turnarounds" s.busTurnarounds,
    mean "reads_per_turnaround" s.readsPerTurnaround.mean,
    mean "writes_per_turnaround" s.writesPerTurnaround.mean]

def mediaLines (channel : Nat) (s : MediaStatistics) : List String :=
  [singleRule, "MEDIA (channel " ++ toString channel ++ ")",
    count "reads" s.reads,
    count "writes" s.writes,
    count "bytes_read" s.bytesRead,
    count "bytes_written" s.bytesWritten,
    mean "row_hit_rate" (s.rowHitRate * 100) ++ "%",
    count "activations" s.activations,
    count "precharges" s.precharges,
    count "refreshes" s.refreshes,
    count "refresh_stalls" s.refreshStalls,
    count "act_window_stalls" s.activationWindowStalls,
    count "powerdown_exits" s.powerdownExits,
    count "bus_turnarounds" s.busTurnarounds]

def memoryLines (s : MemoryStatistics) : List String :=
  [singleRule, "SYSTEM MEMORY", count "reads" s.reads, count "writes" s.writes]

def partLines {α : Type} (lines : α → List String) (part : Option α) : List String :=
  (part.map lines).getD []

def statisticsLines (s : Statistics) : List String :=
  ["", doubleRule, "CXL MEMORY EXPANDER STATISTICS", doubleRule] ++
    systemLines s ++
    partLines bridgeLines s.bridge ++
    partLines deviceLines s.device ++
    partLines controllerLines s.controller ++
    (s.media.zipIdx.flatMap fun m => mediaLines m.2 m.1) ++
    partLines memoryLines s.memory ++
    [doubleRule]

end Expander.Report
