import Expander.Statistics.Histogram

/-!
The counters that each part of a system keeps, and their snapshot.
-/

set_option autoImplicit false

namespace Expander

structure HostStatistics where
  issued : Nat := 0
  /-- Requests refused and handed back. -/
  retried : Nat := 0
  completed : Nat := 0
  /-- The sum of the latencies of the completed transactions. -/
  totalLatency : Tick := 0
deriving DecidableEq, Repr

def HostStatistics.averageLatency (s : HostStatistics) : Float := ratio s.totalLatency s.completed

structure BridgeStatistics where
  requests : Nat := 0
  responses : Nat := 0
  requestQueueFull : Nat := 0
  /-- Requests that the stage below refused. -/
  requestRetries : Nat := 0
  /-- Requests refused because no response slot was free. -/
  responseQueueFull : Nat := 0
  /-- Responses that the stage above refused. -/
  responseRetries : Nat := 0
  /-- The nanoseconds between consecutive accepted responses. -/
  responseInterval : Histogram := .covering 0 299 10
deriving DecidableEq, Repr

structure DeviceStatistics where
  requests : Nat := 0
  responses : Nat := 0
  requestBufferFull : Nat := 0
  responseBufferFull : Nat := 0
  /-- The largest number of buffered requests. -/
  maxRequests : Nat := 0
  /-- The largest number of buffered responses. -/
  maxResponses : Nat := 0
deriving DecidableEq, Repr

structure ControllerStatistics where
  readRequests : Nat := 0
  writeRequests : Nat := 0
  readBursts : Nat := 0
  writeBursts : Nat := 0
  /-- Write bursts merged into a queued burst. -/
  mergedWrites : Nat := 0
  /-- Read bursts served from the write queue. -/
  forwardedReads : Nat := 0
  rejectedReads : Nat := 0
  rejectedWrites : Nat := 0
  /-- Issued bursts that found their row open. -/
  rowHits : Nat := 0
  /-- Bursts issued because they had waited too long. -/
  starvationPromotions : Nat := 0
  busTurnarounds : Nat := 0
  /-- The reads served in each read phase. -/
  readsPerTurnaround : Histogram := .covering 0 127 8
  writesPerTurnaround : Histogram := .covering 0 127 8
  /-- The sum of the ticks that issued bursts had been queued. -/
  totalQueueLatency : Tick := 0
  /-- The largest number of rounds that an issued burst had waited. -/
  maxRoundsWaited : Nat := 0
deriving DecidableEq, Repr

structure MediaStatistics where
  reads : Nat := 0
  writes : Nat := 0
  bytesRead : Nat := 0
  bytesWritten : Nat := 0
  /-- Accesses that found their row open. -/
  rowHits : Nat := 0
  /-- Rows activated, or read from the array. -/
  activations : Nat := 0
  /-- Precharges that closed a conflicting row. -/
  precharges : Nat := 0
  /-- Refresh intervals that passed on the banks touched. -/
  refreshes : Nat := 0
  /-- Commands pushed behind a refresh. -/
  refreshStalls : Nat := 0
  activationWindowStalls : Nat := 0
  powerdownExits : Nat := 0
  /-- Changes of direction or rank on the data bus. -/
  busTurnarounds : Nat := 0
deriving DecidableEq, Repr

/-- The fraction of accesses that found their row open. -/
def MediaStatistics.rowHitRate (s : MediaStatistics) : Float := ratio s.rowHits (s.reads + s.writes)

structure MemoryStatistics where
  reads : Nat := 0
  writes : Nat := 0
deriving DecidableEq, Repr

/-- A snapshot of all counters of a system. -/
structure Statistics where
  ticks : Tick := 0
  host : HostStatistics := {}
  bridge : Option BridgeStatistics := none
  /-- The front-end device, where there is one. -/
  device : Option DeviceStatistics := none
  controller : Option ControllerStatistics := none
  media : List MediaStatistics := []
  memory : Option MemoryStatistics := none
deriving DecidableEq, Repr

end Expander
