import Expander.CommandLine.Failure
import Expander.CommandLine.Options
import Expander.Statistics.Document
import Expander.Statistics.Report

/-!
The report of a traffic run: what a run measures, and its report as lines or as a document.
-/

set_option autoImplicit false

namespace Expander

/-- What a traffic run measured. -/
structure RunReport where
  pattern : Pattern
  atomic : Bool
  latencies : List Tick
  statistics : Statistics

namespace RunReport

def nanoseconds (t : Tick) : Float := ratio t nanosecond

def requests (r : RunReport) : Nat := r.latencies.length

def minLatency (r : RunReport) : Float := nanoseconds (r.latencies.min?.getD 0)

def maxLatency (r : RunReport) : Float := nanoseconds (r.latencies.max?.getD 0)

def meanLatency (r : RunReport) : Float :=
  if r.latencies.isEmpty then 0
  else nanoseconds (total r.latencies) / ratio r.latencies.length 1

def toJson (r : RunReport) : Json :=
  .record
    [("pattern", .text r.pattern.name), ("requests", .number r.requests),
      ("atomic", .bool r.atomic), ("min_latency_ns", .float r.minLatency),
      ("avg_latency_ns", .float r.meanLatency), ("max_latency_ns", .float r.maxLatency),
      ("stats", r.statistics.toJson)]

def lines (r : RunReport) : List String :=
  ["[*] Pattern: " ++ r.pattern.title ++ "  Requests: " ++ toString r.requests ++ "  Atomic: " ++
      toString r.atomic,
    "    Latency (ns): min " ++ Text.fixed 3 r.minLatency ++ "  avg " ++
      Text.fixed 3 r.meanLatency ++ "  max " ++ Text.fixed 3 r.maxLatency] ++
    Report.statisticsLines r.statistics

end RunReport

/-- Performs requests one after the other without queueing. -/
def Simulation.performAll :
    List HostRequest → Simulation → Except SimError (List Completion × Simulation)
  | [], s => .ok ([], s)
  | r :: rest, s =>
    match s.accessAtomic r with
    | (.error e, _) => .error e
    | (.ok completion, served) =>
      (performAll rest served).map fun others => (completion :: others.1, others.2)

def Simulation.driveToIdle (s : Simulation) (requests : List HostRequest) (window : Nat) :
    Except DriveError (List Completion × Simulation) := do
  let (completions, driven) ← s.drive requests window
  match driven.runUntilIdle with
  | (.settled, idle) => .ok (completions, idle)
  | (.fault e, _) => .error (.system e)
  | (.exhausted, _) => .error .exhausted

def RunOptions.measure (options : RunOptions) (m : Machine) (config : Config) :
    Except Failure RunReport := do
  let requests ← (options.traffic.generate config).mapError fun e => .system (.config e)
  let s ← (Simulation.create m config).mapError Failure.system
  let (completions, finished) ←
    if options.atomic then (s.performAll requests).mapError Failure.system
    else (s.driveToIdle requests (max options.window 1)).mapError Failure.ofDrive
  .ok
    { pattern := options.traffic.pattern
      atomic := options.atomic
      latencies := completions.map Completion.latency
      statistics := finished.statistics }

end Expander
