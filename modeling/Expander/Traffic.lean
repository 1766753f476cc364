import Expander.Simulation

/-!
Synthetic traffic over the expander range.

`Traffic.generate` lists the requests of a pattern. `Traffic.drive` sends a list of requests with a
bounded number of them in flight, and offers a refused request again after a retry.
-/

set_option autoImplicit false

namespace Expander

inductive Pattern where
  | sequential
  /-- Reads at a fixed distance, wrapping at the end of the range. -/
  | stride
  /-- Reads that alternate between two rows of one bank. -/
  | rowConflict
  /-- Accesses of consecutive blocks, every third one a write. -/
  | mixed
deriving DecidableEq, Repr

namespace Pattern

def name : Pattern → String
  | sequential => "sequential"
  | stride => "stride"
  | rowConflict => "row-conflict"
  | mixed => "mixed"

def title : Pattern → String
  | sequential => "Sequential"
  | stride => "Stride"
  | rowConflict => "RowConflict"
  | mixed => "Mixed"

/-- The requests of a pattern, in words. -/
def about : Pattern → String
  | sequential => "Consecutive reads"
  | stride => "Reads `--stride` bytes apart, wrapping at the end of the range"
  | rowConflict => "Reads alternating between two rows of the same bank"
  | mixed => "Consecutive accesses, every third one a write"

def all : List Pattern := [sequential, stride, rowConflict, mixed]

end Pattern

/-- The shape of a run of requests. -/
structure Traffic where
  pattern : Pattern := .sequential
  count : Nat := 1024
  size : Nat := 64
  stride : Nat := 4096
deriving DecidableEq, Repr

namespace Traffic

/-- The distance of consecutive blocks. -/
def step (t : Traffic) : Nat := max t.size 1

def span (t : Traffic) (range : AddressRange) : Nat :=
  max (range.size - range.size % t.step) t.step

def offset (t : Traffic) (c : ResolvedConfig) (i : Nat) : Nat :=
  let g := c.media.geometry
  let place := match t.pattern with
    | .sequential | .mixed => i * t.step
    | .stride => i * max t.stride t.step
    | .rowConflict => i % 2 * g.rowStride + i / 2 % g.columnsPerRow * t.step
  place % t.span c.device.range

def request (t : Traffic) (c : ResolvedConfig) (i : Nat) : HostRequest :=
  let addr := c.device.range.base + t.offset c i
  if t.pattern = .mixed ∧ i % 3 = 2 then .write addr (List.replicate t.size (UInt8.ofNat i))
  else .read addr t.size

def requests (t : Traffic) (c : ResolvedConfig) : List HostRequest :=
  (List.range t.count).map (t.request c)

def generate (t : Traffic) (config : Config) : Except ConfigError (List HostRequest) :=
  config.resolve.map t.requests

end Traffic

/-- Why a driven run ended without all completions. -/
inductive DriveError where
  | system (error : SimError)
  /-- A request is refused, and no event is left that could lead to a retry. -/
  | blocked
  /-- Transactions are in flight, and no event is left that could complete them. -/
  | lost (inFlight : Nat)
  /-- The bound on the number of steps was reached. -/
  | exhausted
deriving DecidableEq, Repr

structure TrafficRun where
  system : Simulation
  waiting : List HostRequest
  /-- The completions collected, the latest first. -/
  done : List Completion := []
  /-- The requests accepted and not collected. -/
  inFlight : Nat := 0
  /-- Whether the first waiting request was refused and no retry has come since. -/
  blocked : Bool := false

namespace TrafficRun

/-- Offers waiting requests until `window` are in flight or one is refused. -/
def fill (window : Nat) : List HostRequest → TrafficRun → Except SimError TrafficRun
  | [], d => .ok { d with waiting := [] }
  | r :: rest, d =>
    if d.blocked || decide (window ≤ d.inFlight) then .ok { d with waiting := r :: rest }
    else
      match d.system.sendRequest r with
      | (.error e, _) => .error e
      | (.ok (.accepted _), system) =>
        fill window rest { d with system, inFlight := d.inFlight + 1 }
      | (.ok (.retry back), system) =>
        .ok { d with system, waiting := back :: rest, blocked := true }

def collect (d : TrafficRun) (finished : List Completion) (system : Simulation) : TrafficRun :=
  { d with
    system
    done := finished.reverse ++ d.done
    inFlight := d.inFlight - min finished.length d.inFlight }

def advanceBlocked (d : TrafficRun) : Except DriveError TrafficRun :=
  match d.system.nextEventTick with
  | none => .error .blocked
  | some tick =>
    match d.system.runUntil tick with
    | (.fault e, _) => .error (.system e)
    | (.exhausted, _) => .error .exhausted
    | (.settled, ran) =>
      let retry := ran.takeRetry
      let taken := retry.2.takeCompletions
      .ok ({ d with blocked := !retry.1 }.collect taken.1 taken.2)

def advanceToCompletion (d : TrafficRun) : Except DriveError TrafficRun :=
  match d.system.pollCompletions with
  | (.fault e, _, _) => .error (.system e)
  | (.exhausted, _, _) => .error .exhausted
  | (.settled, finished, ran) =>
    if finished.isEmpty then .error (.lost d.inFlight) else .ok (d.collect finished ran)

/-- Sends and collects until all requests are done, in at most `fuel` steps. -/
def loop (window : Nat) : Nat → TrafficRun → Except DriveError TrafficRun
  | 0, _ => .error .exhausted
  | fuel + 1, d => do
    let filled ← (fill window d.waiting d).mapError DriveError.system
    if filled.waiting.isEmpty && filled.inFlight == 0 then .ok filled
    else
      let advanced ← if filled.blocked then filled.advanceBlocked else filled.advanceToCompletion
      loop window fuel advanced

/-- An upper bound on the steps of a run: each step handles an event or collects a completion. -/
def budget (d : TrafficRun) : Nat :=
  let work := d.system.workload + total (d.waiting.map fun r => r.size + 16)
  64 * work * work

end TrafficRun

/-- Sends requests with at most `window` of them in flight, and gives their completions in order of
collection. -/
def Simulation.drive (s : Simulation) (requests : List HostRequest) (window : Nat) :
    Except DriveError (List Completion × Simulation) :=
  let d : TrafficRun := { system := s, waiting := requests }
  (TrafficRun.loop window (d.budget + 1) d).map fun d => (d.done.reverse, d.system)

end Expander
