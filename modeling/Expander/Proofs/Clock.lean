import Expander.Proofs.Requests

/-!
The ticks that a run comes to, and the words in which they are counted.

A run comes to the ticks that its systems keep, from one event to the next, and to those of the
completions that are given out at once. As long as all of them fit into a word (`Session.Fits`), the
words are in the order of the ticks.
-/

set_option autoImplicit false

namespace Expander

def Tick.word (tick : Tick) : UInt64 := UInt64.ofNat tick

theorem Tick.toNat_word {tick : Tick} (fits : tick ≤ lastTick) : (Tick.word tick).toNat = tick :=
  UInt64.toNat_ofNat_of_lt' (Nat.lt_succ_of_le fits)

theorem Tick.word_le_word {tick tick' : Tick} (fits : tick' ≤ lastTick) (le : tick ≤ tick') :
    Tick.word tick ≤ Tick.word tick' := by
  rwa [UInt64.le_iff_toNat_le, Tick.toNat_word fits, Tick.toNat_word (Nat.le_trans le fits)]

theorem Tick.word_lt_word {tick tick' : Tick} (fits : tick' ≤ lastTick) (lt : tick < tick') :
    Tick.word tick < Tick.word tick' := by
  rwa [UInt64.lt_iff_toNat_lt, Tick.toNat_word fits,
    Tick.toNat_word (Nat.le_trans (Nat.le_of_lt lt) fits)]

def Packet.ticks (p : Packet) : List Tick :=
  p.issued :: p.headerDelay :: p.hops.map fun hop => hop.arrived

def PacketQueue.ticks (q : PacketQueue) : List Tick :=
  q.entries.flatMap fun w => w.ready :: w.packet.ticks

def BankState.ticks (b : BankState) : List Tick :=
  b.lastActivate.toList ++ b.lastPrecharge.toList ++
    [b.refreshDue, b.activateAllowedAt, b.columnAllowedAt, b.prechargeAllowedAt]

def RankState.ticks (r : RankState) : List Tick :=
  r.lastActivity :: (r.lastActivate.map Prod.fst).toList ++ r.recentActivates

def BusBurst.ticks (b : BusBurst) : List Tick := [b.dataStart, b.dataEnd]

def Media.ticks : Media → List Tick
  | dram m => m.banks.toList.flatMap BankState.ticks ++ m.ranks.toList.flatMap RankState.ticks ++
      m.lastBurst.toList.flatMap BusBurst.ticks
  | nvm m => m.banks.toList.flatMap BankState.ticks ++ m.lastBurst.toList.flatMap BusBurst.ticks

def PendingRead.ticks (r : PendingRead) : List Tick := r.ready :: r.headerDelay :: r.packet.ticks

def Controller.ticks (c : Controller Media) : List Tick :=
  c.roundNotBefore :: c.counters.totalQueueLatency :: c.nextRound.toList ++
    (c.lastTaken.map Prod.fst).toList ++ c.readsInFlight ++ c.writesInFlight ++
    (c.readQueue ++ c.writeQueue).map Burst.arrived ++
    c.pending.flatMap (fun entry => entry.2.ticks) ++
    c.responses.toList.flatMap (fun r => r.ready :: r.packet.ticks) ++ c.media.flatMap Media.ticks

def Stage.ticks : Stage → List Tick
  | bridge b => b.lastResponse.toList ++ b.requests.ticks ++ b.responses.ticks
  | device d => d.requests.ticks ++ d.responses.ticks
  | controller c => c.ticks
  | memory m => m.responses.ticks

def Completion.ticks (c : Completion) : List Tick := [c.issued, c.completed]

namespace Simulation

/-- The ticks that a system keeps, and the latencies that it sums up. -/
def ticks (s : Simulation) : List Tick :=
  s.now :: s.host.totalLatency :: s.events.events.map Event.tick ++
    s.completions.flatMap Completion.ticks ++
    s.fabric.nodes.flatMap fun node => node.stage.ticks

/-- The systems from one event to the next, up to the last one. -/
def drained (due : EventQueue → Option (Event × EventQueue)) : Nat → Simulation → List Simulation
  | 0, s => [s]
  | fuel + 1, s =>
    match due s.events with
    | none => [s]
    | some (e, events) =>
      match { s with events, now := max s.now e.tick }.dispatch e with
      | (.ok (), next) => s :: drained due fuel next
      | (.error _, failed) => [s, failed]

def polled : Nat → Simulation → List Simulation
  | 0, s => [s]
  | fuel + 1, s =>
    let advance (tick : Tick) : List Simulation :=
      let ran := s.runUntil tick
      drained (fun q => q.popDue tick) s.budget s ++
        if ran.1 = .settled then polled fuel ran.2 else [ran.2]
    match s.nextCompletion, s.nextEventTick with
    | some completed, some event => if event ≤ completed then advance event else [s]
    | none, some event => advance event
    | some _, none | none, none => [s]

end Simulation

namespace Session

def course (h : Session) : HostCall → List Simulation
  | .runUntil limit => Simulation.drained (fun q => q.popDue limit) h.system.budget h.system
  | .runUntilIdle => Simulation.drained EventQueue.pop h.system.budget h.system
  | .poll => Simulation.polled (h.system.budget + 1) h.system
  | .send _ | .atomic _ | .take | .takeRetry | .load .. => [h.system]

/-- The systems that the acts of a host lead through. -/
def systems (h : Session) : List HostAct → List Simulation
  | [] => [h.system]
  | act :: acts =>
    let course : List Simulation :=
      match act with
      | .call call => h.course call
      | .send _ | .perform _ => [h.system]
    course ++ (h.act act).systems acts

/-- The completions of the requests that are performed at once. -/
def performed (h : Session) : List HostAct → List Completion
  | [] => []
  | act :: acts =>
    let done : List Completion :=
      match act with
      | .call (.atomic access) => (h.system.accessAtomic access.request).1.toOption.toList
      | .perform r => (h.system.accessAtomic r).1.toOption.toList
      | .call _ | .send _ => []
    done ++ (h.act act).performed acts

/-- No tick that the acts of a host come to is larger than a word. -/
def Fits (h : Session) (acts : List HostAct) : Prop :=
  (∀ s ∈ h.systems acts, ∀ tick ∈ s.ticks, tick ≤ lastTick) ∧
    ∀ c ∈ h.performed acts, c.completed ≤ lastTick

instance (h : Session) (acts : List HostAct) : Decidable (h.Fits acts) :=
  inferInstanceAs (Decidable (_ ∧ _))

end Session

end Expander
