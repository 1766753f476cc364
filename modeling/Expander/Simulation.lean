import Expander.Config
import Expander.Fabric
import Expander.MemoryMap

/-!
A complete memory system: the host interface, the interconnect, and the stages behind it.

The host offers requests at the current tick and collects completions. Time advances by handling
pending events in order. Every run handles at most `budget` events; a run that is not finished by
then ends as `exhausted`, never as a result.
-/

set_option autoImplicit false

namespace Expander

/-- The largest access that the controller can queue. -/
structure RequestWindow where
  range : AddressRange
  burst : Nat
  /-- The bursts that every queue and limit of the controller allows. -/
  maxBursts : Nat
deriving DecidableEq, Repr

namespace RequestWindow

def ofConfig (c : ResolvedConfig) : RequestWindow where
  range := c.device.range
  burst := c.media.geometry.burstSize
  maxBursts :=
    min (min (min c.controller.readBufferSize c.controller.writeBufferSize)
      c.controller.maxPendingReads) c.controller.maxPendingWrites

/-- The bursts that an access at `offset` touches; its last byte is at `lastAddress` at most. -/
def burstCount (w : RequestWindow) (offset size : Nat) : Nat :=
  let burst := max w.burst 1
  let first := offset - offset % burst
  let last := min (offset + (max size 1 - 1)) lastAddress
  (last - first) / burst + 1

/-- Passes unless the access starts in the expander range and has more bursts than the window. -/
def check (w : RequestWindow) (r : HostRequest) : Except SimError Unit :=
  if w.range.contains r.addr && decide (w.maxBursts < w.burstCount (w.range.offsetOf r.addr) r.size)
  then .error (.requestTooLarge r.addr r.size (w.maxBursts * w.burst))
  else .ok ()

end RequestWindow

/-- The outcome of offering a request at the host interface. -/
inductive Admission where
  /-- The first stage took the request; its completion carries the number. -/
  | accepted (id : TransactionId)
  /-- The first stage is full; the request can be offered again after a retry. -/
  | retry (request : HostRequest)
deriving DecidableEq, Repr

/-- How a run of events ended. -/
inductive Halt where
  | settled
  | fault (error : SimError)
  | exhausted
deriving DecidableEq, Repr

/-- A memory system and its time. -/
structure Simulation where
  fabric : Fabric
  events : EventQueue := {}
  now : Tick := 0
  nextId : TransactionId := 0
  completions : List Completion := []
  hostRetry : Bool := false
  host : HostStatistics := {}
  /-- The ranges of memory and the components that hold their bytes. -/
  registrations : List (AddressRange × ComponentId)
  memoryMap : List MemoryRegion
  window : RequestWindow
  config : ResolvedConfig

namespace Simulation

/-- The error of an access that no component holds in full. -/
def unmapped (addr : Nat) : SimError := .routing addr "memory-map"

def unrouted (addr : Nat) : SimError := .routing addr "interconnect"

def addFrontEnd (c : ResolvedConfig) (f : Fabric) (controller : ComponentId) :
    Except SimError Fabric := do
  let range := c.device.range
  match c.topology with
  | .controller => f.attached controller [range]
  | .bridged | .direct =>
    let (device, f) := f.add (.device (.create "cxl-device" c.device range.size))
    let f ← f.connect device controller
    match c.bridge with
    | none => f.attached device [range]
    | some bridge =>
      let (front, f) := f.add (.bridge (.create "cxl-bridge" bridge range))
      let f ← f.connect front device
      f.attached front [range]

/-- The system of a configuration; fails when the configuration is wrong or the machine does not
give out what the system takes. -/
def create (m : Machine) (config : Config) : Except SimError Simulation := do
  let c ← config.resolve.mapError SimError.config
  let fabric : Fabric :=
    { interconnect := {
        width := c.system.busWidth, latency := c.system.busLatency, clock := c.system.busClock } }
  let systemRange := c.system.memoryRange
  let systemStore ← Store.allocate m 0 c.system.memorySize
  let (memory, fabric) := fabric.add
    (.memory { range := systemRange, latency := c.system.memoryLatency, store := systemStore })
  let fabric ← fabric.attached memory [systemRange]
  let expander := c.device.range
  let expanderStore ← Store.allocate m c.system.memorySize expander.size
  let media ← Media.createAll m c.media
  let controller ← Controller.create m "mem-ctrl" expander c.controller c.media.geometry media
    expanderStore
  let (controller, fabric) := fabric.add (.controller controller)
  let fabric ← addFrontEnd c fabric controller
  fabric.complete.mapError SimError.config
  .ok
    { fabric
      registrations := [(systemRange, memory), (expander, controller)]
      memoryMap := MemoryMap.build systemRange expander
      window := .ofConfig c
      config := c }

def nextEventTick (s : Simulation) : Option Tick := s.events.nextTick

def isIdle (s : Simulation) : Bool := s.events.isEmpty

def wake (s : Simulation) (id : ComponentId) (w : Wakeup) : Simulation :=
  { s with events := s.events.schedule ⟨max w.tick s.now, id, w.kind⟩ }

def retryRequest (s : Simulation) (id : ComponentId) : Simulation :=
  match s.fabric.stage? id with
  | none => s
  | some stage =>
    let retried := stage.recvRequestRetry s.now
    retried.2.foldl (fun s w => s.wake id w) { s with fabric := s.fabric.setStage id retried.1 }

def retryResponse (s : Simulation) (id : ComponentId) : Simulation :=
  match s.fabric.stage? id with
  | none => s
  | some stage =>
    let retried := stage.recvResponseRetry s.now
    retried.2.foldl (fun s w => s.wake id w) { s with fabric := s.fabric.setStage id retried.1 }

def perform (id : ComponentId) (s : Simulation) : Action → Simulation
  | .wake w => s.wake id w
  | .retryRequest =>
    match s.fabric.hostSide? id with
    | none => s
    | some .host => { s with hostRetry := true }
    | some (.component up) => s.retryRequest up
  | .retryResponse =>
    match s.fabric.memorySide? id with
    | none => s
    | some down => s.retryResponse down

/-- Replaces the stage of a component, and performs the actions it asked for. -/
def settle (s : Simulation) (id : ComponentId) (stage : Stage) (actions : List Action) :
    Simulation :=
  actions.foldl (perform id) { s with fabric := s.fabric.setStage id stage }

/-- Lets the stage of a component react, and performs the actions it asks for. -/
def react (s : Simulation) (id : ComponentId) (f : Stage → Stage × List Action) : Simulation :=
  match s.fabric.stage? id with
  | none => s
  | some stage => let r := f stage; s.settle id r.1 r.2

/-- The head request of a component, if it is ready, and the system without it. -/
def takeRequest (s : Simulation) (id : ComponentId) : Option (Packet × Simulation) :=
  (s.fabric.stage? id).bind fun stage =>
    (stage.takeRequest s.now).map fun r =>
      (r.1, { s with fabric := s.fabric.setStage id r.2 })

/-- The head response of a component, if it is ready, and the system without it. -/
def takeResponse (s : Simulation) (id : ComponentId) : Option (Packet × Simulation) :=
  (s.fabric.stage? id).bind fun stage =>
    (stage.takeResponse s.now).map fun r =>
      (r.1, { s with fabric := s.fabric.setStage id r.2 })

def offerRequest (s : Simulation) (id : ComponentId) (p : Packet) : Delivery × Simulation :=
  match s.fabric.stage? id with
  | none => (.unroutable p, s)
  | some stage => let r := stage.recvRequest s.now p; (r.answer, s.settle id r.stage r.actions)

def offerResponse (s : Simulation) (id : ComponentId) (p : Packet) : Delivery × Simulation :=
  match s.fabric.stage? id with
  | none => (.unroutable p, s)
  | some stage => let r := stage.recvResponse s.now p; (r.answer, s.settle id r.stage r.actions)

/-- Moves the head request of a component to the stage behind it. -/
def forwardRequest (s : Simulation) (id : ComponentId) : Except SimError Unit × Simulation :=
  match s.fabric.memorySide? id with
  | none => (.ok (), s)
  | some down =>
    match s.takeRequest id with
    | none => (.ok (), s)
    | some (p, taken) =>
      match taken.offerRequest down (p.arriveAt down s.now) with
      | (.accepted, offered) => (.ok (), offered.react id fun stage => stage.requestSent s.now)
      | (.busy back, offered) =>
        (.ok (), offered.react id fun stage => (stage.requestRefused s.now back.dropLastHop, []))
      | (.unroutable back, offered) =>
        (.error (.routing back.addr (offered.fabric.nameOf down)), offered)

/-- Hands a response to the host. -/
def complete (s : Simulation) (p : Packet) : Simulation :=
  let completion := Completion.ofResponse p (s.now + s.fabric.interconnect.transitTime p.payload)
  { s with
    completions := s.completions ++ [completion]
    host := { s.host with
      completed := s.host.completed + 1
      totalLatency := s.host.totalLatency + completion.latency } }

/-- Moves the head response of a component to the peer in front of it. -/
def forwardResponse (s : Simulation) (id : ComponentId) : Except SimError Unit × Simulation :=
  match s.fabric.hostSide? id with
  | none => (.ok (), s)
  | some peer =>
    match s.takeResponse id with
    | none => (.ok (), s)
    | some (p, taken) =>
      match peer with
      | .host =>
        (.ok (), (taken.complete p).react id fun stage => stage.responseSent s.now)
      | .component up =>
        match taken.offerResponse up p with
        | (.accepted, offered) => (.ok (), offered.react id fun stage => stage.responseSent s.now)
        | (.busy back, offered) =>
          (.ok (), offered.react id fun stage => (stage.responseRefused s.now back, []))
        | (.unroutable back, offered) =>
          (.error (.routing back.addr (offered.fabric.nameOf up)), offered)

def dispatch (s : Simulation) (e : Event) : Except SimError Unit × Simulation :=
  match e.kind with
  | .sendRequest => s.forwardRequest e.target
  | .sendResponse => s.forwardResponse e.target
  | .process => (.ok (), s.react e.target fun stage => stage.process s.now)

/-- A measure of the work in hand: pending events and what the stages hold. -/
def workload (s : Simulation) : Nat := 8 * s.events.size + s.fabric.workload + 8

/-- An upper bound on the events that a run handles while the host sends nothing. -/
def budget (s : Simulation) : Nat := 64 * s.workload * s.workload

/-- Handles the events that `due` hands out, at most `fuel` of them. -/
def drain (due : EventQueue → Option (Event × EventQueue)) :
    Nat → Simulation → Halt × Simulation
  | 0, s => if (due s.events).isNone then (.settled, s) else (.exhausted, s)
  | fuel + 1, s =>
    match due s.events with
    | none => (.settled, s)
    | some (e, events) =>
      match { s with events, now := max s.now e.tick }.dispatch e with
      | (.ok (), next) => drain due fuel next
      | (.error e, failed) => (.fault e, failed)

/-- Handles the events up to `limit`, and then moves the time there. -/
def runUntil (s : Simulation) (limit : Tick) : Halt × Simulation :=
  match drain (fun q => q.popDue limit) s.budget s with
  | (.settled, ran) => (.settled, { ran with now := max ran.now limit })
  | halted => halted

def lastCompletion (s : Simulation) : Option Tick := (s.completions.map (·.completed)).max?

/-- The tick at which the first waiting completion reaches the host. -/
def nextCompletion (s : Simulation) : Option Tick := (s.completions.map (·.completed)).min?

/-- Handles all events, and then moves the time behind the last completion. -/
def runUntilIdle (s : Simulation) : Halt × Simulation :=
  match drain EventQueue.pop s.budget s with
  | (.settled, ran) => (.settled, { ran with now := max ran.now (ran.lastCompletion.getD 0) })
  | halted => halted

/-- Whether a completion is handed out before another: by tick, then by number. -/
def completesBefore (a b : Completion) : Bool :=
  decide (a.completed < b.completed ∨ a.completed = b.completed ∧ a.id < b.id)

/-- The completions that have reached the host, the oldest first, and the system without them. -/
def takeCompletions (s : Simulation) : List Completion × Simulation :=
  let due := fun c : Completion => decide (c.completed ≤ s.now)
  (sortStable completesBefore (s.completions.filter due),
    { s with completions := s.completions.filter fun c => !due c })

/-- Whether a retry was reported since the last call, and the system that forgets it. -/
def takeRetry (s : Simulation) : Bool × Simulation := (s.hostRetry, { s with hostRetry := false })

/-- Advances event by event to the next completion, in at most `fuel` steps. -/
def pollWithin : Nat → Simulation → Halt × List Completion × Simulation
  | 0, s => (.exhausted, [], s)
  | fuel + 1, s =>
    let advance (tick : Tick) : Halt × List Completion × Simulation :=
      match s.runUntil tick with
      | (.settled, ran) => pollWithin fuel ran
      | (halt, ran) => (halt, [], ran)
    match s.nextCompletion, s.nextEventTick with
    | some completed, some event =>
      if event ≤ completed then advance event
      else (.settled, { s with now := max s.now completed }.takeCompletions)
    | some completed, none => (.settled, { s with now := max s.now completed }.takeCompletions)
    | none, some event => advance event
    | none, none => (.settled, [], s)

/-- Advances to the next completion and hands out all that reach the host then; nothing when
nothing is in flight. -/
def pollCompletions (s : Simulation) : Halt × List Completion × Simulation :=
  pollWithin (s.budget + 1) s

def sendRequest (s : Simulation) (r : HostRequest) : Except SimError Admission × Simulation :=
  match s.window.check r with
  | .error e => (.error e, s)
  | .ok () =>
    match s.fabric.interconnect.route r.addr r.size with
    | (none, interconnect) =>
      (.error (unrouted r.addr), { s with fabric := { s.fabric with interconnect } })
    | (some target, interconnect) =>
      let routed := { s with fabric := { s.fabric with interconnect } }
      let request := r.toPacket s.nextId s.now
      let p := { request with headerDelay := interconnect.transitTime request.payload }.arriveAt
        target s.now
      match routed.fabric.stage? target with
      | none => (.error (.unknownComponent target), routed)
      | some stage =>
        let reply := stage.recvRequest s.now p
        match reply.answer with
        | .accepted =>
          let admitted := { routed with
            nextId := s.nextId + 1
            host := { s.host with issued := s.host.issued + 1 } }
          (.ok (.accepted s.nextId), admitted.settle target reply.stage reply.actions)
        | .busy back =>
          let refused := { routed with host := { s.host with retried := s.host.retried + 1 } }
          (.ok (.retry (.ofPacket back)), refused.settle target reply.stage reply.actions)
        | .unroutable back => (.error (.routing back.addr stage.name), routed)

/-- Walks a packet through the stages from a component on, and gives its response and the latency
so far. A walk through more stages than there are has no end. -/
def walkAtomic : Nat → ComponentId → Packet → Tick → Simulation →
    Except SimError (Packet × Tick) × Simulation
  | 0, id, p, _, s => (.error (.routing p.addr (s.fabric.nameOf id)), s)
  | fuel + 1, id, p, latency, s =>
    match s.fabric.stage? id with
    | none => (.error (.unknownComponent id), s)
    | some stage =>
      let served := stage.accessAtomic (p.arriveAt id (s.now + latency))
      let after := { s with fabric := s.fabric.setStage id served.2.2 }
      match served.1 with
      | .complete delay => (.ok (served.2.1, latency + delay), after)
      | .unroutable => (.error (.routing p.addr stage.name), after)
      | .forward delay =>
        match s.fabric.memorySide? id with
        | none => (.error (.routing p.addr stage.name), after)
        | some down => walkAtomic fuel down served.2.1 (latency + delay) after

/-- Performs an access without queueing: its latency is the sum of the fixed latencies of the
stages. -/
def accessAtomic (s : Simulation) (r : HostRequest) : Except SimError Completion × Simulation :=
  match s.window.check r with
  | .error e => (.error e, s)
  | .ok () =>
    match s.fabric.interconnect.route r.addr r.size with
    | (none, interconnect) =>
      (.error (unrouted r.addr), { s with fabric := { s.fabric with interconnect } })
    | (some target, interconnect) =>
      let routed := { s with fabric := { s.fabric with interconnect }, nextId := s.nextId + 1 }
      let p := r.toPacket s.nextId s.now
      match walkAtomic s.fabric.nodes.length target p (interconnect.transitTime p.payload) routed
        with
      | (.error e, walked) => (.error e, walked)
      | (.ok (response, latency), walked) =>
        let total := latency + interconnect.transitTime response.payload
        (.ok (.ofResponse response (s.now + total)), walked)

/-- The range that holds all of an access, the component with its bytes, and the bytes. -/
def storeFor (s : Simulation) (addr len : Nat) :
    Option (AddressRange × ComponentId × Stage × Store) :=
  (s.registrations.find? fun entry => entry.1.containsAccess addr len).bind fun entry =>
    (s.fabric.stage? entry.2).bind fun stage =>
      stage.store?.map fun store => (entry.1, entry.2, stage, store)

def load (s : Simulation) (addr : Nat) (data : List UInt8) : Except SimError Simulation :=
  match s.storeFor addr data.length with
  | none => .error (unmapped addr)
  | some (range, id, stage, store) =>
    match store.write? (range.offsetOf addr) data with
    | none => .error (unmapped addr)
    | some written =>
      .ok { s with fabric := s.fabric.setStage id (stage.withStore written) }

def peek (s : Simulation) (addr len : Nat) : Except SimError (List UInt8) :=
  match s.storeFor addr len with
  | none => .error (unmapped addr)
  | some (range, _, _, store) =>
    match store.read? (range.offsetOf addr) len with
    | none => .error (unmapped addr)
    | some bytes => .ok bytes

def statistics (s : Simulation) : Statistics :=
  s.fabric.nodes.foldl (fun stats node => node.stage.report stats)
    { ticks := s.now, host := s.host }

end Simulation

end Expander
