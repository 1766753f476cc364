import Expander.Stage

/-!
A single stage on an event queue of its own.

The bench plays both peers of the stage. It takes every packet that the stage sends, unless it is
told to refuse, and logs the packets it takes.
-/

set_option autoImplicit false

namespace Expander

/-- A packet that the bench took from the stage. -/
inductive BenchEntry where
  /-- A request that left towards the memory. -/
  | forwarded (tick : Tick) (packet : Packet)
  /-- A response that left towards the host. -/
  | responded (tick : Tick) (packet : Packet)
deriving DecidableEq, Repr

/-- A stage and the state of its two peers. -/
structure Bench where
  stage : Stage
  now : Tick := 0
  events : EventQueue := {}
  forwarded : List Packet := []
  log : List BenchEntry := []
  /-- The retries that the stage reported towards the host. -/
  requestRetries : Nat := 0
  /-- The retries that the stage reported towards the memory. -/
  responseRetries : Nat := 0
  refusesRequests : Bool := false
  refusesResponses : Bool := false

namespace Bench

def wake (b : Bench) (w : Wakeup) : Bench :=
  { b with events := b.events.schedule ⟨max w.tick b.now, 0, w.kind⟩ }

def perform (b : Bench) : Action → Bench
  | .wake w => b.wake w
  | .retryRequest => { b with requestRetries := b.requestRetries + 1 }
  | .retryResponse => { b with responseRetries := b.responseRetries + 1 }

/-- Replaces the stage, and performs the actions it asked for. -/
def settle (b : Bench) (stage : Stage) (actions : List Action) : Bench :=
  actions.foldl perform { b with stage }

def send (b : Bench) (p : Packet) : Delivery × Bench :=
  let r := b.stage.recvRequest b.now p
  (r.answer, b.settle r.stage r.actions)

def respond (b : Bench) (p : Packet) : Delivery × Bench :=
  let r := b.stage.recvResponse b.now p
  (r.answer, b.settle r.stage r.actions)

/-- Takes or refuses the head request of the stage. -/
def fireRequest (b : Bench) : Bench :=
  match b.stage.takeRequest b.now with
  | none => b
  | some (p, stage) =>
    if b.refusesRequests then { b with stage := stage.requestRefused b.now p }
    else
      let sent := stage.requestSent b.now
      { b with
        forwarded := b.forwarded ++ [p]
        log := b.log ++ [BenchEntry.forwarded b.now p] }.settle sent.1 sent.2

/-- Takes or refuses the head response of the stage. -/
def fireResponse (b : Bench) : Bench :=
  match b.stage.takeResponse b.now with
  | none => b
  | some (p, stage) =>
    if b.refusesResponses then { b with stage := stage.responseRefused b.now p }
    else
      let sent := stage.responseSent b.now
      { b with log := b.log ++ [BenchEntry.responded b.now p] }.settle sent.1 sent.2

def fire (b : Bench) (e : Event) : Bench :=
  match e.kind with
  | .sendRequest => b.fireRequest
  | .sendResponse => b.fireResponse
  | .process => let r := b.stage.process b.now; b.settle r.1 r.2

/-- An upper bound on the events that a run handles. -/
def budget (b : Bench) : Nat :=
  let work := 8 * b.events.size + b.stage.workload + 8
  64 * work * work

/-- Handles the events up to `limit`, at most `fuel` of them; `none` when more are due. -/
def drain (limit : Tick) : Nat → Bench → Option Bench
  | 0, b => if (b.events.popDue limit).isNone then some b else none
  | fuel + 1, b =>
    match b.events.popDue limit with
    | none => some b
    | some (e, events) => drain limit fuel ({ b with events, now := max b.now e.tick }.fire e)

/-- Handles the events up to `limit`, and then moves the time there. -/
def runUntil (b : Bench) (limit : Tick) : Option Bench :=
  (drain limit b.budget b).map fun ran => { ran with now := max ran.now limit }

/-- Runs from event to event, in at most `fuel` steps, until none is left. -/
def runWithin : Nat → Bench → Option Bench
  | 0, b => if b.events.isEmpty then some b else none
  | fuel + 1, b =>
    match b.events.nextTick with
    | none => some b
    | some tick => (b.runUntil tick).bind (runWithin fuel)

def run (b : Bench) : Option Bench := runWithin b.budget b

def releaseRequests (b : Bench) : Bench :=
  let r := b.stage.recvRequestRetry b.now
  { b with refusesRequests := false }.settle r.1 (r.2.map .wake)

def releaseResponses (b : Bench) : Bench :=
  let r := b.stage.recvResponseRetry b.now
  { b with refusesResponses := false }.settle r.1 (r.2.map .wake)

/-- Answers the oldest request that was taken: with `fill` in every byte, if it is not a response
already. A refused answer stays the oldest. -/
def answer (b : Bench) (fill : UInt8) (headerDelay : Tick) : Option Delivery × Bench :=
  match b.forwarded with
  | [] => (none, b)
  | p :: rest =>
    let answered := if p.isRequest then p.respond (List.replicate p.size fill) else p
    match { b with forwarded := rest }.respond { answered with headerDelay } with
    | (.accepted, next) => (some .accepted, next)
    | (.busy back, next) => (some (.busy back), { next with forwarded := back :: next.forwarded })
    | (.unroutable back, next) =>
      (some (.unroutable back), { next with forwarded := back :: next.forwarded })

end Bench

end Expander
