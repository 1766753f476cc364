import Expander.Config.Sections
import Expander.Handshake
import Expander.Heap
import Expander.Store

/-!
The memory controller: a queue of read bursts, a queue of write bursts, and the media behind them.

A packet is split into bursts and takes effect on the bytes when it is accepted. Scheduling rounds
then issue one burst at a time: the bus serves reads until the write queue passes its high mark, and
drains writes until it falls below its low mark. Within a queue a starved burst goes first, then the
oldest row hit, then the oldest burst. A write is answered when it is queued, a read when its last
burst is issued.
-/

set_option autoImplicit false

namespace Expander

inductive BusDirection where
  | read
  | write
deriving DecidableEq, Repr

structure Burst where
  packetId : TransactionId
  /-- The start of the burst in the served range. -/
  offset : Nat
  coordinate : Coordinate
  kind : AccessKind
  arrived : Tick
  /-- The rounds that issued another burst of the same queue. -/
  roundsWaited : Nat := 0
deriving DecidableEq, Repr

/-- An accepted read that waits for the media. -/
structure PendingRead where
  packet : Packet
  burstsLeft : Nat
  ready : Tick
  headerDelay : Tick
deriving DecidableEq, Repr

/-- A response with the tick from which it may leave and its number in order of creation. -/
structure ReadyResponse where
  /-- The tick from which the response may leave. -/
  ready : Tick
  seq : Nat
  packet : Packet
deriving DecidableEq, Repr

/-- Whether a response leaves before another: by tick, then by number. -/
def ReadyResponse.before (a b : ReadyResponse) : Bool :=
  decide (a.ready < b.ready ∨ a.ready = b.ready ∧ a.seq < b.seq)

/-- A memory controller in front of media channels of type `μ`. -/
structure Controller (μ : Type) where
  name : String
  range : AddressRange
  config : ControllerConfig
  decoder : AddressDecoder
  media : List μ
  store : Store
  /-- The read bursts, the oldest first. -/
  readQueue : List Burst := []
  /-- The write bursts, the oldest first. -/
  writeQueue : List Burst := []
  /-- The offsets that have a burst in the write queue. -/
  queuedWrites : List Nat := []
  /-- The ticks at which issued reads are done. -/
  readsInFlight : List Tick := []
  /-- The ticks at which issued writes are done. -/
  writesInFlight : List Tick := []
  /-- The reads that wait for the media, by packet. -/
  pending : List (TransactionId × PendingRead) := []
  /-- The responses, the next to leave at the top. -/
  responses : Heap ReadyResponse := {}
  /-- The tick and number of the response that was handed over last. -/
  lastTaken : Option (Tick × Nat) := none
  direction : BusDirection := .read
  readsThisPhase : Nat := 0
  writesThisPhase : Nat := 0
  nextRound : Option Tick := none
  roundNotBefore : Tick := 0
  /-- Whether a refused read was promised a retry. -/
  readRetryOwed : Bool := false
  /-- Whether a refused write was promised a retry. -/
  writeRetryOwed : Bool := false
  awaitingResponseRetry : Bool := false
  nextSeq : Nat := 0
  counters : ControllerStatistics := {}

namespace Controller

variable {μ : Type}

/-- A controller with empty queues; fails when the number of channels does not fit the geometry, or
when the media or the store are smaller than the range. Both queues have room from the start for all
that they may ever hold. -/
def create (m : Machine) (name : String) (range : AddressRange) (config : ControllerConfig)
    (geometry : Geometry) (media : List μ) (store : Store) : Except SimError (Controller μ) :=
  if media.length ≠ geometry.channels then
    .error (.config (.geometry (.channelCount media.length geometry.channels)))
  else if geometry.capacity < range.size then
    .error (.config (.rangeExceedsCapacity range geometry.capacity))
  else if store.size < range.size then .error (.config (.rangeExceedsCapacity range store.size))
  else do
    m.setAside [config.readBufferSize, config.writeBufferSize]
    .ok { name, range, config, decoder := ⟨geometry, config.addressMapping⟩, media, store }

theorem create_eq_ok {m : Machine} {name : String} {range : AddressRange}
    {config : ControllerConfig} {geometry : Geometry} {media : List μ} {store : Store}
    {c : Controller μ} (made : create m name range config geometry media store = .ok c) :
    media.length = geometry.channels ∧ range.size ≤ geometry.capacity ∧ range.size ≤ store.size ∧
      c = { name, range, config, decoder := ⟨geometry, config.addressMapping⟩, media, store } := by
  rw [create] at made
  split at made
  · cases made
  next channels =>
    split at made
    · cases made
    next capacity =>
      split at made
      · cases made
      next stored =>
        refine ⟨Decidable.not_not.1 channels, Nat.le_of_not_lt capacity,
          Nat.le_of_not_lt stored, ?_⟩
        cases room : m.setAside [config.readBufferSize, config.writeBufferSize] with
        | error _ =>
          rw [room] at made
          cases made
        | ok =>
          rw [room] at made
          cases made
          rfl

/-- The number of ticks that lie behind `now`. -/
def countAfter (ticks : List Tick) (now : Tick) : Nat := ticks.countP fun t => decide (now < t)

/-- The read bursts that are queued or not done at `now`. -/
def outstandingReads (c : Controller μ) (now : Tick) : Nat :=
  c.readQueue.length + countAfter c.readsInFlight now

/-- The write bursts that are queued or not done at `now`. -/
def outstandingWrites (c : Controller μ) (now : Tick) : Nat :=
  c.writeQueue.length + countAfter c.writesInFlight now

/-- Whether `needed` more read bursts fit. -/
def readRoom (c : Controller μ) (now : Tick) (needed : Nat) : Bool :=
  decide (c.readQueue.length + needed ≤ c.config.readBufferSize ∧
    c.outstandingReads now + needed ≤ c.config.maxPendingReads)

/-- Whether `needed` more write bursts fit. -/
def writeRoom (c : Controller μ) (now : Tick) (needed : Nat) : Bool :=
  decide (c.writeQueue.length + needed ≤ c.config.writeBufferSize ∧
    c.outstandingWrites now + needed ≤ c.config.maxPendingWrites)

/-- Forgets the issued bursts that are done at `now`. -/
def prune (c : Controller μ) (now : Tick) : Controller μ :=
  { c with
    readsInFlight := c.readsInFlight.filter fun t => decide (now < t)
    writesInFlight := c.writesInFlight.filter fun t => decide (now < t) }

def burstsOf (c : Controller μ) (p : Packet) : List Nat :=
  c.decoder.burstsOf (c.range.offsetOf p.addr) p.size

def freshBurstsOf (c : Controller μ) (p : Packet) : List Nat :=
  (c.burstsOf p).filter fun offset => !c.queuedWrites.contains offset

def burstAt (c : Controller μ) (p : Packet) (kind : AccessKind) (now : Tick) (offset : Nat) :
    Burst :=
  { packetId := p.id, offset, coordinate := c.decoder.decode offset, kind, arrived := now }

/-- Adds a response that may leave from `ready` on, and asks to be woken for it. -/
def pushResponse (c : Controller μ) (ready : Tick) (p : Packet) : Controller μ × List Action :=
  ({ c with
      responses := c.responses.push ReadyResponse.before ⟨ready, c.nextSeq, p⟩
      nextSeq := c.nextSeq + 1 },
    [.at ready .sendResponse])

/-- Asks for a round at `tick`, or as soon after it as the bus allows, unless one comes earlier. -/
def requestRound (c : Controller μ) (tick : Tick) : Controller μ × List Action :=
  let start := max tick c.roundNotBefore
  if c.nextRound.all fun planned => decide (start < planned) then
    ({ c with nextRound := some start }, [.at start .process])
  else (c, [])

/-- Files a read that waits for the media. -/
def filePending (c : Controller μ) (id : TransactionId) (read : PendingRead) : Controller μ :=
  { c with pending := (c.pending.filter fun entry => entry.1 != id) ++ [(id, read)] }

/-- Offers a read. Bursts with a queued write need no access to the media. -/
def acceptRead (c : Controller μ) (now : Tick) (p : Packet) : Reply (Controller μ) Delivery :=
  let bursts := c.freshBurstsOf p
  if !c.readRoom now bursts.length then
    ⟨{ c with
        readRetryOwed := true
        counters := { c.counters with rejectedReads := c.counters.rejectedReads + 1 } },
      [], .busy p⟩
  else
    let forwarded := (c.burstsOf p).length - bursts.length
    let response :=
      p.chargeHeader.respond (c.store.readOrZero (c.range.offsetOf p.addr) p.size)
    let counted := { c with counters := { c.counters with
      readRequests := c.counters.readRequests + 1
      forwardedReads := c.counters.forwardedReads + forwarded } }
    if bursts.isEmpty then
      let answered :=
        counted.pushResponse (now + p.headerDelay + c.config.frontendLatency) response
      ⟨answered.1, answered.2, .accepted⟩
    else
      let queued := { counted with
        readQueue := counted.readQueue ++ bursts.map (counted.burstAt p .read now) }
      let filed := queued.filePending p.id
        { packet := response, burstsLeft := bursts.length, ready := now
          headerDelay := p.headerDelay }
      let asked := filed.requestRound now
      ⟨asked.1, asked.2, .accepted⟩

/-- Offers a write. Bursts with a queued write are merged into it. -/
def acceptWrite (c : Controller μ) (now : Tick) (p : Packet) : Reply (Controller μ) Delivery :=
  let fresh := c.freshBurstsOf p
  if !c.writeRoom now fresh.length then
    ⟨{ c with
        writeRetryOwed := true
        counters := { c.counters with rejectedWrites := c.counters.rejectedWrites + 1 } },
      [], .busy p⟩
  else
    let merged := (c.burstsOf p).length - fresh.length
    let queued := { c with
      store := c.store.writeOrKeep (c.range.offsetOf p.addr) p.data
      writeQueue := c.writeQueue ++ fresh.map (c.burstAt p .write now)
      queuedWrites := c.queuedWrites ++ fresh
      counters := { c.counters with
        writeRequests := c.counters.writeRequests + 1
        mergedWrites := c.counters.mergedWrites + merged } }
    let answered := queued.pushResponse (now + p.headerDelay + c.config.frontendLatency)
      (p.chargeHeader.respond [])
    let asked := answered.1.requestRound now
    ⟨asked.1, answered.2 ++ asked.2, .accepted⟩

def recvRequest (c : Controller μ) (now : Tick) (p : Packet) : Reply (Controller μ) Delivery :=
  if !c.range.containsAccess p.addr p.size then ⟨c, [], .unroutable p⟩
  else
    match p.kind with
    | .read => (c.prune now).acceptRead now p
    | .write => (c.prune now).acceptWrite now p

/-- Whether the bus turns around before the next burst. -/
def turnsAround (c : Controller μ) : Bool :=
  match c.direction with
  | .read =>
    !c.writeQueue.isEmpty &&
      (c.readQueue.isEmpty ||
        decide (c.config.writeHighMark < c.writeQueue.length ∧
          c.config.minReadsPerSwitch ≤ c.readsThisPhase))
  | .write =>
    !c.readQueue.isEmpty &&
      (c.writeQueue.isEmpty ||
        decide (c.writeQueue.length < c.config.writeLowMark ∨
          c.config.minWritesPerSwitch ≤ c.writesThisPhase))

/-- Ends the phase of the bus and starts one of the other direction. -/
def turnAround (c : Controller μ) : Controller μ :=
  match c.direction with
  | .read =>
    { c with
      direction := .write
      readsThisPhase := 0
      counters := { c.counters with
        busTurnarounds := c.counters.busTurnarounds + 1
        readsPerTurnaround := c.counters.readsPerTurnaround.sample c.readsThisPhase } }
  | .write =>
    { c with
      direction := .read
      writesThisPhase := 0
      counters := { c.counters with
        busTurnarounds := c.counters.busTurnarounds + 1
        writesPerTurnaround := c.counters.writesPerTurnaround.sample c.writesThisPhase } }

/-- The bus in the direction of the next burst. -/
def chooseDirection (c : Controller μ) : Controller μ :=
  if c.turnsAround then c.turnAround else c

/-- The queue that the bus serves. -/
def activeQueue (c : Controller μ) : List Burst :=
  match c.direction with
  | .read => c.readQueue
  | .write => c.writeQueue

/-- The controller with another queue in the direction that the bus serves. -/
def withActiveQueue (c : Controller μ) (queue : List Burst) : Controller μ :=
  match c.direction with
  | .read => { c with readQueue := queue }
  | .write => { c with writeQueue := queue }

/-- Whether a burst has waited too long. -/
def isStarved (c : Controller μ) (b : Burst) : Bool :=
  decide (c.config.starvationThreshold ≤ b.roundsWaited)

def isRowHit [MediaChannel μ] (c : Controller μ) (b : Burst) : Bool :=
  match c.media[b.coordinate.channel]? with
  | none => false
  | some channel => MediaChannel.isRowHit channel b.coordinate

/-- The position of the next burst of a queue, and whether it is taken because it is starved. -/
def chooseBurst [MediaChannel μ] (c : Controller μ) (queue : List Burst) : Nat × Bool :=
  match queue.findIdx? c.isStarved with
  | some index => (index, true)
  | none => ((queue.findIdx? c.isRowHit).getD 0, false)

/-- Counts an issued burst of a read, and answers the read with its last burst. -/
def finishRead (c : Controller μ) (id : TransactionId) (readyAt : Tick) :
    Controller μ × List Action :=
  match c.pending.lookup id with
  | none => (c, [])
  | some read =>
    let ready := max read.ready readyAt
    if 1 < read.burstsLeft then
      let rest := { read with burstsLeft := read.burstsLeft - 1, ready }
      ({ c with pending := c.pending.map fun entry => if entry.1 = id then (id, rest) else entry },
        [])
    else
      { c with pending := c.pending.filter fun entry => entry.1 != id }.pushResponse
        (ready + read.headerDelay + c.config.frontendLatency + c.config.backendLatency)
        read.packet

def countIssue (s : ControllerStatistics) (b : Burst) (now : Tick) (promoted rowHit : Bool) :
    ControllerStatistics :=
  { s with
    totalQueueLatency := s.totalQueueLatency + (now - b.arrived)
    maxRoundsWaited := max s.maxRoundsWaited b.roundsWaited
    starvationPromotions := s.starvationPromotions + if promoted then 1 else 0
    rowHits := s.rowHits + if rowHit then 1 else 0
    readBursts := s.readBursts + if b.kind = .read then 1 else 0
    writeBursts := s.writeBursts + if b.kind = .write then 1 else 0 }

def fileIssued (c : Controller μ) (b : Burst) (readyAt : Tick) : Controller μ × List Action :=
  match b.kind with
  | .read =>
    { c with
      readsThisPhase := c.readsThisPhase + 1
      readsInFlight := readyAt :: c.readsInFlight }.finishRead b.packetId readyAt
  | .write =>
    ({ c with
        writesThisPhase := c.writesThisPhase + 1
        writesInFlight := readyAt :: c.writesInFlight
        queuedWrites := c.queuedWrites.erase b.offset },
      [])

def channelOf (c : Controller μ) (b : Burst) : Nat :=
  min b.coordinate.channel (c.media.length - 1)

def issue [MediaChannel μ] (c : Controller μ) (now : Tick) (b : Burst) (promoted : Bool)
    (channel : μ) : Controller μ × List Action :=
  let served := MediaChannel.access channel b.coordinate b.kind now
  let access := served.1
  let filed := { c with
    media := c.media.set (c.channelOf b) served.2
    counters := countIssue c.counters b now promoted access.rowHit }.fileIssued b access.readyAt
  let next := max (now + MediaChannel.commandSlot served.2)
    (access.readyAt - MediaChannel.staticLatency served.2)
  let spaced := { filed.1 with roundNotBefore := next }
  if spaced.readQueue.isEmpty && spaced.writeQueue.isEmpty then (spaced, filed.2)
  else
    let asked := spaced.requestRound next
    (asked.1, filed.2 ++ asked.2)

/-- The bursts that stay in a queue when the one at `index` leaves; each has waited a round more. -/
def passOver (queue : List Burst) (index : Nat) : List Burst :=
  (queue.eraseIdx index).map fun b => { b with roundsWaited := b.roundsWaited + 1 }

/-- One scheduling round: issues one burst, if any is queued. -/
def runRound [MediaChannel μ] (c : Controller μ) (now : Tick) : Controller μ × List Action :=
  if c.readQueue.isEmpty && c.writeQueue.isEmpty then (c, [])
  else
    let turned := c.chooseDirection
    let queue := turned.activeQueue
    let choice := turned.chooseBurst queue
    match queue[choice.1]? with
    | none => (turned, [])
    | some burst =>
      let passed := turned.withActiveQueue (passOver queue choice.1)
      match passed.media[passed.channelOf burst]? with
      | none => (passed, [])
      | some channel => passed.issue now burst choice.2 channel

def nextDone (c : Controller μ) (now : Tick) : Option Tick :=
  ((c.readsInFlight ++ c.writesInFlight).filter fun t => decide (now < t)).min?

/-- Whether a promised retry could be redeemed by a packet of one burst. -/
def canRetry (c : Controller μ) (now : Tick) : Bool :=
  c.readRetryOwed && c.readRoom now 1 || c.writeRetryOwed && c.writeRoom now 1

/-- Redeems the promises of a retry, or asks to be woken when the next issued burst is done. -/
def retryIfRoom (c : Controller μ) (now : Tick) : Controller μ × List Action :=
  if !(c.readRetryOwed || c.writeRetryOwed) then (c, [])
  else if c.canRetry now then
    ({ c with readRetryOwed := false, writeRetryOwed := false }, [.retryRequest])
  else (c, (c.nextDone now).toList.map fun t => .at t .process)

/-- Runs the round that is due, if any, and redeems promised retries. -/
def process [MediaChannel μ] (c : Controller μ) (now : Tick) : Controller μ × List Action :=
  let pruned := c.prune now
  let ran :=
    if pruned.nextRound.any fun planned => decide (planned ≤ now) then
      { pruned with nextRound := none }.runRound now
    else (pruned, [])
  let retried := ran.1.retryIfRoom now
  (retried.1, ran.2 ++ retried.2)

def takeResponse (c : Controller μ) (now : Tick) : Option (Packet × Controller μ) :=
  if c.awaitingResponseRetry then none
  else
    match c.responses.pop? ReadyResponse.before with
    | none => none
    | some (r, responses) =>
      if r.ready ≤ now then
        some (r.packet, { c with responses, lastTaken := some (r.ready, r.seq) })
      else none

def responseSent (c : Controller μ) (now : Tick) : Controller μ × List Action :=
  ({ c with lastTaken := none },
    if c.responses.top?.any fun r => decide (r.ready ≤ now) then [.at now .sendResponse] else [])

/-- The peer refused the response, which goes back to its place and waits for a retry. -/
def responseRefused (c : Controller μ) (now : Tick) (p : Packet) : Controller μ :=
  let place := c.lastTaken.getD (now, 0)
  { c with
    lastTaken := none
    awaitingResponseRetry := true
    responses := c.responses.push ReadyResponse.before ⟨place.1, place.2, p⟩ }

def recvResponseRetry (c : Controller μ) (now : Tick) : Controller μ × List Wakeup :=
  ({ c with awaitingResponseRetry := false }, [⟨now, .sendResponse⟩])

/-- The latency of an access without queueing. -/
def atomicLatency [MediaChannel μ] (c : Controller μ) : Tick :=
  c.config.frontendLatency + c.config.backendLatency +
    match c.media with
    | [] => 0
    | channel :: _ => MediaChannel.staticLatency channel

def accessAtomic [MediaChannel μ] (c : Controller μ) (p : Packet) :
    AtomicHop × Packet × Controller μ :=
  if !c.range.containsAccess p.addr p.size then (.unroutable, p, c)
  else
    let offset := c.range.offsetOf p.addr
    match p.kind with
    | .read => (.complete c.atomicLatency, p.respond (c.store.readOrZero offset p.size), c)
    | .write =>
      (.complete c.atomicLatency, p.respond [],
        { c with store := c.store.writeOrKeep offset p.data })

end Controller

end Expander
