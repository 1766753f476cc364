import Expander.Config.Sections
import Expander.PacketQueue
import Expander.Handshake

/-!
The bridge between the host interconnect and the front-end device.

The bridge delays packets in two bounded queues. It takes a request only if it can reserve room for
the response, so the response queue always has room for what comes back.
-/

set_option autoImplicit false

namespace Expander

structure Bridge where
  name : String
  config : BridgeConfig
  /-- The expander range, inside which packets pay the protocol latency. -/
  expander : AddressRange
  requests : PacketQueue
  responses : PacketQueue
  /-- The accepted requests whose response has not left the bridge. -/
  reserved : Nat := 0
  /-- Whether a refused request was promised a retry. -/
  retryOwed : Bool := false
  /-- Whether the head request waits for the device's retry. -/
  awaitingRequestRetry : Bool := false
  /-- Whether the head response waits for the host's retry. -/
  awaitingResponseRetry : Bool := false
  /-- The tick of the latest accepted response. -/
  lastResponse : Option Tick := none
  counters : BridgeStatistics := {}
deriving DecidableEq, Repr

namespace Bridge

def create (name : String) (config : BridgeConfig) (expander : AddressRange) : Bridge :=
  { name, config, expander
    requests := .empty config.requestDepth
    responses := .empty config.responseDepth }

/-- Whether a packet passes the address filter. -/
def serves (b : Bridge) (p : Packet) : Bool :=
  b.config.ranges.any fun r => r.containsAccess p.addr p.size

def delayFor (b : Bridge) (addr : Nat) : Tick :=
  b.config.latency + if b.expander.contains addr then b.config.protocolLatency else 0

/-- Whether a request would be accepted. -/
def hasRoom (b : Bridge) : Bool :=
  !b.requests.isFull && decide (b.reserved < b.config.responseDepth)

/-- A request with its message class, if it lies in the expander range. -/
def tag (b : Bridge) (p : Packet) : Packet :=
  if b.expander.contains p.addr then { p with link := some (.requestFor p.kind) } else p

def retryIfRoom (b : Bridge) : Bridge × List Action :=
  if b.retryOwed && b.hasRoom then ({ b with retryOwed := false }, [.retryRequest]) else (b, [])

/-- The wake-ups of a queue that gained a packet: one for its head, if it had none. -/
def wakeFirst (queue : PacketQueue) (awaiting : Bool) (ready : Tick) (kind : EventKind) :
    List Action :=
  if queue.isEmpty && !awaiting then [.at ready kind] else []

def recvRequest (b : Bridge) (now : Tick) (p : Packet) : Reply Bridge Delivery :=
  if !b.serves p then ⟨b, [], .unroutable p⟩
  else if b.config.responseDepth ≤ b.reserved then
    ⟨{ b with
        retryOwed := true
        counters := { b.counters with
          responseQueueFull := b.counters.responseQueueFull + 1 } }, [], .busy p⟩
  else
    let ready := now + p.headerDelay + b.delayFor p.addr
    match b.requests.push? (b.tag p.chargeHeader) ready with
    | none =>
      ⟨{ b with
          retryOwed := true
          counters := { b.counters with
            requestQueueFull := b.counters.requestQueueFull + 1 } }, [], .busy p⟩
    | some requests =>
      ⟨{ b with
          requests
          reserved := b.reserved + 1
          counters := { b.counters with requests := b.counters.requests + 1 } },
        wakeFirst b.requests b.awaitingRequestRetry ready .sendRequest, .accepted⟩

def takeRequest (b : Bridge) (now : Tick) : Option (Packet × Bridge) :=
  if b.awaitingRequestRetry then none
  else (b.requests.popReady? now).map fun r => (r.1, { b with requests := r.2 })

def requestSent (b : Bridge) (now : Tick) : Bridge × List Action :=
  let retried := b.retryIfRoom
  (retried.1, (sendAfter .sendRequest now b.requests.headReady).map .wake ++ retried.2)

/-- The device refused the request, which waits at the head for a retry. -/
def requestRefused (b : Bridge) (now : Tick) (p : Packet) : Bridge :=
  { b with
    awaitingRequestRetry := true
    requests := b.requests.pushFront p now
    counters := { b.counters with requestRetries := b.counters.requestRetries + 1 } }

def recvRequestRetry (b : Bridge) (now : Tick) : Bridge × List Wakeup :=
  ({ b with awaitingRequestRetry := false }, sendAfter .sendRequest now b.requests.headReady)

def countResponse (b : Bridge) (now : Tick) : BridgeStatistics :=
  { b.counters with
    responses := b.counters.responses + 1
    responseInterval := match b.lastResponse with
      | none => b.counters.responseInterval
      | some last => b.counters.responseInterval.sample ((now - last) / nanosecond) }

def recvResponse (b : Bridge) (now : Tick) (p : Packet) : Reply Bridge Delivery :=
  let ready := now + p.headerDelay + b.delayFor p.addr
  match b.responses.push? p.chargeHeader ready with
  | none => ⟨b, [], .busy p⟩
  | some responses =>
    ⟨{ b with responses, lastResponse := some now, counters := b.countResponse now },
      wakeFirst b.responses b.awaitingResponseRetry ready .sendResponse, .accepted⟩

def takeResponse (b : Bridge) (now : Tick) : Option (Packet × Bridge) :=
  if b.awaitingResponseRetry then none
  else (b.responses.popReady? now).map fun r => (r.1, { b with responses := r.2 })

def responseSent (b : Bridge) (now : Tick) : Bridge × List Action :=
  let retried := { b with reserved := b.reserved - 1 }.retryIfRoom
  (retried.1, (sendAfter .sendResponse now b.responses.headReady).map .wake ++ retried.2)

/-- The host's side refused the response, which waits at the head for a retry. -/
def responseRefused (b : Bridge) (now : Tick) (p : Packet) : Bridge :=
  { b with
    awaitingResponseRetry := true
    responses := b.responses.pushFront p now
    counters := { b.counters with responseRetries := b.counters.responseRetries + 1 } }

def recvResponseRetry (b : Bridge) (now : Tick) : Bridge × List Wakeup :=
  ({ b with awaitingResponseRetry := false }, sendAfter .sendResponse now b.responses.headReady)

def accessAtomic (b : Bridge) (p : Packet) : AtomicHop × Packet :=
  if b.serves p then (.forward (b.delayFor p.addr), b.tag p) else (.unroutable, p)

end Bridge

end Expander
