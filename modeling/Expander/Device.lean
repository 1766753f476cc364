import Expander.Config.Sections
import Expander.PacketQueue
import Expander.Handshake

/-!
The front-end device of the expander.

The device stands between the link and the controller. Requests and responses wait for the
protocol latency in two bounded buffers of their own.
-/

set_option autoImplicit false

namespace Expander

/-- The front-end device. -/
structure Device where
  name : String
  config : DeviceConfig
  /-- The size of the storage that is registered with the expander range. -/
  storeSize : Nat
  requests : PacketQueue
  responses : PacketQueue
  /-- Whether a refused request was promised a retry. -/
  requestRetryOwed : Bool := false
  /-- Whether a refused response was promised a retry. -/
  responseRetryOwed : Bool := false
  /-- Whether the head request waits for the controller's retry. -/
  awaitingRequestRetry : Bool := false
  /-- Whether the head response waits for the host's retry. -/
  awaitingResponseRetry : Bool := false
  counters : DeviceStatistics := {}
deriving DecidableEq, Repr

namespace Device

def create (name : String) (config : DeviceConfig) (storeSize : Nat) : Device :=
  { name, config, storeSize
    requests := .empty config.requestSize
    responses := .empty config.responseSize }

/-- A request with a message class. -/
def tagRequest (p : Packet) : Packet :=
  if p.link.isNone then { p with link := some (.requestFor p.kind) } else p

/-- A response with its message class. -/
def tagResponse (p : Packet) : Packet := { p with link := some (.responseFor p.kind) }

def recvRequest (d : Device) (now : Tick) (p : Packet) : Reply Device Delivery :=
  if !d.config.range.containsAccess p.addr p.size then ⟨d, [], .unroutable p⟩
  else
    let ready := now + p.headerDelay + d.config.protocolLatency
    match d.requests.push? (tagRequest p.chargeHeader) ready with
    | none =>
      ⟨{ d with
          requestRetryOwed := true
          counters := { d.counters with
            requestBufferFull := d.counters.requestBufferFull + 1 } }, [], .busy p⟩
    | some requests =>
      ⟨{ d with
          requests
          counters := { d.counters with
            requests := d.counters.requests + 1
            maxRequests := max d.counters.maxRequests requests.size } },
        if d.requests.isEmpty && !d.awaitingRequestRetry then [.at ready .sendRequest] else [],
        .accepted⟩

def takeRequest (d : Device) (now : Tick) : Option (Packet × Device) :=
  if d.awaitingRequestRetry then none
  else (d.requests.popReady? now).map fun r => (r.1, { d with requests := r.2 })

def requestSent (d : Device) (now : Tick) : Device × List Action :=
  ({ d with requestRetryOwed := false },
    (sendAfter .sendRequest now d.requests.headReady).map .wake ++
      if d.requestRetryOwed then [.retryRequest] else [])

/-- The controller refused the request, which waits at the head for a retry. -/
def requestRefused (d : Device) (now : Tick) (p : Packet) : Device :=
  { d with awaitingRequestRetry := true, requests := d.requests.pushFront p now }

def recvRequestRetry (d : Device) (now : Tick) : Device × List Wakeup :=
  ({ d with awaitingRequestRetry := false }, sendAfter .sendRequest now d.requests.headReady)

def recvResponse (d : Device) (now : Tick) (p : Packet) : Reply Device Delivery :=
  let ready := now + p.headerDelay + d.config.protocolLatency
  match d.responses.push? (tagResponse p.chargeHeader) ready with
  | none =>
    ⟨{ d with
        responseRetryOwed := true
        counters := { d.counters with
          responseBufferFull := d.counters.responseBufferFull + 1 } }, [], .busy p⟩
  | some responses =>
    ⟨{ d with
        responses
        counters := { d.counters with
          responses := d.counters.responses + 1
          maxResponses := max d.counters.maxResponses responses.size } },
      if d.responses.isEmpty && !d.awaitingResponseRetry then [.at ready .sendResponse] else [],
      .accepted⟩

def takeResponse (d : Device) (now : Tick) : Option (Packet × Device) :=
  if d.awaitingResponseRetry then none
  else (d.responses.popReady? now).map fun r => (r.1, { d with responses := r.2 })

def responseSent (d : Device) (now : Tick) : Device × List Action :=
  ({ d with responseRetryOwed := false },
    (sendAfter .sendResponse now d.responses.headReady).map .wake ++
      if d.responseRetryOwed then [.retryResponse] else [])

/-- The host's side refused the response, which waits at the head for a retry. -/
def responseRefused (d : Device) (now : Tick) (p : Packet) : Device :=
  { d with awaitingResponseRetry := true, responses := d.responses.pushFront p now }

def recvResponseRetry (d : Device) (now : Tick) : Device × List Wakeup :=
  ({ d with awaitingResponseRetry := false }, sendAfter .sendResponse now d.responses.headReady)

/-- The part of the device in an access without queueing: the latency of both directions. -/
def accessAtomic (d : Device) (p : Packet) : AtomicHop × Packet :=
  if d.config.range.containsAccess p.addr p.size then
    (.forward (2 * d.config.protocolLatency), tagRequest p)
  else (.unroutable, p)

end Device

end Expander
