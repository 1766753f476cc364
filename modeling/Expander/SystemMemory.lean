import Expander.PacketQueue
import Expander.Handshake
import Expander.Statistics
import Expander.Store

/-!
Ordinary system memory: a fixed latency and no limit on admission.

An access takes effect when the request is accepted; its response waits for the latency.
-/

set_option autoImplicit false

namespace Expander

structure SystemMemory where
  range : AddressRange
  latency : Tick
  store : Store
  responses : PacketQueue := .unbounded
  /-- Whether the head response waits for the host's retry. -/
  awaitingRetry : Bool := false
  counters : MemoryStatistics := {}

namespace SystemMemory

def name : String := "system-memory"

/-- Performs the access of a request, and gives its response. -/
def perform (m : SystemMemory) (p : Packet) : Packet × SystemMemory :=
  let offset := m.range.offsetOf p.addr
  match p.kind with
  | .read =>
    (p.respond (m.store.readOrZero offset p.size),
      { m with counters := { m.counters with reads := m.counters.reads + 1 } })
  | .write =>
    (p.respond [],
      { m with
        store := m.store.writeOrKeep offset p.data
        counters := { m.counters with writes := m.counters.writes + 1 } })

def recvRequest (m : SystemMemory) (now : Tick) (p : Packet) : Reply SystemMemory Delivery :=
  if !m.range.containsAccess p.addr p.size then ⟨m, [], .unroutable p⟩
  else
    let ready := now + p.headerDelay + m.latency
    let performed := m.perform p.chargeHeader
    match m.responses.push? performed.1 ready with
    | none => ⟨performed.2, [], .busy performed.1⟩
    | some responses =>
      ⟨{ performed.2 with responses }, [.at ready .sendResponse], .accepted⟩

def takeResponse (m : SystemMemory) (now : Tick) : Option (Packet × SystemMemory) :=
  if m.awaitingRetry then none
  else (m.responses.popReady? now).map fun r => (r.1, { m with responses := r.2 })

def responseSent (m : SystemMemory) (now : Tick) : SystemMemory × List Action :=
  (m, (sendAfter .sendResponse now m.responses.headReady).map .wake)

/-- The host refused the response, which waits at the head for a retry. -/
def responseRefused (m : SystemMemory) (now : Tick) (p : Packet) : SystemMemory :=
  { m with awaitingRetry := true, responses := m.responses.pushFront p now }

def recvResponseRetry (m : SystemMemory) (now : Tick) : SystemMemory × List Wakeup :=
  ({ m with awaitingRetry := false }, [⟨now, .sendResponse⟩])

def accessAtomic (m : SystemMemory) (p : Packet) : AtomicHop × Packet × SystemMemory :=
  if m.range.containsAccess p.addr p.size then
    let performed := m.perform p
    (.complete m.latency, performed.1, performed.2)
  else (.unroutable, p, m)

end SystemMemory

end Expander
