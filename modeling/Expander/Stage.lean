import Expander.Bridge
import Expander.Controller
import Expander.Device
import Expander.Media.Channel
import Expander.SystemMemory

/-!
The timed stages of the memory path behind one interface.

Bridge and device forward requests; controller and system memory end them, so nothing comes back to
them from below.
-/

set_option autoImplicit false

namespace Expander

/-- A timed stage of the memory path. -/
inductive Stage where
  | bridge (stage : Bridge)
  | device (stage : Device)
  | controller (stage : Controller Media)
  | memory (stage : SystemMemory)

namespace Stage

def name : Stage → String
  | bridge b => b.name
  | device d => d.name
  | controller c => c.name
  | memory _ => SystemMemory.name

def ranges : Stage → List AddressRange
  | bridge b => b.config.ranges
  | device d => [d.config.range]
  | controller c => [c.range]
  | memory m => [m.range]

def forwardsRequests : Stage → Bool
  | bridge _ | device _ => true
  | controller _ | memory _ => false

def recvRequest (s : Stage) (now : Tick) (p : Packet) : Reply Stage Delivery :=
  match s with
  | bridge b => (b.recvRequest now p).map bridge
  | device d => (d.recvRequest now p).map device
  | controller c => (c.recvRequest now p).map controller
  | memory m => (m.recvRequest now p).map memory

def recvResponse (s : Stage) (now : Tick) (p : Packet) : Reply Stage Delivery :=
  match s with
  | bridge b => (b.recvResponse now p).map bridge
  | device d => (d.recvResponse now p).map device
  | controller _ | memory _ => ⟨s, [], .unroutable p⟩

def takeRequest (s : Stage) (now : Tick) : Option (Packet × Stage) :=
  match s with
  | bridge b => (b.takeRequest now).map fun r => (r.1, bridge r.2)
  | device d => (d.takeRequest now).map fun r => (r.1, device r.2)
  | controller _ | memory _ => none

def requestSent (s : Stage) (now : Tick) : Stage × List Action :=
  match s with
  | bridge b => let r := b.requestSent now; (bridge r.1, r.2)
  | device d => let r := d.requestSent now; (device r.1, r.2)
  | controller _ | memory _ => (s, [])

def requestRefused (s : Stage) (now : Tick) (p : Packet) : Stage :=
  match s with
  | bridge b => bridge (b.requestRefused now p)
  | device d => device (d.requestRefused now p)
  | controller _ | memory _ => s

def recvRequestRetry (s : Stage) (now : Tick) : Stage × List Wakeup :=
  match s with
  | bridge b => let r := b.recvRequestRetry now; (bridge r.1, r.2)
  | device d => let r := d.recvRequestRetry now; (device r.1, r.2)
  | controller _ | memory _ => (s, [])

def takeResponse (s : Stage) (now : Tick) : Option (Packet × Stage) :=
  match s with
  | bridge b => (b.takeResponse now).map fun r => (r.1, bridge r.2)
  | device d => (d.takeResponse now).map fun r => (r.1, device r.2)
  | controller c => (c.takeResponse now).map fun r => (r.1, controller r.2)
  | memory m => (m.takeResponse now).map fun r => (r.1, memory r.2)

def responseSent (s : Stage) (now : Tick) : Stage × List Action :=
  match s with
  | bridge b => let r := b.responseSent now; (bridge r.1, r.2)
  | device d => let r := d.responseSent now; (device r.1, r.2)
  | controller c => let r := c.responseSent now; (controller r.1, r.2)
  | memory m => let r := m.responseSent now; (memory r.1, r.2)

def responseRefused (s : Stage) (now : Tick) (p : Packet) : Stage :=
  match s with
  | bridge b => bridge (b.responseRefused now p)
  | device d => device (d.responseRefused now p)
  | controller c => controller (c.responseRefused now p)
  | memory m => memory (m.responseRefused now p)

def recvResponseRetry (s : Stage) (now : Tick) : Stage × List Wakeup :=
  match s with
  | bridge b => let r := b.recvResponseRetry now; (bridge r.1, r.2)
  | device d => let r := d.recvResponseRetry now; (device r.1, r.2)
  | controller c => let r := c.recvResponseRetry now; (controller r.1, r.2)
  | memory m => let r := m.recvResponseRetry now; (memory r.1, r.2)

def process (s : Stage) (now : Tick) : Stage × List Action :=
  match s with
  | controller c => let r := c.process now; (controller r.1, r.2)
  | bridge _ | device _ | memory _ => (s, [])

def accessAtomic (s : Stage) (p : Packet) : AtomicHop × Packet × Stage :=
  match s with
  | bridge b => let r := b.accessAtomic p; (r.1, r.2, s)
  | device d => let r := d.accessAtomic p; (r.1, r.2, s)
  | controller c => let r := c.accessAtomic p; (r.1, r.2.1, controller r.2.2)
  | memory m => let r := m.accessAtomic p; (r.1, r.2.1, memory r.2.2)

/-- The snapshot with the counters of the stage put in. -/
def report (s : Stage) (stats : Statistics) : Statistics :=
  match s with
  | bridge b => { stats with bridge := some b.counters }
  | device d => { stats with device := some d.counters }
  | controller c =>
    { stats with
      controller := some c.counters
      media := c.media.map MediaChannel.statistics }
  | memory m => { stats with memory := some m.counters }

def store? : Stage → Option Store
  | controller c => some c.store
  | memory m => some m.store
  | bridge _ | device _ => none

def withStore (s : Stage) (store : Store) : Stage :=
  match s with
  | controller c => controller { c with store }
  | memory m => memory { m with store }
  | bridge _ | device _ => s

/-- The work that waits for the memory below a queue of requests, in bursts of one byte. -/
def requestWork (q : PacketQueue) : Nat := total (q.entries.map fun w => w.packet.size + 8)

/-- A measure of the work that the stage has in hand. -/
def workload : Stage → Nat
  | bridge b => requestWork b.requests + 8 * b.responses.size
  | device d => requestWork d.requests + 8 * d.responses.size
  | controller c =>
    8 * (c.readQueue.length + c.writeQueue.length + c.pending.length + c.responses.size) +
      c.readsInFlight.length + c.writesInFlight.length
  | memory m => 8 * m.responses.size

end Stage

end Expander
