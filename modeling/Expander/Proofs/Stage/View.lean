import Mathlib.Data.Multiset.AddSub
import Mathlib.Data.Multiset.MapFold
import Expander.Proofs.Outlet
import Expander.Stage

/-!
What a stage shows to its neighbours.

The view of a stage leaves out timing, counters and the order in which responses leave. It keeps the
parameters (`frame`), the requests in order, the responses that the stage holds or owes, the flags
of both handshakes, and the bytes.
-/

set_option autoImplicit false

namespace Expander

/-- The parameters of a stage that no call changes. -/
inductive StageFrame where
  | memory (range : AddressRange) (latency : Tick) (bytes : Nat)
  | controller (range : AddressRange) (config : ControllerConfig) (decoder : AddressDecoder)
      (channels bytes : Nat)
  | device (config : DeviceConfig) (requestLimit responseLimit : Option Nat)
  | bridge (config : BridgeConfig) (expander : AddressRange)
      (requestLimit responseLimit : Option Nat)

namespace StageFrame

def serves (addr size : Nat) : StageFrame → Bool
  | memory range .. | controller range .. => range.containsAccess addr size
  | device config .. => config.range.containsAccess addr size
  | bridge config .. => config.ranges.any fun range => range.containsAccess addr size

def forwards : StageFrame → Bool
  | device .. | bridge .. => true
  | memory .. | controller .. => false

def reserves : StageFrame → Bool
  | bridge .. => true
  | memory .. | controller .. | device .. => false

def held? : StageFrame → Option AddressRange
  | memory range .. | controller range .. => some range
  | device .. | bridge .. => none

theorem serves_of_held {frame : StageFrame} {range : AddressRange}
    (held : frame.held? = some range) (addr size : Nat) :
    frame.serves addr size = range.containsAccess addr size := by
  cases frame <;> cases held <;> rfl

theorem forwards_of_not_held {frame : StageFrame} (passes : frame.held? = none) :
    frame.forwards = true := by
  cases frame <;> cases passes <;> rfl

end StageFrame

/-- What a stage shows to its neighbours. -/
@[ext] structure StageView where
  frame : StageFrame
  requests : List Packet
  /-- The responses that the stage holds, those included that still wait for the media. -/
  answers : Multiset Packet
  awaitsRequest : Bool
  awaitsResponse : Bool
  owesRequest : Bool
  owesResponse : Bool
  reserved : Nat
  store : Option Store

namespace StageView

def packets (v : StageView) : Multiset Packet := (v.requests : Multiset Packet) + v.answers

def answer (v : StageView) (range : AddressRange) (p : Packet) : Packet :=
  p.bare.respond ((v.store.map fun s => s.readOrZero (range.offsetOf p.addr) p.size).getD [])

def written (v : StageView) (range : AddressRange) (p : Packet) : Option Store :=
  match p.kind with
  | .read => v.store
  | .write => v.store.map fun s => s.writeOrKeep (range.offsetOf p.addr) p.data

/-- The stage after it has taken a request: a forwarding stage queues it, and the others perform the
access and answer. -/
def receive (v : StageView) (p : Packet) : StageView :=
  match v.frame.held? with
  | none =>
    { v with
      requests := v.requests ++ [p.bare]
      reserved := v.reserved + if v.frame.reserves then 1 else 0 }
  | some range => { v with answers := v.answer range p ::ₘ v.answers, store := v.written range p }

def redeem (v : StageView) (actions : List Action) : StageView :=
  { v with
    owesRequest := v.owesRequest && !decide (Action.retryRequest ∈ actions)
    owesResponse := v.owesResponse && !decide (Action.retryResponse ∈ actions) }

def calm (v : StageView) : StageView :=
  { v with awaitsRequest := false, awaitsResponse := false, owesRequest := false
           owesResponse := false }

@[simp] theorem calm_redeem (v : StageView) (actions : List Action) :
    (v.redeem actions).calm = v.calm := rfl

theorem redeem_of_onlyWakes (v : StageView) {actions : List Action} (h : OnlyWakes actions) :
    v.redeem actions = v := by
  simp [redeem, h.retryRequest_not_mem, h.retryResponse_not_mem]

theorem owesRequest_redeem {v : StageView} (h : v.owesRequest = true) (actions : List Action) :
    (v.redeem actions).owesRequest = true ∨ Action.retryRequest ∈ actions := by
  by_cases mem : Action.retryRequest ∈ actions
  · exact .inr mem
  · exact .inl (by simp [redeem, h, mem])

theorem owesResponse_redeem {v : StageView} (h : v.owesResponse = true) (actions : List Action) :
    (v.redeem actions).owesResponse = true ∨ Action.retryResponse ∈ actions := by
  by_cases mem : Action.retryResponse ∈ actions
  · exact .inr mem
  · exact .inl (by simp [redeem, h, mem])

@[simp] theorem redeem_map_wake_append (v : StageView) (wakes : List Wakeup)
    (actions : List Action) : v.redeem (wakes.map .wake ++ actions) = v.redeem actions := by
  simp [redeem]

theorem receive_bare (v : StageView) (p : Packet) : v.receive p.bare = v.receive p := rfl

theorem calm_receive (v : StageView) (p : Packet) : (v.receive p).calm = v.calm.receive p := by
  cases h : v.frame.held? <;> simp only [receive, calm, h] <;> rfl

end StageView

theorem coe_append_singleton (packets : List Packet) (p : Packet) :
    ((packets ++ [p] : List Packet) : Multiset Packet) = p ::ₘ (packets : Multiset Packet) :=
  Multiset.coe_eq_coe.2 (List.perm_append_singleton p packets)

theorem Packet.respond_write {p : Packet} (h : p.kind = .write) (data data' : List UInt8) :
    p.respond data = p.respond data' := by
  simp [Packet.respond, h]

namespace Bridge

def view (b : Bridge) : StageView where
  frame := .bridge b.config b.expander b.requests.capacity b.responses.capacity
  requests := b.requests.packets
  answers := b.responses.packets
  awaitsRequest := b.awaitingRequestRetry
  awaitsResponse := b.awaitingResponseRetry
  owesRequest := b.retryOwed
  owesResponse := false
  reserved := b.reserved
  store := none

end Bridge

namespace Device

def view (d : Device) : StageView where
  frame := .device d.config d.requests.capacity d.responses.capacity
  requests := d.requests.packets
  answers := d.responses.packets
  awaitsRequest := d.awaitingRequestRetry
  awaitsResponse := d.awaitingResponseRetry
  owesRequest := d.requestRetryOwed
  owesResponse := d.responseRetryOwed
  reserved := 0
  store := none

end Device

namespace SystemMemory

def view (m : SystemMemory) : StageView where
  frame := .memory m.range m.latency m.store.size
  requests := []
  answers := m.responses.packets
  awaitsRequest := false
  awaitsResponse := m.awaitingRetry
  owesRequest := false
  owesResponse := false
  reserved := 0
  store := some m.store

end SystemMemory

namespace Controller

variable {μ : Type}

def answers (c : Controller μ) : Multiset Packet :=
  ((c.pending.map fun entry => entry.2.packet.bare : List Packet) : Multiset Packet) +
    (c.responses.toList.map fun r => r.packet.bare : List Packet)

def view (c : Controller μ) : StageView where
  frame := .controller c.range c.config c.decoder c.media.length c.store.size
  requests := []
  answers := c.answers
  awaitsRequest := false
  awaitsResponse := c.awaitingResponseRetry
  owesRequest := c.readRetryOwed || c.writeRetryOwed
  owesResponse := false
  reserved := 0
  store := some c.store

end Controller

def Stage.view : Stage → StageView
  | .bridge b => b.view
  | .device d => d.view
  | .controller c => c.view
  | .memory m => m.view

end Expander
