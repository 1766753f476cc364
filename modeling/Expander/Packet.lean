import Expander.Units

/-!
Memory transactions in flight, and the host accesses they come from and end as.

A packet is one transaction on its way: it starts as a request, turns into its response once, and
carries the record of the stages that accepted it. `HostRequest` and `Completion` are the two ends
of that way at the host.
-/

set_option autoImplicit false

namespace Expander

/-- The number of a transaction, given out in order of admission. -/
abbrev TransactionId := Nat

/-- The position of a component in its fabric. -/
abbrev ComponentId := Nat

/-- The written form of a component identifier. -/
def ComponentId.text (id : ComponentId) : String := "#" ++ toString id

/-- The direction of a memory access. -/
inductive AccessKind where
  /-- Data flows from the memory to the host. -/
  | read
  /-- Data flows from the host to the memory. -/
  | write
deriving DecidableEq, Repr, Inhabited

/-- What a packet asks for or answers. -/
inductive Command where
  | readRequest
  | writeRequest
  | readResponse
  | writeResponse
deriving DecidableEq, Repr, Inhabited

namespace Command

/-- Whether the command travels towards the memory. -/
def isRequest : Command → Bool
  | readRequest | writeRequest => true
  | readResponse | writeResponse => false

def kind : Command → AccessKind
  | readRequest | readResponse => .read
  | writeRequest | writeResponse => .write

/-- The response that ends the access; a response is its own. -/
def response : Command → Command
  | readRequest | readResponse => readResponse
  | writeRequest | writeResponse => writeResponse

def request : AccessKind → Command
  | .read => readRequest
  | .write => writeRequest

end Command

/-- The class of a message on the link of the expander: from master to subordinate with or
without data, and back with data or as a bare acknowledgement. -/
inductive MessageClass where
  | m2sReq
  | m2sRwD
  | s2mDRS
  | s2mNDR
deriving DecidableEq, Repr

namespace MessageClass

def requestFor : AccessKind → MessageClass
  | .read => m2sReq
  | .write => m2sRwD

def responseFor : AccessKind → MessageClass
  | .read => s2mDRS
  | .write => s2mNDR

/-- Whether the class travels towards the host. -/
def isResponse : MessageClass → Bool
  | s2mDRS | s2mNDR => true
  | m2sReq | m2sRwD => false

/-- The name of the class on the link. -/
def text : MessageClass → String
  | m2sReq => "M2SReq"
  | m2sRwD => "M2SRwD"
  | s2mDRS => "S2MDRS"
  | s2mNDR => "S2MNDR"

end MessageClass

/-- The arrival of a packet at a component. -/
structure Hop where
  component : ComponentId
  arrived : Tick
deriving DecidableEq, Repr

/-- One memory transaction in flight. -/
structure Packet where
  id : TransactionId
  addr : Nat
  size : Nat
  /-- What the packet asks for or answers. -/
  command : Command
  /-- The class on the link of the expander, once the packet has entered it. -/
  link : Option MessageClass := none
  /-- The bytes written by a write request, or read by a read response. -/
  data : List UInt8 := []
  issued : Tick
  /-- The components that took the packet, in order. -/
  hops : List Hop := []
  /-- Transport delay that no stage has charged yet. -/
  headerDelay : Tick := 0
deriving DecidableEq, Repr

namespace Packet

def read (id : TransactionId) (addr size : Nat) (issued : Tick) : Packet :=
  { id, addr, size, command := .readRequest, issued }

def write (id : TransactionId) (addr : Nat) (data : List UInt8) (issued : Tick) : Packet :=
  { id, addr, size := data.length, command := .writeRequest, data, issued }

def kind (p : Packet) : AccessKind := p.command.kind

/-- Whether the packet is still on its way to the memory. -/
def isRequest (p : Packet) : Bool := p.command.isRequest

def isRead (p : Packet) : Bool := p.kind == .read

/-- The number of bytes that cross a data bus with the packet. -/
def payload (p : Packet) : Nat :=
  match p.command with
  | .writeRequest | .readResponse => p.size
  | .readRequest | .writeResponse => 0

/-- The response to the packet: a read carries `data` back, a write carries nothing. -/
def respond (p : Packet) (data : List UInt8) : Packet :=
  { p with
    command := p.command.response
    data := match p.kind with
      | .read => data
      | .write => [] }

def arriveAt (p : Packet) (component : ComponentId) (now : Tick) : Packet :=
  { p with hops := p.hops ++ [⟨component, now⟩] }

def dropLastHop (p : Packet) : Packet := { p with hops := p.hops.dropLast }

def chargeHeader (p : Packet) : Packet := { p with headerDelay := 0 }

end Packet

/-- An access that the host offers. -/
structure HostRequest where
  addr : Nat
  kind : AccessKind
  size : Nat
  data : List UInt8
deriving DecidableEq, Repr

namespace HostRequest

def read (addr size : Nat) : HostRequest := ⟨addr, .read, size, []⟩

def write (addr : Nat) (data : List UInt8) : HostRequest := ⟨addr, .write, data.length, data⟩

def toPacket (r : HostRequest) (id : TransactionId) (now : Tick) : Packet :=
  match r.kind with
  | .read => .read id r.addr r.size now
  | .write => .write id r.addr r.data now

/-- The request that a refused packet hands back. -/
def ofPacket (p : Packet) : HostRequest := ⟨p.addr, p.kind, p.size, p.data⟩

end HostRequest

structure Completion where
  /-- The number given out at admission. -/
  id : TransactionId
  addr : Nat
  kind : AccessKind
  data : List UInt8
  issued : Tick
  /-- The tick at which the response reaches the host. -/
  completed : Tick
deriving DecidableEq, Repr

namespace Completion

def ofResponse (p : Packet) (completed : Tick) : Completion :=
  ⟨p.id, p.addr, p.kind, p.data, p.issued, completed⟩

def latency (c : Completion) : Tick := c.completed - c.issued

end Completion

end Expander
