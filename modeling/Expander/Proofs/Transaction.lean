import Expander.Packet

/-!
What a packet keeps on its way through the stages.

Stages charge transport delay, tag packets with a message class and record arrivals. The bare packet
leaves these marks out: it changes once, when the request turns into its response. The transaction
is the part that the completion at the host still shows.
-/

set_option autoImplicit false

namespace Expander

/-- The part of an access by which the host knows it again. -/
structure Transaction where
  id : TransactionId
  addr : Nat
  kind : AccessKind
  issued : Tick
deriving DecidableEq, Repr

namespace Packet

def bare (p : Packet) : Packet := { p with link := none, hops := [], headerDelay := 0 }

def transaction (p : Packet) : Transaction := ⟨p.id, p.addr, p.kind, p.issued⟩

@[simp] theorem bare_id (p : Packet) : p.bare.id = p.id := rfl

@[simp] theorem bare_addr (p : Packet) : p.bare.addr = p.addr := rfl

@[simp] theorem bare_size (p : Packet) : p.bare.size = p.size := rfl

@[simp] theorem bare_data (p : Packet) : p.bare.data = p.data := rfl

@[simp] theorem bare_kind (p : Packet) : p.bare.kind = p.kind := rfl

@[simp] theorem bare_bare (p : Packet) : p.bare.bare = p.bare := rfl

@[simp] theorem bare_transaction (p : Packet) : p.bare.transaction = p.transaction := rfl

@[simp] theorem bare_chargeHeader (p : Packet) : p.chargeHeader.bare = p.bare := rfl

@[simp] theorem bare_arriveAt (p : Packet) (id : ComponentId) (now : Tick) :
    (p.arriveAt id now).bare = p.bare := rfl

@[simp] theorem bare_dropLastHop (p : Packet) : p.dropLastHop.bare = p.bare := rfl

@[simp] theorem bare_respond (p : Packet) (data : List UInt8) :
    (p.respond data).bare = p.bare.respond data := rfl

@[simp] theorem kind_respond (p : Packet) (data : List UInt8) : (p.respond data).kind = p.kind := by
  cases h : p.command <;> simp [respond, kind, Command.response, Command.kind, h]

@[simp] theorem transaction_respond (p : Packet) (data : List UInt8) :
    (p.respond data).transaction = p.transaction := by
  rw [transaction, kind_respond]
  rfl

end Packet

def Completion.transaction (c : Completion) : Transaction := ⟨c.id, c.addr, c.kind, c.issued⟩

@[simp] theorem Completion.transaction_ofResponse (p : Packet) (completed : Tick) :
    (Completion.ofResponse p completed).transaction = p.transaction := rfl

end Expander
