import Expander.Proofs.Creation
import Expander.Proofs.Transaction

/-!
A host at work with a system.

A session is a system together with what its host has seen of it so far: the requests it got
accepted, the completions it got back, and whether a refusal is still unanswered. The host makes its
calls in any order.

The accesses of a session are requests whose size is the length of their data. A host can put
together others: what they do is said apart, where it is not the same.
-/

set_option autoImplicit false

namespace Expander

/-- An access as the host asks for it. -/
inductive Access where
  | read (addr size : Nat)
  | write (addr : Nat) (data : List UInt8)
deriving DecidableEq, Repr

namespace Access

def request : Access → HostRequest
  | read addr size => .read addr size
  | write addr data => .write addr data

end Access

structure Grant where
  id : TransactionId
  access : Access
  /-- The tick of the call. -/
  issued : Tick
deriving DecidableEq, Repr

namespace Grant

def packet (g : Grant) : Packet := g.access.request.toPacket g.id g.issued

def transaction (g : Grant) : Transaction :=
  ⟨g.id, g.access.request.addr, g.access.request.kind, g.issued⟩

theorem transaction_packet (g : Grant) : g.packet.transaction = g.transaction := by
  obtain ⟨id, access, issued⟩ := g
  cases access <;> rfl

theorem id_packet (g : Grant) : g.packet.id = g.id := by
  obtain ⟨id, access, issued⟩ := g
  cases access <;> rfl

theorem addr_packet (g : Grant) : g.packet.addr = g.access.request.addr := by
  obtain ⟨id, access, issued⟩ := g
  cases access <;> rfl

theorem size_packet (g : Grant) : g.packet.size = g.access.request.size := by
  obtain ⟨id, access, issued⟩ := g
  cases access <;> rfl

theorem bare_packet (g : Grant) : g.packet.bare = g.packet := by
  obtain ⟨id, access, issued⟩ := g
  cases access <;> rfl

end Grant

/-- The calls of a host. -/
inductive HostCall where
  | send (access : Access)
  | atomic (access : Access)
  | runUntil (limit : Tick)
  | runUntilIdle
  | poll
  | take
  | takeRetry
  | load (addr : Nat) (data : List UInt8)
deriving DecidableEq, Repr

def HostCall.timed : HostCall → Bool
  | atomic _ | load .. => false
  | send _ | runUntil _ | runUntilIdle | poll | take | takeRetry => true

/-- A system and what its host has seen of it. -/
structure Session where
  system : Simulation
  /-- The accepted accesses, in the order of the calls. -/
  accepted : List Grant := []
  /-- The completions that were handed out, in the order of the calls. -/
  returned : List Completion := []
  /-- Whether a request was refused and no retry has been reported since. -/
  unanswered : Bool := false

namespace Session

def start (system : Simulation) : Session := { system }

def after (h : Session) : HostCall → Session
  | .send access =>
    match h.system.sendRequest access.request with
    | (.ok (.accepted id), system) =>
      { h with system, accepted := h.accepted ++ [⟨id, access, h.system.now⟩] }
    | (.ok (.retry _), system) => { h with system, unanswered := true }
    | (.error _, system) => { h with system }
  | .atomic access => { h with system := (h.system.accessAtomic access.request).2 }
  | .runUntil limit => { h with system := (h.system.runUntil limit).2 }
  | .runUntilIdle => { h with system := h.system.runUntilIdle.2 }
  | .poll =>
    let polled := h.system.pollCompletions
    { h with system := polled.2.2, returned := h.returned ++ polled.2.1 }
  | .take =>
    let taken := h.system.takeCompletions
    { h with system := taken.2, returned := h.returned ++ taken.1 }
  | .takeRetry =>
    let taken := h.system.takeRetry
    { h with system := taken.2, unanswered := h.unanswered && !taken.1 }
  | .load addr data =>
    match h.system.load addr data with
    | .ok system => { h with system }
    | .error _ => h

def run (h : Session) (calls : List HostCall) : Session := calls.foldl after h

theorem run_append (h : Session) (first second : List HostCall) :
    h.run (first ++ second) = (h.run first).run second := List.foldl_append ..

def produced (h : Session) : List Completion := h.returned ++ h.system.completions

end Session

end Expander
