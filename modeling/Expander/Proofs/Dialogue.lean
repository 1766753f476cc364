import Expander.Proofs.Mirroring

/-!
What a host gets to hear of the expander.

Every call tells the host something: an outcome, completions, whether a retry was reported. The
dialogue of a session lists the calls with what they tell; `Session.toldOfExpander` leaves out of it
what is about system memory.
-/

set_option autoImplicit false

namespace Expander

/-- What a call tells the host. -/
inductive Told where
  | offered (outcome : Except SimError Admission)
  | performed (outcome : Except SimError Completion)
  | ran (halt : Halt)
  | polled (halt : Halt) (completions : List Completion)
  | handed (completions : List Completion)
  | retry (reported : Bool)
  | loaded (outcome : Except SimError Unit)

def Admission.renumber (f : TransactionId → TransactionId) : Admission → Admission
  | accepted id => accepted (f id)
  | retry request => retry request

namespace Told

def renumber (f : TransactionId → TransactionId) : Told → Told
  | offered outcome => offered (outcome.map (Admission.renumber f))
  | performed outcome => performed (outcome.map (Completion.renumber f))
  | ran halt => ran halt
  | polled halt completions => polled halt (completions.map (Completion.renumber f))
  | handed completions => handed (completions.map (Completion.renumber f))
  | retry reported => retry reported
  | loaded outcome => loaded outcome

def ofExpander (c : ResolvedConfig) : Told → Told
  | polled halt completions => polled halt (completions.filter c.isExpanders)
  | handed completions => handed (completions.filter c.isExpanders)
  | offered outcome => offered outcome
  | performed outcome => performed outcome
  | ran halt => ran halt
  | retry reported => retry reported
  | loaded outcome => loaded outcome

end Told

namespace HostCall

def paced : HostCall → Bool
  | send _ | runUntil _ | take | takeRetry => true
  | atomic _ | runUntilIdle | poll | load .. => false

def offersIn (range : AddressRange) : HostCall → Bool
  | send access => range.contains access.request.addr
  | atomic _ | runUntil _ | runUntilIdle | poll | take | takeRetry | load .. => false

def sparing (range : AddressRange) (calls : List HostCall) : List HostCall :=
  calls.filter fun call => !call.offersIn range

theorem timed_of_paced {call : HostCall} (paced : call.paced = true) : call.timed = true := by
  cases call with
  | send | runUntil | take | takeRetry => rfl
  | atomic | runUntilIdle | poll | load => cases paced

end HostCall

namespace Session

def told (h : Session) : HostCall → Told
  | .send access => .offered (h.system.sendRequest access.request).1
  | .atomic access => .performed (h.system.accessAtomic access.request).1
  | .runUntil limit => .ran (h.system.runUntil limit).1
  | .runUntilIdle => .ran h.system.runUntilIdle.1
  | .poll => .polled h.system.pollCompletions.1 h.system.pollCompletions.2.1
  | .take => .handed h.system.takeCompletions.1
  | .takeRetry => .retry h.system.takeRetry.1
  | .load addr data => .loaded ((h.system.load addr data).map fun _ => ())

def dialogue (h : Session) : List HostCall → List (HostCall × Told)
  | [] => []
  | call :: calls => (call, h.told call) :: (h.after call).dialogue calls

def toldOfExpander (c : ResolvedConfig) (h : Session) (calls : List HostCall) :
    List (HostCall × Told) :=
  ((h.dialogue calls).filter fun said => !said.1.offersIn c.system.memoryRange).map
    fun said => (said.1, said.2.ofExpander c)

end Session

end Expander
