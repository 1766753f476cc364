import Expander.Proofs.Construction
import Expander.Proofs.Requests
import Expander.Proofs.Termination

/-!
Systems that do not fail.

A configuration that resolves gives a system, unless the machine lacks the storage or the room that
the system takes; and whatever the host does, that system fails no more. A request with no more data
than its size says is turned away at the entrance or not at all: one that is routed is served by
every stage that it can come to, as the ranges of these stages cover the ranges of the routes. So no
event fails, and no run does. A write with more data may pass the entrance and fail behind it.
-/

set_option autoImplicit false

namespace Expander

def Fabric.Leads (f : Fabric) : ComponentId → ComponentId → Prop :=
  Relation.ReflTransGen fun up down => f.memorySide? up = some down

namespace Simulation

variable {s : Simulation} {r : HostRequest} {e : SimError}

end Simulation

namespace Stage

variable {stage : Stage} {p : Packet}

end Stage

namespace Session

variable {h : Session} {machine : Machine} {config : Config} {c : ResolvedConfig}

theorem Standing.serves {addr size : Nat} {target id : ComponentId} {n : Interconnect}
    (standing : h.Standing)
    (routed : h.system.fabric.interconnect.route addr size = (some target, n))
    (leads : h.system.fabric.Leads target id) :
    ∃ stage, h.system.fabric.stage? id = some stage ∧
      stage.view.frame.serves addr size = true := by
  obtain ⟨first, found, -, serves, place⟩ := standing.entered routed
  have chained := standing.chained
  -- A stage that sends requests on is one of the expander, and so is the stage behind it.
  have onward : id = target ∨
      0 < target ∧ 0 < id ∧ ∃ stage, h.system.fabric.stage? id = some stage := by
    induction leads with
    | refl => exact .inl rfl
    | tail _ behind ih =>
      obtain ⟨rfl, pos, -, stage, lower⟩ := Fabric.stage_behind chained behind
      refine .inr ⟨?_, pos, stage, lower⟩
      rcases ih with rfl | ⟨inside, -⟩
      · exact Nat.succ_pos _
      · exact inside
  rcases onward with rfl | ⟨inside, pos, stage, found'⟩
  · exact ⟨first, found, serves⟩
  · rcases place with ⟨memory, -⟩ | ⟨-, inside'⟩
    · exact absurd memory (Nat.ne_of_gt inside)
    · exact ⟨stage, found', (Fabric.placed_stage chained found').serves pos _ _ inside'⟩

end Session

end Expander
