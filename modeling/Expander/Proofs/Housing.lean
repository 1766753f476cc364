import Expander.Proofs.Chronology
import Expander.Proofs.Consistency

/-!
The packets of either path keep to their stages.

System memory holds transactions of its own range and the stages of the expander hold transactions
of theirs, whatever moves (`Ledger.housed_step`). So a response that leaves to the host shows by its
address which of the two stages in front it comes from.
-/

set_option autoImplicit false

namespace Expander

namespace StageView

def Houses (range : AddressRange) (v : StageView) : Prop :=
  ∀ t ∈ v.packets.map Packet.transaction, range.contains t.addr = true

variable {range : AddressRange} {v : StageView}

theorem houses_receive (v : StageView) (p : Packet) : (v.receive p).Houses range ↔
    range.contains p.addr = true ∧ v.Houses range := by
  rw [Houses, Houses, transactions_receive]
  exact Multiset.forall_mem_cons

theorem houses_request (v : StageView) (p : Packet) :
    { v with requests := p :: v.requests }.Houses range ↔
      range.contains p.addr = true ∧ v.Houses range := by
  rw [Houses, Houses, packets_request, Multiset.map_cons]
  exact Multiset.forall_mem_cons

theorem houses_answer (v : StageView) (p : Packet) :
    { v with answers := p ::ₘ v.answers }.Houses range ↔
      range.contains p.addr = true ∧ v.Houses range := by
  rw [Houses, Houses, packets_answer, Multiset.map_cons]
  exact Multiset.forall_mem_cons

end StageView

def Inner (expander : AddressRange) (v : StageView) : Prop :=
  (∀ range, v.frame.held? = some range → range = expander) ∧ v.Houses expander

/-- System memory, which comes first, holds transactions of its own range, and the other stages
those of the expander. -/
def Housed (system expander : AddressRange) : List StageView → Prop
  | [] => True
  | memory :: others => memory.frame.held? = some system ∧ memory.Houses system ∧
      ∀ v ∈ others, Inner expander v

namespace Housed

variable {system expander : AddressRange} {views views' behind front : List StageView}
  {v : StageView} {out : List Packet} {p : Packet}

theorem flow (h : Housed system expander views) (flow : Flow views views' out) :
    Housed system expander views' := by
  cases flow with
  | still => exact h
  | request lower upper p inner =>
    obtain ⟨memory, rest, rfl⟩ := List.exists_cons_of_ne_nil inner
    rw [List.cons_append] at h ⊢
    obtain ⟨held, houses, others⟩ := h
    refine ⟨held, houses, ?_⟩
    simp only [List.forall_mem_append, List.forall_mem_cons, Inner, StageView.houses_request,
      StageView.houses_receive, frame_receive] at others ⊢
    tauto
  | response lower upper p inner =>
    obtain ⟨memory, rest, rfl⟩ := List.exists_cons_of_ne_nil inner
    rw [List.cons_append] at h ⊢
    obtain ⟨held, houses, others⟩ := h
    refine ⟨held, houses, ?_⟩
    simp only [List.forall_mem_append, List.forall_mem_cons, Inner, StageView.houses_answer]
      at others ⊢
    tauto
  | @complete behind front v p faces =>
    cases behind with
    | nil =>
      obtain ⟨held, houses, others⟩ := h
      exact ⟨held, ((StageView.houses_answer v p).1 houses).2, others⟩
    | cons memory rest =>
      rw [List.cons_append] at h ⊢
      obtain ⟨held, houses, others⟩ := h
      refine ⟨held, houses, ?_⟩
      simp only [List.forall_mem_append, List.forall_mem_cons, Inner, StageView.houses_answer]
        at others ⊢
      exact ⟨others.1, ⟨others.2.1.1, others.2.1.2.2⟩, others.2.2⟩

theorem receive (h : Housed system expander (behind ++ v :: front))
    (accepts : v.Accepts expander p) : Housed system expander (behind ++ v.receive p :: front) := by
  have inside (range : AddressRange) (held : v.frame.held? = some range) :
      range.contains p.addr = true := by
    have serves := accepts.1
    rw [StageFrame.serves_of_held held] at serves
    exact AddressRange.contains_of_containsAccess serves
  cases behind with
  | nil =>
    obtain ⟨held, houses, others⟩ := h
    exact ⟨(frame_receive v p).symm ▸ held,
      (StageView.houses_receive v p).2 ⟨inside _ held, houses⟩, others⟩
  | cons memory rest =>
    rw [List.cons_append] at h ⊢
    obtain ⟨held, houses, others⟩ := h
    refine ⟨held, houses, ?_⟩
    simp only [List.forall_mem_append, List.forall_mem_cons, Inner, StageView.houses_receive,
      frame_receive] at others ⊢
    refine ⟨others.1, ⟨others.2.1.1, ?_, others.2.1.2⟩, others.2.2⟩
    cases holds : v.frame.held? with
    | none => exact AddressRange.contains_of_containsAccess (accepts.2 holds)
    | some range => exact others.2.1.1 range holds ▸ inside range holds

end Housed

namespace Ledger

variable {system expander : AddressRange} {timed : Bool} {l l' : Ledger}

theorem housed_blank {views : List StageView} :
    Housed system expander (views.map StageView.blank) ↔ Housed system expander views := by
  cases views with
  | nil => exact Iff.rfl
  | cons memory others =>
    rw [List.map_cons, Housed, Housed, List.forall_mem_map]
    exact Iff.rfl

theorem housed_step (h : Housed system expander l.views) (step : Step expander timed l l') :
    Housed system expander l'.views := by
  cases step with
  | move finished flow => exact h.flow flow
  | receive access issued split faces accepts => exact Housed.receive (split ▸ h) accepts
  | poke _ _ same =>
    rw [← housed_blank, same, housed_blank]
    exact h

theorem housed_steps (h : Housed system expander l.views) (steps : Steps expander timed l l') :
    Housed system expander l'.views := by
  induction steps with
  | refl => exact h
  | tail _ step ih => exact housed_step ih step

end Ledger

namespace Simulation

def Housed (s : Simulation) : Prop :=
  Expander.Housed s.config.system.memoryRange s.config.device.range s.cargo

theorem Fresh.housed {s : Simulation} (fresh : s.Fresh) : s.Housed := by
  have empty {range : AddressRange} {v : StageView} (none : v.packets = 0) : v.Houses range := by
    rw [StageView.Houses, none]
    exact nofun
  have inner : Inner s.config.device.range
        (s.config.controllerStage (.blank s.config.device.range.size)).view.calm ∧
      Inner s.config.device.range s.config.deviceStage.view.calm ∧
      ∀ bridge, Inner s.config.device.range (s.config.bridgeStage bridge).view.calm :=
    ⟨⟨fun _ held => (Option.some.inj held).symm, empty rfl⟩, ⟨nofun, empty rfl⟩,
      fun _ => ⟨nofun, empty rfl⟩⟩
  rw [Simulation.Housed, Simulation.cargo, fresh.nodes, ResolvedConfig.nodes]
  cases s.config.topology <;> cases s.config.bridge <;>
    exact ⟨rfl, empty rfl, by simp [inner]⟩

theorem Housed.leaving {s : Simulation} {id : ComponentId} {stage taken : Stage} {now : Tick}
    {p : Packet} (housed : s.Housed) (found : s.fabric.stage? id = some stage)
    (took : stage.takeResponse now = some (p, taken)) :
    (id = 0 → s.config.system.memoryRange.contains p.addr = true) ∧
      (id ≠ 0 → s.config.device.range.contains p.addr = true) := by
  obtain ⟨node, at_id, rfl⟩ := Fabric.stage?_eq_some.1 found
  have held : p.transaction ∈ node.stage.view.calm.packets.map Packet.transaction := by
    have view := (Stage.view_takeResponse took).2
    rw [view]
    simp [StageView.calm, StageView.packets]
  have stands : s.cargo[id]? = some node.stage.view.calm := by
    rw [cargo, List.getElem?_map, at_id, Option.map_some]
  rw [Housed] at housed
  generalize s.cargo = views at housed stands
  cases views with
  | nil => cases stands
  | cons memory others =>
    obtain ⟨-, houses, inner⟩ := housed
    cases id with
    | zero =>
      cases stands
      exact ⟨fun _ => houses _ held, absurd rfl⟩
    | succ i =>
      exact ⟨fun eq => absurd eq (Nat.succ_ne_zero i),
        fun _ => (inner _ (List.mem_of_getElem? stands)).2 _ held⟩

end Simulation

namespace Session

variable {timed : Bool} {h h' : Session} {config : Config}

theorem Reaches.housed (reaches : h.Reaches timed h') (housed : h.system.Housed) :
    h'.system.Housed := by
  have kept := Ledger.housed_steps (l := h.ledger) housed reaches.steps
  rw [Simulation.Housed, reaches.config]
  exact kept

theorem Reachable.housed (reachable : Reachable config h) : h.system.Housed := by
  induction reachable with
  | start created => exact (Simulation.fresh_create created).housed
  | @call h call reachable ih =>
    have reaches : h.Reaches false (h.after call) := reachable.standing.after call nofun
    exact reaches.housed ih
  | event reachable fires ih => exact (reachable.standing.fires fires).housed ih

end Session

end Expander
