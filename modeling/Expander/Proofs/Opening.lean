import Expander.Proofs.Calls

/-!
Sessions from their opening on.

A session opens with a created system, and is standing from then on: its stages have not been used
yet, so there is nothing to wait for and nothing to account for.
-/

set_option autoImplicit false

namespace Expander

/-- A stage that has taken no packet yet. -/
structure Stage.Unused (s : Stage) : Prop where
  sound : s.Sound
  armed : ∀ now due, s.Armed now due
  requests : s.view.requests = []
  answers : s.view.answers = 0
  awaitsRequest : s.view.awaitsRequest = false
  awaitsResponse : s.view.awaitsResponse = false
  reserved : s.view.reserved = 0

namespace ResolvedConfig

variable {c : ResolvedConfig}

private theorem roused_none (now : Tick) (due : Wakeup → Prop) (kind : EventKind)
    (awaiting : Bool) : Roused now due kind awaiting none := nofun

theorem unused_memoryStage (store : Store) : (c.memoryStage store).Unused :=
  ⟨⟨rfl⟩, fun _ _ => ⟨roused_none _ _ _ _⟩, rfl, rfl, rfl, rfl, rfl⟩

theorem unused_controllerStage (valid : c.Valid) (store : Store) :
    (c.controllerStage store).Unused := by
  have media : List.replicate c.media.geometry.channels (Media.create c.media) ≠ [] := by
    have channels := valid.channels_pos
    simp only [ne_eq, List.replicate_eq_nil_iff]
    omega
  exact ⟨⟨⟨nofun, .nil, nofun, nofun, nofun⟩, nofun, nofun, media, trivial⟩,
    fun _ _ => ⟨⟨nofun, nofun⟩, nofun, fun queued => queued.elim (absurd rfl) (absurd rfl)⟩,
    rfl, rfl, rfl, rfl, rfl⟩

theorem unused_deviceStage : c.deviceStage.Unused :=
  ⟨⟨nofun, nofun, nofun⟩, fun _ _ => ⟨roused_none _ _ _ _, roused_none _ _ _ _⟩,
    rfl, rfl, rfl, rfl, rfl⟩

theorem unused_bridgeStage (bridge : BridgeConfig) : (c.bridgeStage bridge).Unused :=
  ⟨⟨nofun, Nat.zero_le _⟩, fun _ _ => ⟨roused_none _ _ _ _, roused_none _ _ _ _⟩,
    rfl, rfl, rfl, rfl, rfl⟩

end ResolvedConfig

namespace Simulation

variable {machine : Machine} {config : Config} {s : Simulation}

theorem Fresh.forall_stage {P : Stage → Prop} (fresh : s.Fresh)
    (memory : P (s.config.memoryStage (.blank s.config.system.memorySize)))
    (controller : P (s.config.controllerStage (.blank s.config.device.range.size)))
    (device : P s.config.deviceStage) (bridge : ∀ bridge, P (s.config.bridgeStage bridge))
    {id : ComponentId} {stage : Stage} (found : s.fabric.stage? id = some stage) : P stage := by
  obtain ⟨node, mem, rfl⟩ := Fabric.stage?_eq_some.1 found
  have all : ∀ node ∈ s.fabric.nodes, P node.stage := by
    rw [fresh.nodes, ResolvedConfig.nodes]
    cases s.config.topology <;> cases s.config.bridge <;>
      simp only [List.forall_mem_cons, memory, controller, device, bridge, List.not_mem_nil,
        false_implies, implies_true, and_self]
  exact all node (List.mem_of_getElem? mem)

theorem Fresh.unused (fresh : s.Fresh) {id : ComponentId} {stage : Stage}
    (found : s.fabric.stage? id = some stage) : stage.Unused :=
  fresh.forall_stage (ResolvedConfig.unused_memoryStage _)
    (ResolvedConfig.unused_controllerStage fresh.valid _)
    ResolvedConfig.unused_deviceStage ResolvedConfig.unused_bridgeStage found

theorem Fresh.attended (fresh : s.Fresh) : s.Attended false [] where
  sound _ _ found := (fresh.unused found).sound
  armed _ _ found := (fresh.unused found).armed _ _
  requests _ _ _ _ _ hup _ awaits :=
    absurd ((fresh.unused hup).awaitsRequest.symm.trans awaits) nofun
  responses _ _ _ _ _ _ hdown awaits :=
    absurd ((fresh.unused hdown).awaitsResponse.symm.trans awaits) nofun
  host _ _ _ found := (fresh.unused found).awaitsResponse
  promised := nofun
  sorted := by
    rw [fresh.events]
    exact List.Pairwise.nil
  timely := by
    rw [fresh.events]
    exact nofun

theorem Fresh.cargo (fresh : s.Fresh) :
    ∀ v ∈ s.cargo, v.requests = [] ∧ v.answers = 0 ∧ v.reserved = 0 := by
  intro v mem
  obtain ⟨id, found⟩ := List.getElem?_of_mem mem
  rw [Simulation.cargo, List.getElem?_map] at found
  obtain ⟨node, at_id, rfl⟩ := Option.map_eq_some_iff.1 found
  have unused := fresh.unused (Fabric.stage?_eq_some.2 ⟨node, at_id, rfl⟩)
  exact ⟨unused.requests, unused.answers, unused.reserved⟩

end Simulation

theorem held_eq_zero {views : List StageView}
    (empty : ∀ v ∈ views, v.requests = [] ∧ v.answers = 0) : held views = 0 := by
  induction views with
  | nil => rfl
  | cons v rest ih =>
    obtain ⟨requests, answers⟩ := empty v List.mem_cons_self
    rw [held_cons, ih fun w mem => empty w (List.mem_cons_of_mem v mem), StageView.packets,
      requests, answers]
    rfl

namespace Session

variable {timed : Bool} {h : Session} {machine : Machine} {config : Config} {s : Simulation}

theorem standing_start (created : Simulation.create machine config = .ok s) :
    (start s).Standing := by
  have fresh := Simulation.fresh_create created
  have empty : ∀ v ∈ s.cargo, v.requests = [] ∧ v.answers = 0 := fun v mem =>
    ⟨(fresh.cargo v mem).1, (fresh.cargo v mem).2.1⟩
  have none : held s.cargo = 0 := held_eq_zero empty
  have noCompletion : (start s).produced = [] := fresh.completions
  refine ⟨fresh.valid, fresh.sites, fresh.routes, fresh.attended, ⟨⟨?_, ?_, ?_, ?_⟩, ?_, .nil,
    nofun⟩, ?_, ?_⟩
  · intro v mem p waits
    rw [(empty v mem).1] at waits
    cases waits
  · rw [show (start s).ledger.views = s.cargo from rfl, none]
    exact Multiset.nodup_zero
  · intro v last reserves
    have tail : held s.cargo.tail = 0 :=
      held_eq_zero fun w mem => empty w (List.mem_of_mem_tail mem)
    rw [(fresh.cargo v (List.mem_of_getLast? last)).2.2]
    exact (congrArg Multiset.card tail).symm
  · exact fun v mem _ => (empty v mem).1
  · rw [show (start s).ledger.views = s.cargo from rfl, none, ledger, noCompletion]
    rfl
  · rw [show (start s).system = s from rfl, fresh.host]
    rfl
  · rw [show (start s).system = s from rfl, fresh.host, noCompletion]
    rfl

theorem Standing.run (standing : h.Standing) (calls : List HostCall)
    (allowed : timed = true → ∀ call ∈ calls, call.timed = true) :
    h.Reaches timed (h.run calls) := by
  induction calls generalizing h with
  | nil => exact standing.refl
  | cons call calls ih =>
    have first : h.Reaches timed (h.after call) :=
      standing.after call fun ok => allowed ok call List.mem_cons_self
    exact first.trans (ih first.standing fun ok other mem =>
      allowed ok other (List.mem_cons_of_mem call mem))

theorem standing_run (created : Simulation.create machine config = .ok s) (calls : List HostCall) :
    ((start s).run calls).Standing := by
  have reaches : (start s).Reaches false ((start s).run calls) :=
    (standing_start created).run calls nofun
  exact reaches.standing

end Session

end Expander
