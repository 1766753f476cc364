import Expander.Proofs.Creation

/-!
What can go wrong while a system is created.

A configuration that resolves leaves nothing to fail but what the machine gives out: storage for the
bytes, and room for the tables of the media and the queues of the controller (`create_of_resolve`).
System memory and the expander do not overlap, so that both get their route; the controller has
media for every channel and storage for its range; a link of the front end joins two stages that
have no peer on that side yet, and no stage is left without one that it needs.
-/

set_option autoImplicit false

namespace Expander

theorem ok_bind {ε α β : Type} {x : Except ε α} {a : α} (h : x = .ok a) (f : α → Except ε β) :
    (x >>= f) = f a := by
  rw [h]
  rfl

theorem exists_ok_bind {ε α β : Type} {x : Except ε α} {a : α} {f : α → Except ε β}
    (h : x = .ok a) (rest : ∃ b, f a = .ok b) : ∃ b, (x >>= f) = .ok b :=
  (ok_bind h f).symm ▸ rest

/-- What a system of a configuration takes from the machine. -/
structure Supplies where
  /-- The sizes of the stores. -/
  stores : List Nat
  /-- The lengths of the tables. -/
  tables : List Nat

/-- The computation succeeds, unless the machine does not give out one of the stores or has no room
for one of the tables. -/
def Supplies.Suffice (supplies : Supplies) (m : Machine) {α : Type} (x : Except SimError α) :
    Prop :=
  (∃ a, x = .ok a) ∨
  (∃ size ∈ supplies.stores, (∃ held, Store.allocate m held size = .error (.allocation size)) ∧
    x = .error (.allocation size)) ∨
  ∃ entries ∈ supplies.tables, m.reserves entries = false ∧ x = .error (.capacity entries)

/-- Storage for system memory and the expander, the tables of the media, and the two queues of the
controller. -/
def ResolvedConfig.supplies (c : ResolvedConfig) : Supplies where
  stores := [c.system.memorySize, c.device.range.size]
  tables := Media.tables c.media ++ [c.controller.readBufferSize, c.controller.writeBufferSize]

namespace Supplies.Suffice

variable {supplies : Supplies} {m : Machine} {α β : Type}

theorem bind {x : Except SimError α} {a : α} {f : α → Except SimError β} (h : x = .ok a)
    (rest : supplies.Suffice m (f a)) : supplies.Suffice m (x >>= f) :=
  (ok_bind h f).symm ▸ rest

theorem allocate {held size : Nat} {f : Store → Except SimError β} (mem : size ∈ supplies.stores)
    (rest : supplies.Suffice m (f (.blank size))) :
    supplies.Suffice m (Store.allocate m held size >>= f) := by
  cases allocated : Store.allocate m held size with
  | ok store =>
    obtain rfl := Store.allocate_eq_ok allocated
    exact rest
  | error e =>
    have none := allocated
    rw [Store.allocate] at allocated
    split at allocated
    · cases allocated
      exact .inr (.inl ⟨size, mem, ⟨held, none⟩, rfl⟩)
    · cases allocated

theorem setAside {tables : List Nat} {f : Unit → Except SimError β}
    (subset : tables ⊆ supplies.tables) (rest : supplies.Suffice m (f ())) :
    supplies.Suffice m (m.setAside tables >>= f) := by
  induction tables with
  | nil => exact rest
  | cons entries tables ih =>
    rw [List.cons_subset] at subset
    rw [Machine.setAside]
    cases room : m.reserves entries with
    | true => exact ih subset.2
    | false => exact .inr (.inr ⟨entries, subset.1, room, rfl⟩)

theorem controller {μ : Type} {name : String} {range : AddressRange} {cfg : ControllerConfig}
    {geometry : Geometry} {media : List μ} {store : Store}
    {f : Controller μ → Except SimError β} (channels : media.length = geometry.channels)
    (held : range.size ≤ geometry.capacity) (stored : range.size ≤ store.size)
    (subset : [cfg.readBufferSize, cfg.writeBufferSize] ⊆ supplies.tables)
    (rest : supplies.Suffice m (f
      { name, range, config := cfg, decoder := ⟨geometry, cfg.addressMapping⟩, media, store })) :
    supplies.Suffice m (Controller.create m name range cfg geometry media store >>= f) := by
  rw [Controller.create, if_neg (not_not_intro channels), if_neg (Nat.not_lt.2 held),
    if_neg (Nat.not_lt.2 stored), bind_assoc]
  exact setAside subset rest

end Supplies.Suffice

namespace Fabric

variable {f : Fabric} {target up down : ComponentId} {range : AddressRange}

theorem attached_of_free (node : Node) (found : f.nodes[target]? = some node)
    (free : node.hostSide = none)
    (apart : ∀ route ∈ f.interconnect.routes, route.range.overlaps range = false) :
    ∃ f', f.attached target [range] = .ok f' := by
  have none : (f.interconnect.routes.find? fun route => route.range.overlaps range) = none :=
    List.find?_eq_none.2 fun route mem => Bool.eq_false_iff.1 (apart route mem)
  simp only [attached, attachToHost, Fabric.node, found, free, Option.isSome_none,
    Bool.false_eq_true, if_false, addRoutes, Interconnect.addRoute, none]
  exact ⟨_, rfl⟩

theorem connect_of_free {upper lower : Node} (above : f.nodes[up]? = some upper)
    (below : f.nodes[down]? = some lower) (behind : upper.memorySide = none)
    (front : lower.hostSide = none) : ∃ f', f.connect up down = .ok f' := by
  have above' : f.node up = .ok upper := by rw [Fabric.node, above]
  have below' : f.node down = .ok lower := by rw [Fabric.node, below]
  rw [connect, ok_bind above', ok_bind below', behind, front]
  exact ⟨_, rfl⟩

theorem complete_nodes {c : ResolvedConfig} {system expander : Store}
    (nodes : f.nodes = c.nodes system expander) : f.complete = .ok () := by
  rw [complete, nodes, ResolvedConfig.nodes]
  cases c.topology <;> cases c.bridge <;> rfl

end Fabric

namespace Simulation

variable {config : Config} {c : ResolvedConfig}

/-- The front end can be linked, and its last stage gets its route. -/
theorem addFrontEnd_of_apart {f : Fabric} {system expander : Store}
    (nodes : f.nodes = [⟨c.memoryStage system, some .host, none⟩,
      ⟨c.controllerStage expander, none, none⟩])
    (apart : ∀ route ∈ f.interconnect.routes, route.range.overlaps c.device.range = false) :
    ∃ f', addFrontEnd c f 1 = .ok f' := by
  rw [addFrontEnd]
  cases topology : c.topology with
  | controller =>
    refine Fabric.attached_of_free ⟨c.controllerStage expander, none, none⟩ ?_ rfl apart
    rw [nodes]
    rfl
  | direct | bridged =>
    let added : Fabric := { f with nodes := [⟨c.memoryStage system, some .host, none⟩,
      ⟨c.controllerStage expander, none, none⟩, ⟨c.deviceStage, none, none⟩] }
    obtain ⟨linked, links⟩ : ∃ linked, added.connect 2 1 = .ok linked :=
      Fabric.connect_of_free rfl rfl rfl rfl
    have eq := Fabric.connect_eq_ok links
    simp only [Fabric.add, nodes, List.length_cons, List.length_nil]
    refine exists_ok_bind links ?_
    subst eq
    cases c.bridge with
    | none => exact Fabric.attached_of_free ⟨c.deviceStage, none, some 1⟩ rfl rfl apart
    | some bridge =>
      let bridged : Fabric := { f with nodes := [⟨c.memoryStage system, some .host, none⟩,
        ⟨c.controllerStage expander, some (.component 2), none⟩, ⟨c.deviceStage, none, some 1⟩,
        ⟨c.bridgeStage bridge, none, none⟩] }
      obtain ⟨linked, links⟩ : ∃ linked, bridged.connect 3 2 = .ok linked :=
        Fabric.connect_of_free rfl rfl rfl rfl
      have eq := Fabric.connect_eq_ok links
      refine exists_ok_bind links ?_
      subst eq
      exact Fabric.attached_of_free ⟨c.bridgeStage bridge, none, some 2⟩ rfl rfl apart

theorem create_of_resolve (m : Machine) (resolved : config.resolve = .ok c) :
    c.supplies.Suffice m (create m config) := by
  have valid := Config.resolve_valid resolved
  refine .bind (mapError_eq_ok.2 resolved) (.allocate (by simp [ResolvedConfig.supplies]) ?_)
  obtain ⟨attached, attaches⟩ : ∃ f, c.memoryFabric.attached 0 [c.system.memoryRange] = .ok f :=
    Fabric.attached_of_free _ rfl rfl nofun
  obtain ⟨nodes, routes⟩ := Fabric.attached_eq_ok attaches
  refine .bind attaches (.allocate (by simp [ResolvedConfig.supplies]) ?_)
  rw [Media.createAll, bind_assoc]
  refine .setAside (by simp [ResolvedConfig.supplies]) ?_
  refine .controller (List.length_replicate ..) valid.capacity (Nat.le_refl _)
    (by simp [ResolvedConfig.supplies]) ?_
  have length : attached.nodes.length = 1 := by
    rw [nodes]
    rfl
  have behind : (c.withController attached).nodes =
      [⟨c.memoryStage (.blank c.system.memorySize), some .host, none⟩,
        ⟨c.controllerStage (.blank c.device.range.size), none, none⟩] := by
    rw [ResolvedConfig.withController, nodes]
    rfl
  simp only [Fabric.add, length]
  obtain ⟨fabric, fronts⟩ := addFrontEnd_of_apart (f := c.withController attached) behind
    fun route mem => by
      rcases routes route mem with ⟨range, -⟩ | old
      · exact range ▸ valid.disjoint
      · cases old
  have complete := Fabric.complete_nodes (addFrontEnd_eq_ok fronts behind).1
  exact .bind fronts (.bind (mapError_eq_ok.2 complete) (.inl ⟨_, rfl⟩))

end Simulation

end Expander
