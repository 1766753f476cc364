import Expander.Proofs.Layout
import Expander.Proofs.Resolution

/-!
What a created system starts out with.

Its stages stand at the sites of the configuration, with empty queues and fresh storage; no event is
pending and no access has been made. The interconnect has one route to the system memory and one to
the front of the expander.
-/

set_option autoImplicit false

namespace Expander

namespace ResolvedConfig

def memoryStage (c : ResolvedConfig) (store : Store) : Stage :=
  .memory { range := c.system.memoryRange, latency := c.system.memoryLatency, store }

def controllerStage (c : ResolvedConfig) (store : Store) : Stage :=
  .controller {
    name := "mem-ctrl", range := c.device.range, config := c.controller
    decoder := ⟨c.media.geometry, c.controller.addressMapping⟩
    media := List.replicate c.media.geometry.channels (Media.create c.media), store }

def deviceStage (c : ResolvedConfig) : Stage :=
  .device (.create "cxl-device" c.device c.device.range.size)

def bridgeStage (c : ResolvedConfig) (bridge : BridgeConfig) : Stage :=
  .bridge (.create "cxl-bridge" bridge c.device.range)

def nodes (c : ResolvedConfig) (system expander : Store) : List Node :=
  match c.topology, c.bridge with
  | .controller, _ =>
    [⟨c.memoryStage system, some .host, none⟩, ⟨c.controllerStage expander, some .host, none⟩]
  | .bridged, none | .direct, none =>
    [⟨c.memoryStage system, some .host, none⟩,
      ⟨c.controllerStage expander, some (.component 2), none⟩, ⟨c.deviceStage, some .host, some 1⟩]
  | .bridged, some bridge | .direct, some bridge =>
    [⟨c.memoryStage system, some .host, none⟩,
      ⟨c.controllerStage expander, some (.component 2), none⟩,
      ⟨c.deviceStage, some (.component 3), some 1⟩, ⟨c.bridgeStage bridge, some .host, some 2⟩]

def memoryFabric (c : ResolvedConfig) : Fabric where
  nodes := [⟨c.memoryStage (.blank c.system.memorySize), none, none⟩]
  interconnect := {
    width := c.system.busWidth, latency := c.system.busLatency, clock := c.system.busClock }

def withController (c : ResolvedConfig) (f : Fabric) : Fabric :=
  { f with nodes := f.nodes ++ [⟨c.controllerStage (.blank c.device.range.size), none, none⟩] }

end ResolvedConfig

/-- A system as it is created. -/
structure Simulation.Fresh (s : Simulation) : Prop where
  valid : s.config.Valid
  nodes : s.fabric.nodes =
    s.config.nodes (.blank s.config.system.memorySize) (.blank s.config.device.range.size)
  routes : ∀ route ∈ s.fabric.interconnect.routes,
    (route.range = s.config.system.memoryRange ∧ route.target = 0) ∨
    (route.range = s.config.device.range ∧ route.target = s.config.front)
  registrations : s.registrations = [(s.config.system.memoryRange, 0), (s.config.device.range, 1)]
  events : s.events = {}
  now : s.now = 0
  nextId : s.nextId = 0
  completions : s.completions = []
  hostRetry : s.hostRetry = false
  host : s.host = {}

def ResolvedConfig.bus (c : ResolvedConfig) : Nat × Tick × Tick :=
  (c.system.busWidth, c.system.busLatency, c.system.busClock)

namespace Fabric

def bus (f : Fabric) : Nat × Tick × Tick :=
  (f.interconnect.width, f.interconnect.latency, f.interconnect.clock)

variable {f f' : Fabric} {target up down : ComponentId} {range : AddressRange}

theorem addRoutes_eq_ok {name : String} {n n' : Interconnect}
    (h : addRoutes target name [range] n = (.ok (), n')) :
    ∀ route ∈ n'.routes, (route.range = range ∧ route.target = target) ∨ route ∈ n.routes := by
  rw [addRoutes, Interconnect.addRoute] at h
  split at h
  · cases h
  · rename_i added hadd
    split at hadd
    · cases hadd
    · cases hadd
      cases h
      intro route mem
      rcases List.mem_cons.1 ((insertStable_perm _ _ _).mem_iff.1 mem) with rfl | old
      · exact .inl ⟨rfl, rfl⟩
      · exact .inr old

theorem attached_eq_ok (h : f.attached target [range] = .ok f') :
    f'.nodes = f.nodes.modify target (fun node => { node with hostSide := some .host }) ∧
      ∀ route ∈ f'.interconnect.routes,
        (route.range = range ∧ route.target = target) ∨ route ∈ f.interconnect.routes := by
  rw [attached] at h
  split at h
  · rename_i attached hattach
    cases h
    rw [attachToHost] at hattach
    split at hattach
    · cases hattach
    · split at hattach
      · cases hattach
      · split at hattach
        · cases hattach
        · rename_i interconnect added
          cases hattach
          exact ⟨rfl, addRoutes_eq_ok added⟩
  · cases h

theorem bus_addRoutes {name : String} {ranges : List AddressRange} {n n' : Interconnect}
    {result : Except ConfigError Unit} (h : addRoutes target name ranges n = (result, n')) :
    n'.width = n.width ∧ n'.latency = n.latency ∧ n'.clock = n.clock := by
  induction ranges generalizing n with
  | nil =>
    cases h
    exact ⟨rfl, rfl, rfl⟩
  | cons range rest ih =>
    rw [addRoutes, Interconnect.addRoute] at h
    split at h
    · cases h
      exact ⟨rfl, rfl, rfl⟩
    · rename_i added hadd
      split at hadd
      · cases hadd
      · cases hadd
        have kept := ih h
        exact kept

theorem bus_attached {ranges : List AddressRange} (h : f.attached target ranges = .ok f') :
    f'.bus = f.bus := by
  rw [attached] at h
  split at h
  · rename_i attached hattach
    cases h
    rw [attachToHost] at hattach
    split at hattach
    · cases hattach
    · split at hattach
      · cases hattach
      · split at hattach
        · cases hattach
        · rename_i interconnect added
          cases hattach
          obtain ⟨width, latency, clock⟩ := bus_addRoutes added
          simp only [bus, width, latency, clock]
  · cases h

theorem connect_eq_ok (h : f.connect up down = .ok f') :
    f' = { f with
      nodes := (f.nodes.modify up fun node => { node with memorySide := some down }).modify down
        fun node => { node with hostSide := some (.component up) } } := by
  obtain ⟨upper, -, h⟩ := bind_eq_ok.1 h
  obtain ⟨lower, -, h⟩ := bind_eq_ok.1 h
  split at h
  · cases h
  · split at h
    · cases h
    · cases h
      rfl

end Fabric

namespace Simulation

variable {machine : Machine} {config : Config} {s : Simulation} {c : ResolvedConfig}

/-- The front end stands before the controller, and the last of it is routed. -/
theorem addFrontEnd_eq_ok {f f' : Fabric} {system expander : Store}
    (h : addFrontEnd c f 1 = .ok f')
    (nodes : f.nodes = [⟨c.memoryStage system, some .host, none⟩,
      ⟨c.controllerStage expander, none, none⟩]) :
    f'.nodes = c.nodes system expander ∧
      ∀ route ∈ f'.interconnect.routes,
        (route.range = c.device.range ∧ route.target = c.front) ∨
        route ∈ f.interconnect.routes := by
  rw [addFrontEnd] at h
  rw [ResolvedConfig.nodes, ResolvedConfig.front, ResolvedConfig.sites]
  cases topology : c.topology with
  | controller =>
    simp only [topology] at h
    have attached := Fabric.attached_eq_ok h
    rw [nodes] at attached
    exact attached
  | direct | bridged =>
    simp only [topology, Fabric.add, nodes, List.length_cons, List.length_nil] at h
    obtain ⟨linked, connects, h⟩ := bind_eq_ok.1 h
    have linked_eq := Fabric.connect_eq_ok connects
    subst linked_eq
    cases bridge : c.bridge with
    | none =>
      simp only [bridge] at h
      exact Fabric.attached_eq_ok h
    | some b =>
      simp only [bridge] at h
      obtain ⟨linked, connects, h⟩ := bind_eq_ok.1 h
      have linked_eq := Fabric.connect_eq_ok connects
      subst linked_eq
      exact Fabric.attached_eq_ok h

theorem create_eq_ok (h : create machine config = .ok s) : ∃ attached fabric,
    config.resolve = .ok s.config ∧
    s.config.memoryFabric.attached 0 [s.config.system.memoryRange] = .ok attached ∧
    addFrontEnd s.config (s.config.withController attached) 1 = .ok fabric ∧
    s = {
      fabric
      registrations := [(s.config.system.memoryRange, 0), (s.config.device.range, 1)]
      memoryMap := MemoryMap.build s.config.system.memoryRange s.config.device.range
      window := .ofConfig s.config
      config := s.config } := by
  obtain ⟨c, resolved, h⟩ := bind_eq_ok.1 h
  obtain ⟨system, allocated, h⟩ := bind_eq_ok.1 h
  obtain rfl := Store.allocate_eq_ok allocated
  obtain ⟨attached, attaches, h⟩ := bind_eq_ok.1 h
  obtain ⟨expander, allocated', h⟩ := bind_eq_ok.1 h
  obtain rfl := Store.allocate_eq_ok allocated'
  obtain ⟨media, tables, h⟩ := bind_eq_ok.1 h
  obtain ⟨⟨⟩, -, tables⟩ := bind_eq_ok.1 tables
  obtain ⟨controller, created, h⟩ := bind_eq_ok.1 h
  obtain ⟨-, -, -, rfl⟩ := Controller.create_eq_ok created
  have length : attached.nodes.length = 1 := by
    rw [(Fabric.attached_eq_ok attaches).1]
    rfl
  simp only [Fabric.add, length] at h
  cases tables
  obtain ⟨fabric, fronts, h⟩ := bind_eq_ok.1 h
  obtain ⟨⟨⟩, -, h⟩ := bind_eq_ok.1 h
  cases h
  exact ⟨attached, fabric, mapError_eq_ok.1 resolved, attaches, fronts, rfl⟩

theorem create_unique {other : Machine} {s' : Simulation} (h : create machine config = .ok s)
    (h' : create other config = .ok s') : s' = s := by
  obtain ⟨attached, fabric, resolved, attaches, fronts, eq⟩ := create_eq_ok h
  obtain ⟨attached', fabric', resolved', attaches', fronts', eq'⟩ := create_eq_ok h'
  rw [← Except.ok.inj (resolved.symm.trans resolved')] at attaches' fronts' eq'
  cases attaches.symm.trans attaches'
  cases fronts.symm.trans fronts'
  rw [eq', ← eq]

theorem resolve_of_create (h : create machine config = .ok s) : config.resolve = .ok s.config := by
  obtain ⟨-, -, resolved, -⟩ := create_eq_ok h
  exact resolved

theorem fresh_create (h : create machine config = .ok s) : s.Fresh := by
  obtain ⟨attached, fabric, resolved, attaches, fronts, eq⟩ := create_eq_ok h
  obtain ⟨nodes, routes⟩ := Fabric.attached_eq_ok attaches
  have behind : (s.config.withController attached).nodes =
      [⟨s.config.memoryStage (.blank s.config.system.memorySize), some .host, none⟩,
        ⟨s.config.controllerStage (.blank s.config.device.range.size), none, none⟩] := by
    rw [ResolvedConfig.withController, nodes]
    rfl
  obtain ⟨nodes', routes'⟩ := addFrontEnd_eq_ok fronts behind
  rw [eq]
  refine ⟨Config.resolve_valid resolved, nodes', ?_, rfl, rfl, rfl, rfl, rfl, rfl, rfl⟩
  intro route mem
  rcases routes' route mem with front | other
  · exact .inr front
  · rcases routes route other with memory | none
    · exact .inl memory
    · cases none

theorem bus_addFrontEnd {f f' : Fabric} {controller : ComponentId}
    (h : addFrontEnd c f controller = .ok f') : f'.bus = f.bus := by
  rw [addFrontEnd] at h
  cases topology : c.topology with
  | controller =>
    simp only [topology] at h
    exact Fabric.bus_attached h
  | direct | bridged =>
    simp only [topology, Fabric.add] at h
    obtain ⟨linked, connects, h⟩ := bind_eq_ok.1 h
    cases bridge : c.bridge with
    | none =>
      simp only [bridge] at h
      rw [Fabric.bus_attached h, Fabric.connect_eq_ok connects]
      rfl
    | some b =>
      simp only [bridge] at h
      obtain ⟨linked', connects', h⟩ := bind_eq_ok.1 h
      rw [Fabric.bus_attached h, Fabric.connect_eq_ok connects', Fabric.connect_eq_ok connects]
      rfl

theorem bus_create (h : create machine config = .ok s) : s.fabric.bus = s.config.bus := by
  obtain ⟨attached, fabric, -, attaches, fronts, eq⟩ := create_eq_ok h
  rw [eq]
  exact (bus_addFrontEnd fronts).trans (Fabric.bus_attached attaches)

theorem Fresh.sites (fresh : s.Fresh) : s.fabric.sites = s.config.sites := by
  have controller (peer : Peer) :
      (s.config.controllerStage (.blank s.config.device.range.size)).view.frame =
        (s.config.controllerSite peer).frame := by
    simp only [ResolvedConfig.controllerSite, ResolvedConfig.controllerStage, Stage.view,
      Controller.view, List.length_replicate, Store.blank]
  rw [Fabric.sites, fresh.nodes, ResolvedConfig.nodes, ResolvedConfig.sites]
  cases s.config.topology <;> cases s.config.bridge <;>
    simp only [List.map_cons, List.map_nil, Node.site, controller (.component 2)] <;>
    rfl

end Simulation

end Expander
