import Expander.Proofs.Passage

/-!
The counters of neighbouring stages agree.

What a stage has counted its neighbour has counted too, or it waits in the queue between the two
(`Fabric.Tallied.device`, `Fabric.Tallied.bridge`). So in every state of a session the statistics of
a system agree: those of the bridge and of the device with each other and with the controller, those
of the controller with its queues, with what was accepted for the expander and with those of its
channels (`Reachable.reconciled`).
-/

set_option autoImplicit false

namespace Expander

theorem Controller.Took.card_eq {c : Controller Media} {taken : Multiset Packet}
    (took : c.Took taken) :
    taken.card = c.counters.readRequests + c.counters.writeRequests := by
  have reads : c.counters.readRequests = (taken.filter fun p => p.kind = .read).card :=
    took.requests .read
  have writes : c.counters.writeRequests = (taken.filter fun p => p.kind = .write).card :=
    took.requests .write
  have other : (taken.filter fun p => p.kind = .write) = taken.filter fun p => ¬ p.kind = .read :=
    Multiset.filter_congr fun p _ => by cases p.kind <;> simp
  rw [reads, writes, other, ← Multiset.card_add, Multiset.filter_add_not]

namespace Fabric

variable {f : Fabric} {took : ComponentId → Way → Multiset Packet} {entered : Multiset Packet}
  {up down : ComponentId} {b : Bridge} {d : Device} {c : Controller Media}

theorem Tallied.device (tallied : f.Tallied took entered) (behind : f.memorySide? up = some down)
    (hupper : f.stage? up = some (.device d)) (hlower : f.stage? down = some (.controller c)) :
    d.counters.requests =
      d.requests.size + (c.counters.readRequests + c.counters.writeRequests) := by
  have counted : d.counters.requests = (took up .request).card :=
    tallied.counts up _ hupper .request
  have below : c.Took (took down .request) := tallied.counts down _ hlower
  have waiting : ((Stage.device d).waiting .request).card = d.requests.size :=
    d.requests.length_packets
  rw [counted, tallied.requests up down _ behind hupper rfl, Multiset.card_add, waiting,
    below.card_eq]

/-- What the bridge has counted of the requests the device has counted, or it waits in the bridge.
Of the responses it is the other way round. -/
theorem Tallied.bridge (tallied : f.Tallied took entered) (behind : f.memorySide? up = some down)
    (hupper : f.stage? up = some (.bridge b)) (hlower : f.stage? down = some (.device d)) :
    b.counters.requests = b.requests.size + d.counters.requests ∧
      d.counters.responses = d.responses.size + b.counters.responses := by
  have above (way : Way) : b.tally way = (took up way).card := tallied.counts up _ hupper way
  have below (way : Way) : d.tally way = (took down way).card := tallied.counts down _ hlower way
  constructor
  · have waiting : ((Stage.bridge b).waiting .request).card = b.requests.size :=
      b.requests.length_packets
    calc b.counters.requests
        = (took up .request).card := above .request
      _ = b.requests.size + (took down .request).card := by
          rw [tallied.requests up down _ behind hupper rfl, Multiset.card_add, waiting]
      _ = b.requests.size + d.counters.requests := by
          rw [← below .request]
          rfl
  · have waiting : ((Stage.device d).waiting .response).card = d.responses.size :=
      d.responses.length_packets
    calc d.counters.responses
        = (took down .response).card := below .response
      _ = d.responses.size + (took up .response).card := by
          rw [tallied.responses up down _ behind hlower rfl, Multiset.card_add, waiting]
      _ = d.responses.size + b.counters.responses := by
          rw [← above .response]
          rfl

def waiting (f : Fabric) : Multiset Packet :=
  (f.nodes.map fun node => node.stage.waiting .request).sum

end Fabric

@[simp] theorem Stage.waiting_memory (m : SystemMemory) : (memory m).waiting .request = 0 := rfl

@[simp] theorem Stage.waiting_controller (c : Controller Media) :
    (controller c).waiting .request = 0 := rfl

theorem Node.of_site {node : Node} {frame : StageFrame} {hostSide : Option Peer}
    {memorySide : Option ComponentId} (same : node.site = ⟨frame, hostSide, memorySide⟩) :
    match frame with
    | .memory .. => ∃ m, node = ⟨.memory m, hostSide, memorySide⟩
    | .controller .. => ∃ c, node = ⟨.controller c, hostSide, memorySide⟩
    | .device .. => ∃ d, node = ⟨.device d, hostSide, memorySide⟩
    | .bridge .. => ∃ b, node = ⟨.bridge b, hostSide, memorySide⟩ := by
  obtain ⟨stage, above, below⟩ := node
  cases same
  cases stage <;> exact ⟨_, rfl⟩

namespace Session

variable {h : Session} {config : Config} {id : ComponentId} {c : Controller Media}

theorem Standing.nodes_cases (standing : h.Standing) : ∃ m c,
    h.system.fabric.nodes =
      [⟨.memory m, some .host, none⟩, ⟨.controller c, some .host, none⟩] ∨
    (∃ d, h.system.fabric.nodes =
      [⟨.memory m, some .host, none⟩, ⟨.controller c, some (.component 2), none⟩,
        ⟨.device d, some .host, some 1⟩]) ∨
    ∃ d b, h.system.fabric.nodes =
      [⟨.memory m, some .host, none⟩, ⟨.controller c, some (.component 2), none⟩,
        ⟨.device d, some (.component 3), some 1⟩, ⟨.bridge b, some .host, some 2⟩] := by
  have sites : h.system.fabric.nodes.map Node.site = h.system.config.sites := standing.sites
  rcases h.system.config.sites_cases with eq | eq | ⟨bridge, -, eq⟩ <;> rw [eq] at sites <;>
    obtain ⟨first, others, nodes, memory, behind⟩ := List.map_eq_cons_iff.1 sites <;>
    obtain ⟨m, rfl⟩ := Node.of_site memory <;>
    obtain ⟨second, front, rfl, controller, before⟩ := List.map_eq_cons_iff.1 behind <;>
    obtain ⟨c, rfl⟩ := Node.of_site controller
  · cases List.map_eq_nil_iff.1 before
    exact ⟨m, c, .inl nodes⟩
  · obtain ⟨third, rest, rfl, device, none⟩ := List.map_eq_cons_iff.1 before
    obtain ⟨d, rfl⟩ := Node.of_site device
    cases List.map_eq_nil_iff.1 none
    exact ⟨m, c, .inr (.inl ⟨d, nodes⟩)⟩
  · obtain ⟨third, rest, rfl, device, last⟩ := List.map_eq_cons_iff.1 before
    obtain ⟨d, rfl⟩ := Node.of_site device
    obtain ⟨fourth, rest, rfl, bridged, none⟩ := List.map_eq_cons_iff.1 last
    obtain ⟨b, rfl⟩ := Node.of_site bridged
    cases List.map_eq_nil_iff.1 none
    exact ⟨m, c, .inr (.inr ⟨d, b, nodes⟩)⟩

theorem keeps_reconciled : Controller.Keeps fun c => c.Orderly ∧ c.Reconciled where
  call call h := ⟨keeps_orderly.call call h.1, Controller.reconciled_after h.2 h.1 call⟩
  store store h := ⟨keeps_orderly.store store h.1, h.2.alike rfl⟩

theorem Reachable.controller_reconciled (reachable : Reachable config h)
    (found : h.system.fabric.stage? id = some (.controller c)) : c.Reconciled := by
  have every : h.system.All (Stage.OfController fun c => c.Orderly ∧ c.Reconciled) := by
    refine (lasts_stages keeps_reconciled.stage).reachable (fun s created => ?_) reachable
    intro id stage found
    have orderly := (Reachable.start created).all_orderly id stage found
    have reconciled : stage.OfController Controller.Reconciled :=
      (Simulation.fresh_create created).forall_stage
        (P := Stage.OfController Controller.Reconciled) trivial
        (Controller.reconciled_of_new ..) trivial (fun _ => trivial) found
    cases stage with
    | controller c => exact ⟨orderly, reconciled⟩
    | bridge | device | memory => trivial
  exact (every id _ found).2

/-- The statistics of a system agree with each other, with the queues of its stages, and with what
was accepted for the expander. -/
structure Reconciled (h : Session) (c : Controller Media) : Prop where
  controller : h.system.statistics.controller = some c.counters
  media : h.system.statistics.media = c.media.map MediaChannel.statistics
  device : ∀ d, .device d ∈ h.system.fabric.nodes.map (·.stage) →
    h.system.statistics.device = some d.counters ∧
      d.counters.requests =
        d.requests.size + (c.counters.readRequests + c.counters.writeRequests)
  bridge : ∀ b, .bridge b ∈ h.system.fabric.nodes.map (·.stage) →
    h.system.statistics.bridge = some b.counters ∧
      ∃ d, .device d ∈ h.system.fabric.nodes.map (·.stage) ∧
        b.counters.requests = b.requests.size + d.counters.requests ∧
        d.counters.responses = d.responses.size + b.counters.responses
  /-- The controller has taken the accepted requests that do not wait in front of it, and accounts
  for their bursts. -/
  intake : ∃ taken, h.addressed = h.system.fabric.waiting + taken ∧ c.Took taken
  issued : c.Reconciled

theorem Standing.addressed_eq {took : ComponentId → Way → Multiset Packet}
    (standing : h.Standing) (tallied : h.system.fabric.Tallied took h.addressed) :
    h.addressed = h.system.fabric.waiting + took 1 .request := by
  obtain ⟨m, c, nodes | ⟨d, nodes⟩ | ⟨d, b, nodes⟩⟩ := standing.nodes_cases
  · have front := tallied.front 1 Nat.one_pos (by simp [Fabric.hostSide?, nodes])
    have waiting : h.system.fabric.waiting = 0 := by
      simp [Fabric.waiting, nodes]
    rw [← front, waiting, zero_add]
  · have front := tallied.front 2 Nat.two_pos (by simp [Fabric.hostSide?, nodes])
    have device := tallied.requests 2 1 (.device d) (by simp [Fabric.memorySide?, nodes])
      (by simp [Fabric.stage?, nodes]) rfl
    have waiting : h.system.fabric.waiting = (Stage.device d).waiting .request := by
      simp [Fabric.waiting, nodes]
    rw [← front, device, waiting]
  · have front := tallied.front 3 (by decide) (by simp [Fabric.hostSide?, nodes])
    have bridge := tallied.requests 3 2 (.bridge b) (by simp [Fabric.memorySide?, nodes])
      (by simp [Fabric.stage?, nodes]) rfl
    have device := tallied.requests 2 1 (.device d) (by simp [Fabric.memorySide?, nodes])
      (by simp [Fabric.stage?, nodes]) rfl
    have waiting : h.system.fabric.waiting =
        (Stage.device d).waiting .request + (Stage.bridge b).waiting .request := by
      simp [Fabric.waiting, nodes]
    rw [← front, bridge, device, waiting, ← add_assoc, add_comm ((Stage.bridge b).waiting _)]

/-- In every state of a session the statistics of the system agree. -/
theorem Reachable.reconciled (reachable : Reachable config h) :
    ∃ c, h.system.fabric.stage? 1 = some (.controller c) ∧ h.Reconciled c := by
  obtain ⟨took, tallied⟩ := reachable.tallied
  obtain ⟨m, c, nodes⟩ := reachable.standing.nodes_cases
  have found : h.system.fabric.stage? 1 = some (.controller c) := by
    rcases nodes with nodes | ⟨d, nodes⟩ | ⟨d, b, nodes⟩ <;> simp [Fabric.stage?, nodes]
  have device (d : Device) (behind : h.system.fabric.memorySide? 2 = some 1)
      (second : h.system.fabric.stage? 2 = some (.device d)) := tallied.device behind second found
  refine ⟨c, found, ?_, ?_, fun d mem => ?_, fun b mem => ?_, ?_, ?_⟩
  · rcases nodes with nodes | ⟨d, nodes⟩ | ⟨d, b, nodes⟩ <;> rw [Simulation.statistics, nodes] <;>
      rfl
  · rcases nodes with nodes | ⟨d, nodes⟩ | ⟨d, b, nodes⟩ <;> rw [Simulation.statistics, nodes] <;>
      rfl
  · rcases nodes with nodes | ⟨d', nodes⟩ | ⟨d', b, nodes⟩
    · simp [nodes] at mem
    all_goals
      obtain rfl : d = d' := by simpa [nodes] using mem
      refine ⟨?_, device d (by simp [Fabric.memorySide?, nodes]) (by simp [Fabric.stage?, nodes])⟩
      rw [Simulation.statistics, nodes]
      rfl
  · rcases nodes with nodes | ⟨d, nodes⟩ | ⟨d, b', nodes⟩
    · simp [nodes] at mem
    · simp [nodes] at mem
    · obtain rfl : b = b' := by simpa [nodes] using mem
      have behind : h.system.fabric.memorySide? 3 = some 2 := by simp [Fabric.memorySide?, nodes]
      have third : h.system.fabric.stage? 3 = some (.bridge b) := by simp [Fabric.stage?, nodes]
      have second : h.system.fabric.stage? 2 = some (.device d) := by simp [Fabric.stage?, nodes]
      refine ⟨?_, d, by simp [nodes], tallied.bridge behind third second⟩
      rw [Simulation.statistics, nodes]
      rfl
  · exact ⟨_, reachable.standing.addressed_eq tallied, tallied.counts 1 _ found⟩
  · exact reachable.controller_reconciled found

/-- Two writes of the same bytes behind a read, and a read of what is to be written: the second
write and the second read need no access of their own. -/
theorem reconciled_merged : ∃ s h, Simulation.create .standard {} = .ok s ∧
    h = (start s).run [.send (.read 0x100001000 2), .send (.write 0x100000000 [1, 2]),
      .send (.write 0x100000000 [3, 4]), .send (.read 0x100000000 2), .poll] ∧
    h.system.statistics.controller.map (fun s => (s.readRequests, s.writeRequests, s.readBursts,
      s.writeBursts, s.forwardedReads, s.mergedWrites)) = some (2, 2, 1, 1, 1, 1) ∧
    ∃ c, h.system.fabric.stage? 1 = some (.controller c) ∧ h.Reconciled c :=
  ⟨_, _, rfl, rfl, by decide +kernel, Reachable.reconciled ((Reachable.start
    (show Simulation.create .standard {} = _ from rfl)).run _)⟩

end Session

end Expander
