import Expander.Proofs.Construction
import Expander.Proofs.Footprint

/-!
The memory map and what a system serves.

The map is built from fixed windows and the two ranges of memory, without a look at how they lie to
each other. But a configuration resolves only when system memory, the expander and the reserved
ranges are clear of each other; the parts that system memory is cut into lie inside of it
(`within_of_mem`), and the BIOS window is one of the reserved ranges. So no two entries share an
address, and memory is what the ranges hold, without the legacy hole. All of it has a route
(`describes_of_resolve`).
-/

set_option autoImplicit false

namespace Expander

theorem requireDisjoint_pairwise {owned : List (AddressRange × String)}
    (h : requireDisjoint owned = .ok ()) :
    (owned.map Prod.fst).Pairwise fun a b => a.overlaps b = false := by
  induction owned with
  | nil => exact .nil
  | cons first rest ih =>
    obtain ⟨range, owner⟩ := first
    rw [requireDisjoint] at h
    split at h
    · cases h
    next none =>
      refine List.pairwise_cons.2 ⟨fun other mem => ?_, ih h⟩
      obtain ⟨entry, within, rfl⟩ := List.mem_map.1 mem
      exact Bool.eq_false_iff.2 (List.find?_eq_none.1 none entry within)

theorem Config.resolve_apart {config : Config} {c : ResolvedConfig}
    (h : config.resolve = .ok c) :
    (c.system.memoryRange :: c.device.range :: SystemConfig.reservedRanges.map Prod.fst).Pairwise
      fun a b => a.overlaps b = false := by
  obtain ⟨⟨⟩, -, h⟩ := bind_eq_ok.1 h
  obtain ⟨⟨⟩, -, h⟩ := bind_eq_ok.1 h
  obtain ⟨⟨⟩, -, h⟩ := bind_eq_ok.1 h
  obtain ⟨controller, -, h⟩ := bind_eq_ok.1 h
  simp only at h
  split at h
  · obtain ⟨⟨⟩, impossible, -⟩ := bind_eq_ok.1 h
    cases impossible
  obtain ⟨⟨⟩, disjoint, h⟩ := bind_eq_ok.1 h
  have apart := requireDisjoint_pairwise disjoint
  split at h
  · obtain ⟨bridge, -, h⟩ := bind_eq_ok.1 h
    cases h
    exact apart
  · cases h
    exact apart

namespace AddressRange

variable {r s other : AddressRange} {addr : Nat}

def Within (r s : AddressRange) : Prop :=
  s.base ≤ r.base ∧ r.stop ≤ s.stop ∧ (r.size ≠ 0 → s.size ≠ 0)

theorem Within.apart (within : r.Within s) (apart : s.overlaps other = false) :
    r.overlaps other = false := by
  refine Bool.eq_false_iff.2 fun overlap => Bool.eq_false_iff.1 apart ?_
  obtain ⟨base, stop, size⟩ := within
  rw [overlaps_iff] at overlap ⊢
  exact ⟨size overlap.1, overlap.2.1, Nat.lt_of_le_of_lt base overlap.2.2.1,
    Nat.lt_of_lt_of_le overlap.2.2.2 stop⟩

end AddressRange

namespace MemoryMap

variable {system expander : AddressRange} {region : MemoryRegion} {addr : Nat}

/-- The address is memory on the map. -/
def IsRam (map : List MemoryRegion) (addr : Nat) : Prop :=
  ∃ region ∈ map, region.kind = .ram ∧ region.range.contains addr = true

def InHole (system : AddressRange) (addr : Nat) : Prop :=
  system.base = 0 ∧ mebibyte < system.size ∧ 0x9FC00 ≤ addr ∧ addr < 0x100000

instance : Decidable (InHole system addr) := inferInstanceAs (Decidable (_ ∧ _))

/-- The map shows the memory of the two ranges. -/
structure Describes (map : List MemoryRegion) (system expander : AddressRange) : Prop where
  sorted : map.Pairwise fun a b => a.range.base ≤ b.range.base
  apart : map.Pairwise fun a b => a.range.overlaps b.range = false
  ram : ∀ addr, IsRam map addr ↔
    (system.contains addr = true ∨ expander.contains addr = true) ∧ ¬ InHole system addr

/-! ### The regions of system memory -/

theorem systemRegions_cases (system : AddressRange) :
    (system.base = 0 ∧ mebibyte < system.size ∧ systemRegions system =
      [⟨lowMemory, .ram⟩, ⟨legacyHole, .reserved⟩,
        ⟨⟨mebibyte, system.size - mebibyte⟩, .ram⟩]) ∨
    (¬ (system.base = 0 ∧ mebibyte < system.size) ∧ systemRegions system = [⟨system, .ram⟩]) := by
  rw [systemRegions]
  split
  next classic => exact .inl ⟨classic.1, classic.2, rfl⟩
  next plain => exact .inr ⟨plain, rfl⟩

theorem within_of_mem (mem : region ∈ systemRegions system) :
    region.range.Within system := by
  rcases systemRegions_cases system with ⟨base, size, eq⟩ | ⟨-, eq⟩ <;> rw [eq] at mem
  · simp only [mebibyte, kibibyte] at size
    simp only [List.mem_cons, List.not_mem_nil, or_false] at mem
    rcases mem with rfl | rfl | rfl <;>
      simp only [AddressRange.Within, AddressRange.stop, lowMemory, legacyHole, mebibyte, kibibyte,
        lastAddress] <;> omega
  · rw [List.mem_singleton.1 mem]
    exact ⟨Nat.le_refl _, Nat.le_refl _, id⟩

theorem systemRegions_apart (system : AddressRange) :
    (systemRegions system).Pairwise fun a b => a.range.overlaps b.range = false := by
  rcases systemRegions_cases system with ⟨-, -, eq⟩ | ⟨-, eq⟩ <;> rw [eq]
  · simp [AddressRange.overlaps, AddressRange.stop, lowMemory, legacyHole, mebibyte, kibibyte,
      lastAddress]
  · exact List.pairwise_singleton ..

theorem isRam_systemRegions : IsRam (systemRegions system) addr ↔
    system.contains addr = true ∧ ¬ InHole system addr := by
  rw [IsRam]
  rcases systemRegions_cases system with ⟨base, size, eq⟩ | ⟨plain, eq⟩ <;> rw [eq]
  · simp only [mebibyte, kibibyte] at size
    simp [InHole, AddressRange.contains_iff, AddressRange.stop, lowMemory, legacyHole, mebibyte,
      kibibyte, lastAddress, base]
    omega
  · have none : ¬ InHole system addr := fun hole => plain ⟨hole.1, hole.2.1⟩
    simp [none]

theorem contains_of_inHole (hole : InHole system addr) : system.contains addr = true := by
  obtain ⟨base, size, low, high⟩ := hole
  simp only [mebibyte, kibibyte] at size
  simp only [AddressRange.contains_iff, AddressRange.stop, lastAddress]
  omega

/-! ### The map -/

theorem build_perm (system expander : AddressRange) : (build system expander).Perm
    (systemRegions system ++ [⟨biosWindow, .reserved⟩, ⟨expander, .ram⟩]) :=
  sortStable_perm ..

theorem describes_build (apart : system.overlaps expander = false)
    (bios : system.overlaps biosWindow = false) (bios' : expander.overlaps biosWindow = false) :
    Describes (build system expander) system expander where
  sorted := by
    have order := inOrder_sortStable (.byKey fun r : MemoryRegion => r.range.base)
      (systemRegions system ++ [⟨biosWindow, .reserved⟩, ⟨expander, .ram⟩])
    exact order.imp fun notBefore => Nat.not_lt.1 (of_decide_eq_false notBefore)
  apart := by
    rw [(build_perm system expander).pairwise_iff fun overlap => by
      rwa [AddressRange.overlaps_comm]]
    refine List.pairwise_append.2 ⟨systemRegions_apart system, ?_, fun r mem r' mem' => ?_⟩
    · rw [AddressRange.overlaps_comm] at bios'
      exact List.pairwise_pair.2 bios'
    · have within := within_of_mem mem
      simp only [List.mem_cons, List.not_mem_nil, or_false] at mem'
      rcases mem' with rfl | rfl
      · exact within.apart bios
      · exact within.apart apart
  ram addr := by
    have parts : IsRam (build system expander) addr ↔
        IsRam (systemRegions system) addr ∨ expander.contains addr = true := by
      simp [IsRam, (build_perm system expander).mem_iff, or_and_right, exists_or]
    -- The hole is a part of system memory, so it takes nothing from the expander.
    have outside (held : expander.contains addr = true) : ¬ InHole system addr := fun hole =>
      Bool.false_ne_true ((AddressRange.not_contains_of_apart apart
        (contains_of_inHole hole)).symm.trans held)
    rw [parts, isRam_systemRegions]
    tauto

end MemoryMap

/-! ### The system that is built -/

namespace Fabric

variable {f f' : Fabric} {target up down : ComponentId} {ranges : List AddressRange}

theorem routes_attached (h : f.attached target ranges = .ok f') :
    ∀ route ∈ f.interconnect.routes, route ∈ f'.interconnect.routes := by
  have extended := (extends_perform f (.attach target ranges)).routes
  rw [attached] at h
  rw [perform] at extended
  split at h
  next attaches =>
    cases h
    rwa [attaches] at extended
  next => cases h

end Fabric

namespace Simulation

variable {machine : Machine} {config : Config} {s : Simulation}

theorem routes_addFrontEnd {c : ResolvedConfig} {f f' : Fabric} {controller : ComponentId}
    (h : addFrontEnd c f controller = .ok f') :
    ∀ route ∈ f.interconnect.routes, route ∈ f'.interconnect.routes := by
  rw [addFrontEnd] at h
  cases topology : c.topology with
  | controller =>
    simp only [topology] at h
    exact Fabric.routes_attached h
  | direct | bridged =>
    simp only [topology, Fabric.add] at h
    obtain ⟨linked, connects, h⟩ := bind_eq_ok.1 h
    have same := Fabric.interconnect_connect connects
    cases bridge : c.bridge with
    | none =>
      simp only [bridge] at h
      have kept := Fabric.routes_attached h
      rwa [same] at kept
    | some b =>
      simp only [bridge] at h
      obtain ⟨linked', connects', h⟩ := bind_eq_ok.1 h
      have kept := Fabric.routes_attached h
      rwa [Fabric.interconnect_connect connects', same] at kept

theorem mapped_create (h : create machine config = .ok s) :
    s.memoryMap = MemoryMap.build s.config.system.memoryRange s.config.device.range ∧
      ∃ route ∈ s.fabric.interconnect.routes, route.range = s.config.system.memoryRange := by
  obtain ⟨attached, fabric, -, attaches, fronts, eq⟩ := create_eq_ok h
  rw [eq]
  obtain ⟨route, mem, range⟩ := Fabric.routed_attached attaches
  exact ⟨rfl, route, routes_addFrontEnd fronts route mem, range⟩

end Simulation

namespace Session

variable {machine : Machine} {config : Config} {c : ResolvedConfig} {h : Session} {addr : Nat}

theorem Reachable.routed_memory (reachable : Reachable config h) :
    ∃ route ∈ h.system.fabric.interconnect.routes,
      route.range = h.system.config.system.memoryRange := by
  refine reachable.keeps
    (P := fun h => ∃ route ∈ h.system.fabric.interconnect.routes,
      route.range = h.system.config.system.memoryRange)
    (fun s created => (Simulation.mapped_create created).2) ?_
  rintro h h' standing routed step
  have same : h'.system.entrance = h.system.entrance := (lasts_entrance _).step standing rfl step
  have routes : h'.system.fabric.interconnect.routes = h.system.fabric.interconnect.routes :=
    congrArg Prod.snd same
  rwa [routes, (standing.step step).config]

theorem Reachable.routed_ranges (reachable : Reachable config h) {range : AddressRange}
    (owned : range = h.system.config.system.memoryRange ∨ range = h.system.config.device.range) :
    ∃ route ∈ h.system.fabric.interconnect.routes, route.range = range := by
  rcases owned with rfl | rfl
  · exact reachable.routed_memory
  · exact reachable.routed

/-- Each byte of the two ranges has a route, to the stage of the range that faces the host. -/
theorem Reachable.route_byte (reachable : Reachable config h)
    (held : h.system.config.system.memoryRange.contains addr = true ∨
      h.system.config.device.range.contains addr = true) :
    (h.system.fabric.interconnect.route addr 1).1 =
      some (if h.system.config.system.memoryRange.contains addr then 0
        else h.system.config.front) := by
  have standing := reachable.standing
  cases routed : h.system.fabric.interconnect.route addr 1 with
  | mk answer n =>
    cases answer with
    | none =>
      have none := (Interconnect.route_eq_none_iff routed).1 rfl
      rw [Interconnect.decode?, Option.map_eq_none_iff, List.find?_eq_none] at none
      obtain ⟨range, owned, inside⟩ : ∃ range, (range = h.system.config.system.memoryRange ∨
          range = h.system.config.device.range) ∧ range.contains addr = true := by
        rcases held with inside | inside
        · exact ⟨_, .inl rfl, inside⟩
        · exact ⟨_, .inr rfl, inside⟩
      obtain ⟨route, mem, rfl⟩ := reachable.routed_ranges owned
      exact absurd (AddressRange.containsAccess_one.trans inside) (none route mem)
    | some target =>
      obtain ⟨r, mem, rfl, inside⟩ := Interconnect.route_eq_some routed
      rw [AddressRange.containsAccess_one] at inside
      rcases standing.routes r mem with ⟨range, memory⟩ | ⟨range, front⟩
      · rw [range] at inside
        rw [memory, if_pos inside]
      · rw [range] at inside
        have apart := standing.valid.disjoint
        rw [AddressRange.overlaps_comm] at apart
        have outside := AddressRange.not_contains_of_apart apart inside
        rw [front, if_neg (outside ▸ Bool.false_ne_true)]

/-- The map of a configuration that resolves is in order and shows all memory once, without the
legacy hole. The system, which is built unless storage cannot be allocated, shows this map, and has
a route for each byte of memory on it at all times. -/
theorem describes_of_resolve (resolved : config.resolve = .ok c) :
    MemoryMap.Describes (MemoryMap.build c.system.memoryRange c.device.range) c.system.memoryRange
      c.device.range ∧
    c.supplies.Suffice machine (Simulation.create machine config) ∧
    ∀ s, Simulation.create machine config = .ok s →
      s.memoryMap = MemoryMap.build c.system.memoryRange c.device.range ∧
      ∀ h, Reachable config h → ∀ addr, MemoryMap.IsRam s.memoryMap addr →
        (h.system.fabric.interconnect.route addr 1).1 =
          some (if c.system.memoryRange.contains addr then 0 else c.front) := by
  have bios : MemoryMap.biosWindow ∈ SystemConfig.reservedRanges.map Prod.fst := by decide
  obtain ⟨system, others⟩ := List.pairwise_cons.1 (Config.resolve_apart resolved)
  obtain ⟨expander, -⟩ := List.pairwise_cons.1 others
  have describes := MemoryMap.describes_build (system _ List.mem_cons_self)
    (system _ (List.mem_cons_of_mem _ bios)) (expander _ bios)
  refine ⟨describes, Simulation.create_of_resolve machine resolved, fun s created => ?_⟩
  obtain rfl : c = s.config :=
    Except.ok.inj (resolved.symm.trans (Simulation.resolve_of_create created))
  have shown := (Simulation.mapped_create created).1
  refine ⟨shown, fun h reachable addr ram => ?_⟩
  rw [shown] at ram
  have same : h.system.config = s.config :=
    Except.ok.inj (reachable.window.2.symm.trans resolved)
  have route := reachable.route_byte (same ▸ ((describes.ram addr).1 ram).1)
  rwa [same] at route

/-- The default system. Its memory ends where the legacy hole starts and goes on behind it; the last
byte of the expander has a route. -/
theorem describes_default : ∃ c s,
    Config.resolve {} = .ok c ∧ Simulation.create .standard {} = .ok s ∧
    s.memoryMap.map (·.range.base) = [0, 0x9FC00, 0x100000, 0xFFFF0000, 0x100000000] ∧
    ¬ MemoryMap.IsRam s.memoryMap 0x9FC00 ∧ MemoryMap.IsRam s.memoryMap 0x17FFFFFFF ∧
    (s.fabric.interconnect.route 0x17FFFFFFF 1).1 = some c.front := by
  obtain ⟨c, resolved, system, expander⟩ : ∃ c, Config.resolve {} = .ok c ∧
      c.system.memoryRange = ⟨0, 512 * mebibyte⟩ ∧
      c.device.range = ⟨4 * gibibyte, 2 * gibibyte⟩ := ⟨_, rfl, rfl, rfl⟩
  obtain ⟨s, created⟩ : ∃ s, Simulation.create .standard {} = .ok s := ⟨_, rfl⟩
  obtain ⟨describes, -, built⟩ := describes_of_resolve resolved
  obtain ⟨shown, routed⟩ := built s created
  rw [← shown, system, expander] at describes
  have ram := (describes.ram 0x17FFFFFFF).2 (by decide)
  refine ⟨c, s, resolved, created, ?_, fun hole => ?_, ram, ?_⟩
  · rw [shown, system, expander]
    decide
  · exact absurd ((describes.ram _).1 hole) (by decide)
  · have routed' := routed _ (.start created) _ ram
    rwa [system, if_neg (by decide)] at routed'

end Session

end Expander
