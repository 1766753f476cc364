import Expander.Proofs.Resolution
import Expander.Proofs.Stage.View
import Expander.Simulation

/-!
How the stages of a system are laid out.

A site is what no call changes of a node: the parameters of its stage and its links. The sites of a
system follow from its configuration: system memory, then the stages of the expander from the
controller to the front, each behind the next.
-/

set_option autoImplicit false

namespace Expander

/-- What no call changes of a node. -/
structure Site where
  frame : StageFrame
  hostSide : Option Peer
  memorySide : Option ComponentId

def Node.site (node : Node) : Site := ⟨node.stage.view.frame, node.hostSide, node.memorySide⟩

namespace ResolvedConfig

def memorySite (c : ResolvedConfig) : Site where
  frame := .memory c.system.memoryRange c.system.memoryLatency c.system.memorySize
  hostSide := some .host
  memorySide := none

def controllerSite (c : ResolvedConfig) (peer : Peer) : Site where
  frame := .controller c.device.range c.controller
    ⟨c.media.geometry, c.controller.addressMapping⟩ c.media.geometry.channels c.device.range.size
  hostSide := some peer
  memorySide := none

def deviceSite (c : ResolvedConfig) (peer : Peer) : Site where
  frame := .device c.device (some c.device.requestSize) (some c.device.responseSize)
  hostSide := some peer
  memorySide := some 1

def bridgeSite (c : ResolvedConfig) (bridge : BridgeConfig) : Site where
  frame := .bridge bridge c.device.range (some bridge.requestDepth) (some bridge.responseDepth)
  hostSide := some .host
  memorySide := some 2

def sites (c : ResolvedConfig) : List Site :=
  match c.topology, c.bridge with
  | .controller, _ => [c.memorySite, c.controllerSite .host]
  | .bridged, none | .direct, none =>
    [c.memorySite, c.controllerSite (.component 2), c.deviceSite .host]
  | .bridged, some bridge | .direct, some bridge =>
    [c.memorySite, c.controllerSite (.component 2), c.deviceSite (.component 3),
      c.bridgeSite bridge]

def front (c : ResolvedConfig) : ComponentId := c.sites.length - 1

theorem sites_cases (c : ResolvedConfig) :
    c.sites = [c.memorySite, c.controllerSite .host] ∨
    c.sites = [c.memorySite, c.controllerSite (.component 2), c.deviceSite .host] ∨
    ∃ bridge, c.bridge = some bridge ∧
      c.sites = [c.memorySite, c.controllerSite (.component 2), c.deviceSite (.component 3),
        c.bridgeSite bridge] := by
  rw [sites]
  cases c.topology <;> cases c.bridge <;> simp

end ResolvedConfig

namespace StageFrame

def isMemory : StageFrame → Bool
  | memory .. => true
  | controller .. | device .. | bridge .. => false

def isController : StageFrame → Bool
  | controller .. => true
  | memory .. | device .. | bridge .. => false

def Roomy : StageFrame → Prop
  | device _ requests responses => requests ≠ some 0 ∧ responses ≠ some 0
  | bridge _ _ requests _ => requests ≠ some 0
  | memory .. | controller .. => True

end StageFrame

namespace ResolvedConfig

variable {c : ResolvedConfig} {id : ComponentId} {site : Site}

theorem site_behind_bridge (found : c.sites[id]? = some site)
    (bridge : site.frame.reserves = true) :
    site.memorySide = some 2 ∧ ∃ peer, c.sites[2]? = some (c.deviceSite peer) := by
  rcases c.sites_cases with eq | eq | ⟨b, -, eq⟩ <;> rw [eq] at found ⊢
  · rcases id with _ | _ | id <;> cases found <;> cases bridge
  · rcases id with _ | _ | _ | id <;> cases found <;> cases bridge
  · rcases id with _ | _ | _ | _ | id <;> cases found <;> cases bridge
    exact ⟨rfl, _, rfl⟩

theorem site_before_controller (found : c.sites[id]? = some site)
    (controller : site.frame.isController = true) :
    (id = 1 ∧ site.hostSide = some .host ∧ c.sites.length = 2) ∨
    (site.hostSide = some (.component 2) ∧ ∃ peer, c.sites[2]? = some (c.deviceSite peer)) := by
  rcases c.sites_cases with eq | eq | ⟨b, -, eq⟩ <;> rw [eq] at found ⊢
  · rcases id with _ | _ | id <;> cases found <;> cases controller
    exact .inl ⟨rfl, rfl, rfl⟩
  · rcases id with _ | _ | _ | id <;> cases found <;> cases controller
    exact .inr ⟨rfl, _, rfl⟩
  · rcases id with _ | _ | _ | _ | id <;> cases found <;> cases controller
    exact .inr ⟨rfl, _, rfl⟩

end ResolvedConfig

/-- The place of a site in the chain of the expander: the stage in front of it is the next one, and
the stage behind it is the one before. System memory stands alone in the first place. -/
structure Placed (sites : List Site) (expander : AddressRange) (id : ComponentId) (site : Site) :
    Prop where
  /-- The stage behind a stage is its neighbour, and has it in front. -/
  behind : ∀ down, site.memorySide = some down → id = down + 1 ∧ 0 < down ∧
    ∃ lower, sites[down]? = some lower ∧ lower.hostSide = some (.component id)
  /-- The stage in front of a stage is its neighbour, and has it behind. -/
  before : ∀ up, site.hostSide = some (.component up) → up = id + 1 ∧ 0 < id ∧
    ∃ upper, sites[up]? = some upper ∧ upper.memorySide = some id
  faced : site.hostSide ≠ none
  /-- The host is in front of system memory and of the last stage. -/
  host : site.hostSide = some .host ↔ id = 0 ∨ id + 1 = sites.length
  /-- Just the stages that send requests on have a stage behind them. -/
  forwards : site.frame.forwards = site.memorySide.isSome
  memory : site.frame.isMemory = true ↔ id = 0
  /-- The stages of the expander serve all of its range. -/
  serves : 0 < id → ∀ addr size, expander.containsAccess addr size = true →
    site.frame.serves addr size = true
  /-- The controller alone holds the bytes of the expander. -/
  held : 0 < id → ∀ range, site.frame.held? = some range → id = 1 ∧ range = expander
  /-- A stage that reserves room for responses is the last, and its queue holds what is reserved. -/
  reserves : site.frame.reserves = true → id + 1 = sites.length ∧ ∃ config requestLimit,
    site.frame = .bridge config expander requestLimit (some config.responseDepth) ∧
    0 < config.responseDepth
  /-- The bounded queues of the stage have room for a packet. -/
  roomy : site.frame.Roomy

/-- The sites form the chain of an expander behind its front, next to system memory. -/
structure Chained (sites : List Site) (expander : AddressRange) : Prop where
  placed : ∀ (id : ComponentId) (site : Site), sites[id]? = some site →
    Placed sites expander id site
  /-- There is a stage besides system memory. -/
  expander : 1 < sites.length

theorem AddressRange.containsAccess_of_covers {filter expander : AddressRange} {addr size : Nat}
    (h : filter.covers expander = true) (inside : expander.containsAccess addr size = true) :
    filter.containsAccess addr size = true := by
  rw [containsAccess_iff] at inside ⊢
  simp only [covers, contains_iff, Bool.and_eq_true, decide_eq_true_eq] at h
  omega

section Placed

variable {c : ResolvedConfig} {sites : List Site}

theorem placed_memorySite : Placed sites c.device.range 0 c.memorySite where
  behind := nofun
  before := nofun
  faced := nofun
  host := ⟨fun _ => .inl rfl, fun _ => rfl⟩
  forwards := rfl
  memory := ⟨fun _ => rfl, fun _ => rfl⟩
  serves := nofun
  held := nofun
  reserves := nofun
  roomy := trivial

theorem placed_controllerSite {peer : Peer}
    (before : ∀ up, peer = .component up → up = 2 ∧
      ∃ upper, sites[up]? = some upper ∧ upper.memorySide = some 1)
    (host : peer = .host ↔ sites.length = 2) :
    Placed sites c.device.range 1 (c.controllerSite peer) where
  behind := nofun
  before up eq := by
    obtain ⟨rfl, upper⟩ := before up (Option.some.inj eq)
    exact ⟨rfl, Nat.one_pos, upper⟩
  faced := nofun
  host := by
    have inj : (c.controllerSite peer).hostSide = some .host ↔ peer = .host := Option.some_inj
    rw [inj, host]
    grind
  forwards := rfl
  memory := ⟨nofun, nofun⟩
  serves _ _ _ inside := inside
  held _ _ eq := ⟨rfl, (Option.some.inj eq).symm⟩
  reserves := nofun
  roomy := trivial

theorem placed_deviceSite (valid : c.Valid) {peer : Peer} {lower : Site}
    (behind : sites[1]? = some lower) (links : lower.hostSide = some (.component 2))
    (before : ∀ up, peer = .component up → up = 3 ∧
      ∃ upper, sites[up]? = some upper ∧ upper.memorySide = some 2)
    (host : peer = .host ↔ sites.length = 3) :
    Placed sites c.device.range 2 (c.deviceSite peer) where
  behind down eq := by
    cases eq
    exact ⟨rfl, Nat.one_pos, lower, behind, links⟩
  before up eq := by
    obtain ⟨rfl, upper⟩ := before up (Option.some.inj eq)
    exact ⟨rfl, Nat.two_pos, upper⟩
  faced := nofun
  host := by
    have inj : (c.deviceSite peer).hostSide = some .host ↔ peer = .host := Option.some_inj
    rw [inj, host]
    grind
  forwards := rfl
  memory := ⟨nofun, nofun⟩
  serves _ _ _ inside := inside
  held := nofun
  reserves := nofun
  roomy := by
    have requests := valid.requestSize_pos
    have responses := valid.responseSize_pos
    simp only [ResolvedConfig.deviceSite, StageFrame.Roomy, ne_eq, Option.some.injEq]
    omega

theorem placed_bridgeSite (valid : c.Valid) {bridge : BridgeConfig} (built : c.bridge = some bridge)
    {lower : Site} (behind : sites[2]? = some lower)
    (links : lower.hostSide = some (.component 3)) (length : sites.length = 4) :
    Placed sites c.device.range 3 (c.bridgeSite bridge) where
  behind down eq := by
    cases eq
    exact ⟨rfl, Nat.two_pos, lower, behind, links⟩
  before := nofun
  faced := nofun
  host := ⟨fun _ => .inr length.symm, fun _ => rfl⟩
  forwards := rfl
  memory := ⟨nofun, nofun⟩
  serves _ addr size inside := by
    obtain ⟨-, -, filter, mem, covers⟩ := valid.bridge bridge built
    exact List.any_eq_true.2 ⟨filter, mem, AddressRange.containsAccess_of_covers covers inside⟩
  held := nofun
  reserves _ := ⟨length.symm, bridge, _, rfl, (valid.bridge bridge built).2.1⟩
  roomy := by
    have requests := (valid.bridge bridge built).1
    simp only [ResolvedConfig.bridgeSite, StageFrame.Roomy, ne_eq, Option.some.injEq]
    omega

end Placed

theorem ResolvedConfig.Valid.chained {c : ResolvedConfig} (valid : c.Valid) :
    Chained c.sites c.device.range := by
  rcases c.sites_cases with eq | eq | ⟨bridge, built, eq⟩
  · rw [eq]
    refine ⟨?_, by simp⟩
    rintro (_ | _ | id) site ⟨⟩
    · exact placed_memorySite
    · exact placed_controllerSite nofun ⟨fun _ => rfl, fun _ => rfl⟩
  · rw [eq]
    refine ⟨?_, by simp⟩
    rintro (_ | _ | _ | id) site ⟨⟩
    · exact placed_memorySite
    · exact placed_controllerSite (fun up eq => by cases eq; exact ⟨rfl, _, rfl, rfl⟩)
        ⟨nofun, nofun⟩
    · exact placed_deviceSite valid rfl rfl nofun ⟨fun _ => rfl, fun _ => rfl⟩
  · rw [eq]
    refine ⟨?_, by simp⟩
    rintro (_ | _ | _ | _ | id) site ⟨⟩
    · exact placed_memorySite
    · exact placed_controllerSite (fun up eq => by cases eq; exact ⟨rfl, _, rfl, rfl⟩)
        ⟨nofun, nofun⟩
    · exact placed_deviceSite valid rfl rfl (fun up eq => by cases eq; exact ⟨rfl, _, rfl, rfl⟩)
        ⟨nofun, nofun⟩
    · exact placed_bridgeSite valid built rfl rfl rfl

namespace Fabric

def sites (f : Fabric) : List Site := f.nodes.map Node.site

end Fabric

end Expander
