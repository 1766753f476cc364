import Expander.Proofs.Addressing
import Expander.Proofs.Creation
import Expander.Proofs.Fabric

/-!
Capacities that hold more bursts than there are places.

A range of the media gives its bursts places of their own exactly when it is no longer than all
rows of all banks (`separates_iff`). The capacity counts all bytes of the ranks, and the number of
rows is rounded down. So what a rank has beyond its last whole row of every bank is counted, but
shares its places with the start of the media; and an expander range may be as large as the
capacity.
-/

set_option autoImplicit false

namespace Expander

/-- Within the first `size` bytes, only bytes of one burst have the same place. -/
def AddressDecoder.Separates (d : AddressDecoder) (size : Nat) : Prop :=
  ∀ x y, x < size → y < size → d.decode x = d.decode y →
    x / d.geometry.burstSize = y / d.geometry.burstSize

namespace Geometry

variable {g : Geometry}

theorem Regular.rows_eq (regular : g.Regular) :
    g.rowsPerBank * g.rowStride = g.bursts * g.burstSize := by
  rw [regular.rowStride_eq, rowBursts, bursts]
  ring

theorem rows_le_capacity (g : Geometry) : g.rowsPerBank * g.rowStride ≤ g.capacity := by
  have rows := Nat.div_mul_le_self g.rankCapacity (g.rowBufferSize * g.banksPerRank)
  calc g.rowsPerBank * g.rowStride
      = g.rowsPerBank * (g.rowBufferSize * g.banksPerRank) * (g.ranksPerChannel * g.channels) := by
        rw [rowStride]; ring
    _ ≤ g.rankCapacity * (g.ranksPerChannel * g.channels) := Nat.mul_le_mul_right _ rows
    _ = g.capacity := by rw [capacity, channelCapacity, Nat.mul_assoc]

theorem Regular.capacity_eq_iff (regular : g.Regular) :
    g.capacity = g.rowsPerBank * g.rowStride ↔
      g.rowBufferSize * g.banksPerRank ∣ g.rankCapacity := by
  have ranks : 0 < g.ranksPerChannel * g.channels := Nat.mul_pos regular.ranks regular.channels
  have bytes : g.capacity = g.rankCapacity * (g.ranksPerChannel * g.channels) := by
    rw [capacity, channelCapacity, Nat.mul_assoc]
  have rows : g.rowsPerBank * g.rowStride = g.rankCapacity / (g.rowBufferSize * g.banksPerRank) *
      (g.rowBufferSize * g.banksPerRank) * (g.ranksPerChannel * g.channels) := by
    rw [rowStride, rowsPerBank]
    ring
  rw [bytes, rows, Nat.mul_left_inj (Nat.ne_of_gt ranks), eq_comm]
  exact ⟨Dvd.intro_left _, Nat.div_mul_cancel⟩

end Geometry

namespace AddressDecoder

variable {d : AddressDecoder}

theorem separates_iff (regular : d.geometry.Regular) {size : Nat} :
    d.Separates size ↔ size ≤ d.geometry.rowsPerBank * d.geometry.rowStride := by
  rw [regular.rows_eq]
  constructor
  · intro separates
    by_contra beyond
    rw [Nat.not_le] at beyond
    -- The first burst beyond the places has that of the very first one.
    have start : d.decode (d.geometry.bursts * d.geometry.burstSize) = d.decode 0 := by
      rw [decode_eq_iff regular, Nat.mul_div_cancel _ regular.burst, Nat.mod_self, Nat.zero_div,
        Nat.zero_mod]
    have same := separates _ _ beyond (Nat.zero_lt_of_lt beyond) start
    rw [Nat.mul_div_cancel _ regular.burst, Nat.zero_div] at same
    exact Nat.ne_of_gt regular.bursts_pos same
  · intro le x y low low' same
    have place {z : Nat} (below : z < size) :
        z / d.geometry.burstSize < d.geometry.bursts :=
      (Nat.div_lt_iff_lt_mul regular.burst).2 (Nat.lt_of_lt_of_le below le)
    have rounds := (decode_eq_iff regular).1 same
    rwa [Nat.mod_eq_of_lt (place low), Nat.mod_eq_of_lt (place low')] at rounds

end AddressDecoder

theorem Config.resolve_geometry {config : Config} {c : ResolvedConfig}
    (resolved : config.resolve = .ok c) : c.media.geometry.validate = .ok () := by
  rw [Config.resolve] at resolved
  obtain ⟨⟨⟩, -, resolved⟩ := bind_eq_ok.1 resolved
  obtain ⟨⟨⟩, -, resolved⟩ := bind_eq_ok.1 resolved
  obtain ⟨⟨⟩, media, resolved⟩ := bind_eq_ok.1 resolved
  obtain ⟨controller, -, resolved⟩ := bind_eq_ok.1 resolved
  simp only at resolved
  split at resolved
  · obtain ⟨⟨⟩, impossible, -⟩ := bind_eq_ok.1 resolved
    cases impossible
  obtain ⟨⟨⟩, -, resolved⟩ := bind_eq_ok.1 resolved
  obtain ⟨⟨⟩, geometry, -⟩ := bind_eq_ok.1 media
  split at resolved
  · obtain ⟨bridge, -, resolved⟩ := bind_eq_ok.1 resolved
    cases resolved
    exact geometry
  · cases resolved
    exact geometry

namespace Simulation

variable {s : Simulation}

theorem Fresh.controller (fresh : s.Fresh) : ∃ id c, s.fabric.stage? id = some (.controller c) ∧
    c.range = s.config.device.range ∧ c.decoder.geometry = s.config.media.geometry := by
  have found : s.fabric.stage? 1 =
      some (s.config.controllerStage (.blank s.config.device.range.size)) := by
    rw [Fabric.stage?_eq_some, fresh.nodes, ResolvedConfig.nodes]
    cases s.config.topology <;> cases s.config.bridge <;> exact ⟨_, rfl, rfl⟩
  exact ⟨1, _, found, rfl, rfl⟩

end Simulation

/-- The capacity of accepted media has a place for every burst exactly when a rank is a whole number
of rows of all its banks; and a created system has one for every burst of the expander range exactly
when these rows hold the range. -/
theorem separates_iff_whole_rows (mapping : AddressMapping) :
    (∀ g : Geometry, g.validate = .ok () →
      (AddressDecoder.Separates ⟨g, mapping⟩ g.capacity ↔
        g.capacity = g.rowsPerBank * g.rowStride) ∧
      (g.capacity = g.rowsPerBank * g.rowStride ↔
        g.rowBufferSize * g.banksPerRank ∣ g.rankCapacity)) ∧
    ∀ machine config s, Simulation.create machine config = .ok s →
      ∃ id c, s.fabric.stage? id = some (.controller c) ∧ c.range = s.config.device.range ∧
        c.decoder.geometry = s.config.media.geometry ∧
        (c.decoder.Separates c.range.size ↔
          c.range.size ≤ c.decoder.geometry.rowsPerBank * c.decoder.geometry.rowStride) := by
  constructor
  · intro g valid
    have regular := Geometry.regular_of_validate valid
    refine ⟨?_, regular.capacity_eq_iff⟩
    rw [AddressDecoder.separates_iff regular]
    exact ⟨fun le => Nat.le_antisymm le g.rows_le_capacity, Nat.le_of_eq⟩
  · intro machine config s created
    obtain ⟨id, c, found, range, geometry⟩ := (Simulation.fresh_create created).controller
    have valid := Config.resolve_geometry (Simulation.resolve_of_create created)
    rw [← geometry] at valid
    exact ⟨id, c, found, range, geometry,
      AddressDecoder.separates_iff (Geometry.regular_of_validate valid)⟩

/-- The default media have places for all of their bursts, and so has the default system. -/
theorem separates_default : ddr4Geometry.validate = .ok () ∧
    AddressDecoder.Separates ⟨ddr4Geometry, .roRaBaCoCh⟩ ddr4Geometry.capacity ∧
    ∃ s, Simulation.create .standard {} = .ok s ∧
      ∃ id c, s.fabric.stage? id = some (.controller c) ∧ c.decoder.Separates c.range.size := by
  obtain ⟨s, created⟩ : ∃ s, Simulation.create .standard {} = .ok s := ⟨_, rfl⟩
  have resolved : Config.resolve {} = .ok _ := rfl
  have config := resolved.symm.trans (Simulation.resolve_of_create created)
  obtain ⟨media, system⟩ := separates_iff_whole_rows .roRaBaCoCh
  obtain ⟨id, c, found, range, geometry, separates⟩ := system .standard {} s created
  refine ⟨rfl, ((media ddr4Geometry rfl).1).2 (by decide), s,
    created, id, c, found, separates.2 ?_⟩
  rw [range, geometry, ← Except.ok.inj config]
  decide

def twelveBanks : Config where
  media := { geometry := { banksPerRank := some 12 } }
  device := { size := 32 * gibibyte }

/-- A rank is no whole number of rows of twelve banks: what is left over has the places of the first
bursts. -/
theorem not_separates_twelve_banks : ∃ s, Simulation.create .standard twelveBanks = .ok s ∧
    s.config.media.geometry.validate = .ok () ∧
    s.config.device.range.size = s.config.media.geometry.capacity ∧
    34359607296 < s.config.media.geometry.capacity ∧
    (∀ mapping, AddressDecoder.decode ⟨s.config.media.geometry, mapping⟩ 34359607296 =
        AddressDecoder.decode ⟨s.config.media.geometry, mapping⟩ 0 ∧
      ¬ AddressDecoder.Separates ⟨s.config.media.geometry, mapping⟩
        s.config.media.geometry.capacity) ∧
    ∃ id c, s.fabric.stage? id = some (.controller c) ∧ c.range = s.config.device.range ∧
      ¬ c.decoder.Separates c.range.size := by
  obtain ⟨s, created⟩ : ∃ s, Simulation.create .standard twelveBanks = .ok s := ⟨_, rfl⟩
  have resolved := Simulation.resolve_of_create created
  have valid := Config.resolve_geometry resolved
  have regular := Geometry.regular_of_validate valid
  have config : Config.resolve twelveBanks = .ok _ := rfl
  have same := Except.ok.inj (config.symm.trans resolved)
  have size : s.config.device.range.size = s.config.media.geometry.capacity := by
    rw [← same]
    decide
  have beyond : ¬ s.config.media.geometry.capacity ≤
      s.config.media.geometry.rowsPerBank * s.config.media.geometry.rowStride := by
    rw [← same]
    decide
  have below : 34359607296 < s.config.media.geometry.capacity := by
    rw [← same]
    decide
  obtain ⟨id, c, found, range, geometry⟩ := (Simulation.fresh_create created).controller
  refine ⟨s, created, valid, size, below, fun mapping => ⟨?_, ?_⟩, id, c, found, range, ?_⟩
  · rw [← same]
    cases mapping <;> rfl
  · rwa [AddressDecoder.separates_iff regular]
  · rw [AddressDecoder.separates_iff (geometry ▸ regular), range, geometry, size]
    exact beyond

end Expander
