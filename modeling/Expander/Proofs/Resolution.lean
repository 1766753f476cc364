import Expander.Config

/-!
What the resolution of a configuration guarantees.

A configuration resolves only when every buffer of the front end has room for a packet, the media
have a channel and hold the whole expander range, the bridge lets all of it pass, and system memory
and expander do not overlap.
-/

set_option autoImplicit false

namespace Expander

theorem bind_eq_ok {ε α β : Type} {x : Except ε α} {f : α → Except ε β} {b : β} :
    (x >>= f) = .ok b ↔ ∃ a, x = .ok a ∧ f a = .ok b := by
  cases x with
  | error e => exact ⟨nofun, fun ⟨_, h, _⟩ => nomatch h⟩
  | ok a => exact ⟨fun h => ⟨a, rfl, h⟩, fun ⟨_, h, hf⟩ => by cases h; exact hf⟩

theorem mapError_eq_ok {ε ε' α : Type} {x : Except ε α} {f : ε → ε'} {a : α} :
    x.mapError f = .ok a ↔ x = .ok a := by
  cases x with
  | error e => exact ⟨nofun, nofun⟩
  | ok b => exact ⟨fun h => by cases h; rfl, fun h => by cases h; rfl⟩

theorem requirePositive_eq_ok {fields : List (String × Nat)} (h : requirePositive fields = .ok ()) :
    ∀ field ∈ fields, 0 < field.2 := by
  induction fields with
  | nil => exact nofun
  | cons field rest ih =>
    obtain ⟨name, value⟩ := field
    rw [requirePositive] at h
    split at h
    · cases h
    · rename_i ne
      intro field mem
      rcases List.mem_cons.1 mem with rfl | later
      · exact Nat.pos_of_ne_zero ne
      · exact ih h field later

/-- What is true of every configuration that resolves. -/
structure ResolvedConfig.Valid (c : ResolvedConfig) : Prop where
  requestSize_pos : 0 < c.device.requestSize
  responseSize_pos : 0 < c.device.responseSize
  channels_pos : 0 < c.media.geometry.channels
  /-- The media hold all of the expander range. -/
  capacity : c.device.range.size ≤ c.media.geometry.capacity
  /-- System memory and expander share no byte. -/
  disjoint : c.system.memoryRange.overlaps c.device.range = false
  /-- A bridge has room for a packet in both directions, and lets the whole expander range pass. -/
  bridge : ∀ b, c.bridge = some b → 0 < b.requestDepth ∧ 0 < b.responseDepth ∧
    ∃ filter ∈ b.ranges, filter.covers c.device.range = true

theorem BridgeConfig.resolve_eq_ok {bridge b : BridgeConfig} {expander : AddressRange}
    (h : bridge.resolve expander = .ok b) : 0 < b.requestDepth ∧ 0 < b.responseDepth ∧
      ∃ filter ∈ b.ranges, filter.covers expander = true := by
  obtain ⟨⟨⟩, positive, h⟩ := bind_eq_ok.1 h
  have pos := requirePositive_eq_ok positive
  simp only at h
  generalize (if bridge.ranges.isEmpty then [expander] else bridge.ranges) = ranges at h
  split at h
  next covered =>
    cases h
    obtain ⟨filter, mem, covers⟩ := List.any_eq_true.1 covered
    exact ⟨pos ("bridge.req_fifo_depth", _) (by simp), pos ("bridge.resp_fifo_depth", _) (by simp),
      filter, mem, covers⟩
  next => cases h

theorem requireDisjoint_head {range other : AddressRange} {owner name : String}
    {rest : List (AddressRange × String)}
    (h : requireDisjoint ((range, owner) :: (other, name) :: rest) = .ok ()) :
    range.overlaps other = false := by
  rw [requireDisjoint] at h
  split at h
  · cases h
  · rename_i none
    have first := List.find?_eq_none.1 none (other, name) List.mem_cons_self
    simpa using first

theorem Config.resolve_valid {config : Config} {c : ResolvedConfig}
    (h : config.resolve = .ok c) : c.Valid := by
  rw [Config.resolve] at h
  obtain ⟨⟨⟩, -, h⟩ := bind_eq_ok.1 h
  obtain ⟨⟨⟩, buffers, h⟩ := bind_eq_ok.1 h
  obtain ⟨⟨⟩, media, h⟩ := bind_eq_ok.1 h
  obtain ⟨controller, -, h⟩ := bind_eq_ok.1 h
  simp only at h
  split at h
  · obtain ⟨⟨⟩, impossible, -⟩ := bind_eq_ok.1 h
    cases impossible
  rename_i held
  obtain ⟨⟨⟩, disjoint, h⟩ := bind_eq_ok.1 h
  have bridged : ∃ bridge,
      (some <$> config.bridge.resolve (DeviceConfig.resolve config.device).range = .ok bridge ∨
        bridge = none) ∧
      c = { topology := config.topology, system := config.system, bridge,
            device := DeviceConfig.resolve config.device, controller,
            media := MediaConfig.resolve config.media } := by
    split at h
    · obtain ⟨bridge, resolved, h⟩ := bind_eq_ok.1 h
      cases h
      exact ⟨bridge, .inl resolved, rfl⟩
    · cases h
      exact ⟨none, .inr rfl, rfl⟩
  obtain ⟨bridge, resolved, rfl⟩ := bridged
  have sizes := requirePositive_eq_ok buffers
  obtain ⟨⟨⟩, geometry, -⟩ := bind_eq_ok.1 media
  obtain ⟨⟨⟩, parameters, -⟩ := bind_eq_ok.1 geometry
  have positive := requirePositive_eq_ok parameters
  refine ⟨sizes ("device.req_size", _) (by simp), sizes ("device.rsp_size", _) (by simp),
    positive ("channels", _) ?_, Nat.le_of_not_lt held, requireDisjoint_head disjoint, ?_⟩
  · simp [Geometry.parameters]
  · rintro b rfl
    rcases resolved with resolved | absent
    · obtain ⟨b', resolves, eq⟩ := bind_eq_ok.1 resolved
      cases eq
      exact BridgeConfig.resolve_eq_ok resolves
    · cases absent

end Expander
