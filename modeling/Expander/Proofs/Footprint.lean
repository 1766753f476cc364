import Expander.Proofs.Assembly
import Expander.Proofs.Window
import Expander.Traffic
import Mathlib.Data.Int.GCD
import Mathlib.Data.Nat.ModEq

/-!
Where generated traffic goes.

The offsets of a pattern are taken modulo a span, the greatest multiple of the access size that the
range holds. An access at a multiple of its size then ends inside of the range. But the distance of
strided accesses and the distance of two rows need not be such a multiple, and an offset that is
none can come to lie in the last place of the span, from where the access runs over the end of the
range unless the rest behind the span is wide enough (`Traffic.Fits`). An access that does is
turned away, since there is no route for it.
-/

set_option autoImplicit false

namespace Expander

/-- Every byte of the request lies in the range. -/
def HostRequest.LiesIn (r : HostRequest) (range : AddressRange) : Prop :=
  range.base ≤ r.addr ∧ r.addr + r.size ≤ range.base + range.size

instance (r : HostRequest) (range : AddressRange) : Decidable (r.LiesIn range) :=
  inferInstanceAs (Decidable (_ ∧ _))

namespace Traffic

variable {t : Traffic} {c : ResolvedConfig} {range : AddressRange} {i : Nat}

def access (t : Traffic) (c : ResolvedConfig) (i : Nat) : Access :=
  let addr := c.device.range.base + t.offset c i
  if t.pattern = .mixed ∧ i % 3 = 2 then .write addr (List.replicate t.size (UInt8.ofNat i))
  else .read addr t.size

theorem request_access (t : Traffic) (c : ResolvedConfig) (i : Nat) :
    (t.access c i).request = t.request c i := by
  rw [access, request]
  split <;> rfl

theorem addr_request (t : Traffic) (c : ResolvedConfig) (i : Nat) :
    (t.request c i).addr = c.device.range.base + t.offset c i := by
  rw [request]
  split <;> rfl

theorem size_request (t : Traffic) (c : ResolvedConfig) (i : Nat) :
    (t.request c i).size = t.size := by
  rw [request]
  split
  · exact List.length_replicate
  · rfl

theorem request_liesIn_iff : (t.request c i).LiesIn c.device.range ↔
    t.offset c i + t.size ≤ c.device.range.size := by
  rw [HostRequest.LiesIn, addr_request, size_request]
  omega

/-! ### The places of a pattern -/

/-- The accesses of a pattern never run over the end of the range. Strided offsets are the multiples
of the greatest common divisor of stride and span. The accesses to the second row lie askew when the
row distance is no multiple of their size, and they must then keep out of the last place. -/
def Fits (t : Traffic) (c : ResolvedConfig) : Prop :=
  let rest := c.device.range.size % t.size
  let places := c.device.range.size / t.size
  match t.pattern with
  | .sequential | .mixed => True
  | .stride => t.size ≤ (max t.stride t.size).gcd (t.span c.device.range) + rest
  | .rowConflict =>
    let g := c.media.geometry
    g.rowStride % t.size ≤ rest ∨ g.rowStride / t.size % places + g.columnsPerRow < places

theorem span_eq (sized : 1 ≤ t.size) (fits : t.size ≤ range.size) :
    t.span range = t.size * (range.size / t.size) := by
  have places : 1 ≤ range.size / t.size := (Nat.one_le_div_iff sized).2 fits
  have least : t.size * 1 ≤ t.size * (range.size / t.size) := Nat.mul_le_mul_left _ places
  have parts := Nat.div_add_mod range.size t.size
  rw [span, step, Nat.max_eq_left sized]
  omega

/-- An access at a distance behind the start of a place ends in the range when there is a place
behind it, or when the rest of the range is as wide as the distance. -/
theorem place_fits {size places rest ahead place : Nat} (within : ahead < size)
    (below : place < places) :
    ahead + size * place + size ≤ size * places + rest ↔ place + 1 < places ∨ ahead ≤ rest := by
  have last : size * (place + 1) ≤ size * places := Nat.mul_le_mul_left size below
  rcases Nat.lt_or_ge (place + 1) places with more | least
  · have next : size * (place + 2) ≤ size * places := Nat.mul_le_mul_left size more
    refine iff_of_true ?_ (.inl more)
    rw [Nat.mul_add] at next
    omega
  · obtain rfl : places = place + 1 := by omega
    rw [Nat.mul_add]
    omega

theorem around_iff {places first columns : Nat} (some : 0 < places) :
    (∀ column < columns, (first + column) % places + 1 < places) ↔
      first % places + columns < places := by
  have below := Nat.mod_lt first some
  have around (column : Nat) : (first + column) % places = (first % places + column) % places :=
    (Nat.mod_add_mod ..).symm
  constructor
  · intro clear
    by_contra reaches
    have last := clear (places - 1 - first % places) (by omega)
    rw [around, show first % places + (places - 1 - first % places) = places - 1 by omega,
      Nat.mod_eq_of_lt (by omega)] at last
    omega
  · intro clear column lt
    rw [around, Nat.mod_eq_of_lt (by omega)]
    omega

/-- The offsets of a stride stay below the last multiple of the greatest common divisor, and one of
them is there. -/
theorem strided_iff {stride span bound : Nat} (some : 0 < span) :
    (∀ i, i * stride % span ≤ bound) ↔ span ≤ bound + stride.gcd span := by
  have divides : stride.gcd span ∣ span := Nat.gcd_dvd_right ..
  have least : stride.gcd span ≤ span := Nat.le_of_dvd some divides
  have gcd_pos : 0 < stride.gcd span := Nat.gcd_pos_of_pos_right _ some
  constructor
  · intro bounded
    rcases Nat.eq_or_lt_of_le least with whole | part
    · omega
    · obtain ⟨m, -, eq⟩ := Nat.exists_mul_mod_eq_gcd part
      -- As many of the steps that make up one divisor as there are divisors before the last.
      have last := bounded (m * (span / stride.gcd span - 1))
      have steps : m * (span / stride.gcd span - 1) * stride % span = span - stride.gcd span := by
        calc m * (span / stride.gcd span - 1) * stride % span
            = stride * m * (span / stride.gcd span - 1) % span := by congr 1; ring
          _ = stride.gcd span * (span / stride.gcd span - 1) % span :=
            Nat.ModEq.mul_right _ (eq.trans (Nat.mod_eq_of_lt part).symm)
          _ = (span - stride.gcd span) % span := by
            rw [Nat.mul_sub_one, Nat.mul_div_cancel' divides]
          _ = span - stride.gcd span := Nat.mod_eq_of_lt (by omega)
      omega
  · intro wide i
    have below := Nat.mod_lt (i * stride) some
    obtain ⟨k, offset⟩ : stride.gcd span ∣ i * stride % span :=
      (Nat.dvd_mod_iff divides).2 (Dvd.dvd.mul_left (Nat.gcd_dvd_left ..) i)
    obtain ⟨l, length⟩ := divides
    have next : stride.gcd span * (k + 1) ≤ stride.gcd span * l := by
      refine Nat.mul_le_mul_left _ (Nat.lt_of_mul_lt_mul_left (a := stride.gcd span) ?_)
      rw [← offset, ← length]
      exact below
    rw [Nat.mul_add] at next
    omega

/-- Every access of the pattern, however many there are, ends in the range just if the pattern
fits. -/
theorem offset_fits_iff (regular : c.media.geometry.Regular) (sized : 1 ≤ t.size)
    (fits : t.size ≤ c.device.range.size) :
    (∀ i, t.offset c i + t.size ≤ c.device.range.size) ↔ t.Fits c := by
  have span := span_eq sized fits
  have parts := Nat.div_add_mod c.device.range.size t.size
  have rest_lt := Nat.mod_lt c.device.range.size sized
  have places : 0 < c.device.range.size / t.size := Nat.div_pos fits sized
  have step : t.step = t.size := Nat.max_eq_left sized
  -- An offset is a distance into a place; the span counts the places.
  have placed (ahead place : Nat) (within : ahead < t.size) :
      (ahead + place * t.size) % t.span c.device.range + t.size ≤ c.device.range.size ↔
        place % (c.device.range.size / t.size) + 1 < c.device.range.size / t.size ∨
          ahead ≤ c.device.range.size % t.size := by
    rw [span, Nat.mod_mul, Nat.add_mul_mod_self_right, Nat.mod_eq_of_lt within,
      Nat.add_mul_div_right _ _ sized, Nat.div_eq_of_lt within, Nat.zero_add]
    nth_rewrite 2 [← parts]
    exact place_fits within (Nat.mod_lt _ places)
  have aligned (place : Nat) :
      place * t.size % t.span c.device.range + t.size ≤ c.device.range.size := by
    have fit := (placed 0 place sized).2 (.inr (Nat.zero_le _))
    rwa [Nat.zero_add] at fit
  rw [Fits]
  simp only [offset, step]
  cases t.pattern with
  | sequential | mixed => exact iff_of_true aligned trivial
  | stride =>
    have some : 0 < t.span c.device.range := span ▸ Nat.mul_pos sized places
    have bound (i : Nat) :
        i * max t.stride t.size % t.span c.device.range + t.size ≤ c.device.range.size ↔
          i * max t.stride t.size % t.span c.device.range ≤ c.device.range.size - t.size := by
      omega
    simp only [bound]
    rw [strided_iff some]
    omega
  | rowConflict =>
    let g := c.media.geometry
    have askew (column : Nat) :
        (g.rowStride + column * t.size) % t.span c.device.range + t.size ≤ c.device.range.size ↔
          (g.rowStride / t.size + column) % (c.device.range.size / t.size) + 1 <
              c.device.range.size / t.size ∨
            g.rowStride % t.size ≤ c.device.range.size % t.size := by
      rw [← placed _ _ (Nat.mod_lt _ sized), Nat.add_mul, ← Nat.add_assoc,
        Nat.mod_add_div' g.rowStride t.size]
    have columns : (∀ i, (i % 2 * g.rowStride + i / 2 % g.columnsPerRow * t.size) %
          t.span c.device.range + t.size ≤ c.device.range.size) ↔
        ∀ column < g.columnsPerRow, (g.rowStride + column * t.size) % t.span c.device.range +
          t.size ≤ c.device.range.size := by
      constructor
      · intro every column lt
        have made := every (2 * column + 1)
        rwa [show (2 * column + 1) % 2 = 1 by omega, show (2 * column + 1) / 2 = column by omega,
          Nat.mod_eq_of_lt lt, Nat.one_mul] at made
      · intro every i
        rcases Nat.mod_two_eq_zero_or_one i with even | odd
        · rw [even, Nat.zero_mul, Nat.zero_add]
          exact aligned _
        · rw [odd, Nat.one_mul]
          exact every _ (Nat.mod_lt _ regular.columns)
    rw [columns]
    simp only [askew]
    rw [or_comm, ← around_iff places]
    by_cases wide : g.rowStride % t.size ≤ c.device.range.size % t.size
    · exact iff_of_true (fun _ _ => .inr wide) (.inr wide)
    · simp only [g] at wide
      simp only [g, wide, or_false]

end Traffic

/-! ### The route to the expander -/

namespace Fabric

theorem routed_attached {f f' : Fabric} {target : ComponentId} {range : AddressRange}
    (h : f.attached target [range] = .ok f') :
    ∃ route ∈ f'.interconnect.routes, route.range = range := by
  have attaches := attaches_attachToHost f target [range]
  rw [attached] at h
  generalize f.attachToHost target [range] = outcome at attaches h
  cases attaches with
  | refused | spilled => cases h
  | done n name free clear routes =>
    cases h
    exact ⟨⟨range, target, name⟩, routes.mem_iff.2 (by simp [routesTo]), rfl⟩

end Fabric

def SimError.Misroutes : SimError → Prop
  | .routing _ _ => True
  | _ => False

namespace Simulation

variable {s : Simulation} {machine : Machine} {config : Config} {r : HostRequest}

theorem routed_addFrontEnd {c : ResolvedConfig} {f f' : Fabric} {controller : ComponentId}
    (h : addFrontEnd c f controller = .ok f') :
    ∃ route ∈ f'.interconnect.routes, route.range = c.device.range := by
  rw [addFrontEnd] at h
  cases topology : c.topology with
  | controller =>
    simp only [topology] at h
    exact Fabric.routed_attached h
  | direct | bridged =>
    simp only [topology, Fabric.add] at h
    obtain ⟨linked, -, h⟩ := bind_eq_ok.1 h
    cases bridge : c.bridge with
    | none =>
      simp only [bridge] at h
      exact Fabric.routed_attached h
    | some b =>
      simp only [bridge] at h
      obtain ⟨linked', -, h⟩ := bind_eq_ok.1 h
      exact Fabric.routed_attached h

theorem routed_create (h : create machine config = .ok s) :
    ∃ route ∈ s.fabric.interconnect.routes, route.range = s.config.device.range := by
  obtain ⟨attached, fabric, -, -, fronts, eq⟩ := create_eq_ok h
  rw [eq]
  exact routed_addFrontEnd fronts

theorem misroutes_rejection :
    (∃ e, s.rejection? r = some e ∧ e.Misroutes) ↔
      s.window.check r = .ok () ∧ s.fabric.interconnect.decode? r.addr r.size = none := by
  rw [rejection?]
  cases check : s.window.check r with
  | error e =>
    rw [RequestWindow.check] at check
    split at check
    · cases check
      simp [SimError.Misroutes]
    · cases check
  | ok =>
    cases s.fabric.interconnect.decode? r.addr r.size <;> simp [SimError.Misroutes, unrouted]

end Simulation

namespace Session

variable {h : Session} {machine : Machine} {config : Config} {r : HostRequest} {access : Access}

theorem Reachable.routed (reachable : Reachable config h) :
    ∃ route ∈ h.system.fabric.interconnect.routes, route.range = h.expander := by
  refine reachable.keeps
    (P := fun h => ∃ route ∈ h.system.fabric.interconnect.routes, route.range = h.expander)
    (fun s created => Simulation.routed_create created) ?_
  rintro h h' standing routed step
  have same : h'.system.entrance = h.system.entrance := (lasts_entrance _).step standing rfl step
  have routes : h'.system.fabric.interconnect.routes = h.system.fabric.interconnect.routes :=
    congrArg Prod.snd same
  rw [routes, Session.expander, (standing.step step).config]
  exact routed

theorem Reachable.decode?_eq_none_iff (reachable : Reachable config h)
    (starts : h.expander.contains r.addr = true) :
    h.system.fabric.interconnect.decode? r.addr r.size = none ↔
      h.expander.containsAccess r.addr r.size = false := by
  have standing := reachable.standing
  rw [Interconnect.decode?, Option.map_eq_none_iff, List.find?_eq_none]
  constructor
  · intro none
    obtain ⟨route, mem, range⟩ := reachable.routed
    have untaken := none route mem
    rw [Interconnect.takes, range] at untaken
    exact Bool.eq_false_iff.2 untaken
  · intro outside route mem
    rw [Interconnect.takes]
    rcases standing.routes route mem with ⟨range, -⟩ | ⟨range, -⟩
    · rw [range]
      intro takes
      have memory : h.system.config.system.memoryRange.contains r.addr = true :=
        (Bool.and_eq_true_iff.1 takes).1
      have apart := AddressRange.not_contains_of_apart standing.valid.disjoint memory
      exact Bool.false_ne_true (apart.symm.trans starts)
    · rw [range, outside]
      exact Bool.false_ne_true

theorem Standing.misroutes_iff (standing : h.Standing) (access : Access) :
    ((∃ e, (h.system.sendRequest access.request).1 = .error e ∧ e.Misroutes) ↔
        ∃ e, h.system.rejection? access.request = some e ∧ e.Misroutes) ∧
      ((∃ e, (h.system.accessAtomic access.request).1 = .error e ∧ e.Misroutes) ↔
        ∃ e, h.system.rejection? access.request = some e ∧ e.Misroutes) := by
  constructor
  · have sent := standing.sent access
    generalize h.system.sendRequest access.request = outcome at sent
    cases sent with
    | rejected _ rejection => simp [rejection]
    | refused _ rejection | accepted _ rejection => simp [rejection]
  · have performed := standing.performed access
    generalize h.system.accessAtomic access.request = outcome at performed
    cases performed with
    | rejected _ rejection => simp [rejection]
    | performed _ rejection => simp [rejection]

end Session

namespace Traffic

variable {t : Traffic} {c : ResolvedConfig} {machine : Machine} {config : Config}

/-- Generated traffic stays in the expander range, however many requests there are, just if its
pattern fits. A request that leaves it is turned away for want of a route, unless it is too large
anyway; one that stays is not. -/
theorem contained_iff (resolved : config.resolve = .ok c) (t : Traffic) (sized : 1 ≤ t.size)
    (fits : t.size ≤ c.device.range.size) :
    (∀ count, ({ t with count } : Traffic).generate config =
        .ok (({ t with count } : Traffic).requests c)) ∧
      ((∀ count, ∀ r ∈ ({ t with count } : Traffic).requests c, r.LiesIn c.device.range) ↔
        t.Fits c) ∧
      (c.device.range.base + c.device.range.size ≤ lastAddress →
        ∀ h, Session.Reachable config h → ∀ r ∈ t.requests c,
          ((∃ e, (h.system.sendRequest r).1 = .error e ∧ e.Misroutes) ↔
            h.system.window.check r = .ok () ∧ ¬ r.LiesIn c.device.range) ∧
          ((∃ e, (h.system.accessAtomic r).1 = .error e ∧ e.Misroutes) ↔
            h.system.window.check r = .ok () ∧ ¬ r.LiesIn c.device.range)) := by
  have regular := Geometry.regular_of_validate (Config.resolve_geometry resolved)
  refine ⟨fun count => by rw [generate, resolved]; rfl, ?_, ?_⟩
  · rw [← offset_fits_iff regular sized fits]
    constructor
    · intro lies i
      have made : t.request c i ∈ ({ t with count := i + 1 } : Traffic).requests c :=
        List.mem_map.2 ⟨i, List.mem_range.2 (Nat.lt_succ_self i), rfl⟩
      exact request_liesIn_iff.1 (lies (i + 1) _ made)
    · intro inside count r mem
      obtain ⟨i, -, rfl⟩ := List.mem_map.1 mem
      exact request_liesIn_iff.2 (inside i)
  · intro addressable h reachable r mem
    obtain ⟨i, -, rfl⟩ := List.mem_map.1 mem
    have standing := reachable.standing
    have same : h.system.config = c :=
      Except.ok.inj (reachable.window.2.symm.trans resolved)
    have span_pos : 0 < t.span c.device.range :=
      Nat.lt_of_lt_of_le (Nat.lt_of_lt_of_le sized (Nat.le_max_left ..)) (Nat.le_max_right ..)
    have offset_lt : t.offset c i < t.span c.device.range := Nat.mod_lt _ span_pos
    have starts : h.expander.contains (t.request c i).addr = true := by
      have span_le : t.span c.device.range ≤ c.device.range.size := by
        rw [span_eq sized fits]
        exact Nat.mul_div_le ..
      rw [Session.expander, same, AddressRange.contains_iff, AddressRange.stop, addr_request]
      omega
    have outside : h.expander.containsAccess (t.request c i).addr (t.request c i).size = false ↔
        ¬ (t.request c i).LiesIn c.device.range := by
      rw [AddressRange.contains_iff, Session.expander, same, AddressRange.stop] at starts
      rw [← Bool.not_eq_true, AddressRange.containsAccess_iff, HostRequest.LiesIn,
        Session.expander, same, AddressRange.stop, size_request]
      omega
    have misroutes := standing.misroutes_iff (t.access c i)
    rw [request_access, Simulation.misroutes_rejection,
      reachable.decode?_eq_none_iff starts, outside] at misroutes
    exact misroutes

/-- Cache lines at distances of a page. -/
theorem contained_pages : ∃ c, Config.resolve {} = .ok c ∧ 1 ≤ 64 ∧ 64 ≤ c.device.range.size ∧
    ∀ count, ∀ r ∈ ({ pattern := .stride, count } : Traffic).requests c,
      r.LiesIn c.device.range :=
  ⟨_, rfl, by decide, by decide, (contained_iff (show Config.resolve {} = _ from rfl)
    { pattern := .stride } (by decide) (by decide)).2.1.2 (Nat.le_of_ble_eq_true rfl)⟩

/-- The second of two cache lines, half a line before the end of the range. -/
theorem not_contained_long_stride :
    let t : Traffic := { pattern := .stride, count := 2, stride := 0x7fffffe0 }
    ∃ c s, Config.resolve {} = .ok c ∧ Simulation.create .standard {} = .ok s ∧ 1 ≤ t.size ∧
      t.size ≤ c.device.range.size ∧
      c.device.range.base + c.device.range.size ≤ lastAddress ∧
      ∃ r ∈ t.requests c, ¬ r.LiesIn c.device.range ∧
        (s.sendRequest r).1 = .error (.routing 0x17fffffe0 "interconnect") :=
  ⟨_, _, rfl, rfl, by decide, by decide, by decide, .read 0x17fffffe0 64, by decide, by decide,
    by decide⟩

end Traffic

end Expander
