import Mathlib.Algebra.BigOperators.Group.List.Basic
import Mathlib.Data.Set.Function
import Mathlib.Order.Interval.Set.Defs
import Mathlib.Tactic.Ring
import Expander.AddressDecoder
import Expander.Media.Profile
import Expander.Proofs.Resolution

/-!
Places as numbers in mixed radix.

The parts of a place are the digits of the number of its burst, the row last, and the extents of the
media are their radices. So a decoder gives every burst of the first round of rows a place of its
own, and gives out all places there are; the next round starts over. The digits below the row make
up one row of all banks, which is the distance of consecutive rows.

Offsets are words of 64 bits. A geometry that is accepted may have more bytes than that, and then
the last of its rows have no offset (`enumerates_of_validate`).
-/

set_option autoImplicit false

namespace Expander

namespace MixedRadix

def digits : List Nat → Nat → List Nat
  | [], _ => []
  | radix :: radices, n => n % radix :: digits radices (n / radix)

def number : List Nat → List Nat → Nat
  | radix :: radices, digit :: rest => digit + radix * number radices rest
  | _, _ => 0

abbrev Within (ds radices : List Nat) : Prop := List.Forall₂ (· < ·) ds radices

variable {radices ds : List Nat}

theorem within_digits (positive : ∀ radix ∈ radices, 0 < radix) (n : Nat) :
    Within (digits radices n) radices := by
  induction radices generalizing n with
  | nil => exact .nil
  | cons radix radices ih =>
    rw [List.forall_mem_cons] at positive
    exact .cons (Nat.mod_lt n positive.1) (ih positive.2 _)

theorem number_digits (radices : List Nat) (n : Nat) :
    number radices (digits radices n) = n % radices.prod := by
  induction radices generalizing n with
  | nil => exact (Nat.mod_one n).symm
  | cons radix radices ih => rw [digits, number, ih, List.prod_cons, Nat.mod_mul]

theorem digits_number (within : Within ds radices) : digits radices (number radices ds) = ds := by
  induction within with
  | nil => rfl
  | @cons digit radix rest radices lt _ ih =>
    rw [number, digits, Nat.add_mul_mod_self_left, Nat.mod_eq_of_lt lt,
      Nat.add_mul_div_left _ _ (Nat.zero_lt_of_lt lt), Nat.div_eq_of_lt lt, Nat.zero_add, ih]

theorem number_lt (within : Within ds radices) : number radices ds < radices.prod := by
  induction within with
  | nil => exact Nat.one_pos
  | @cons digit radix rest radices lt _ ih =>
    rw [number, List.prod_cons]
    calc digit + radix * number radices rest
        < radix + radix * number radices rest := Nat.add_lt_add_right lt _
      _ = radix * (number radices rest + 1) := by rw [Nat.mul_succ, Nat.add_comm]
      _ ≤ radix * radices.prod := Nat.mul_le_mul_left _ ih

theorem digits_eq_iff (positive : ∀ radix ∈ radices, 0 < radix) {m n : Nat} :
    digits radices m = digits radices n ↔ m % radices.prod = n % radices.prod := by
  have reduce (k : Nat) : digits radices (k % radices.prod) = digits radices k := by
    rw [← number_digits, digits_number (within_digits positive k)]
  constructor
  · intro same
    rw [← number_digits, same, number_digits]
  · intro same
    rw [← reduce m, same, reduce]

theorem digits_append (low high : List Nat) (n : Nat) :
    digits (low ++ high) n = digits low n ++ digits high (n / low.prod) := by
  induction low generalizing n with
  | nil => rw [List.prod_nil, Nat.div_one]; rfl
  | cons radix low ih =>
    rw [List.cons_append, digits, ih, digits, List.prod_cons, Nat.div_div_eq_div_mul]
    rfl

end MixedRadix

open MixedRadix

namespace Coordinate

def minor (c : Coordinate) : AddressMapping → List Nat
  | .roRaBaCoCh => [c.channel, c.column, c.bank, c.rank]
  | .roRaBaChCo => [c.column, c.channel, c.bank, c.rank]
  | .roCoRaBaCh => [c.channel, c.bank, c.rank, c.column]

def parts (c : Coordinate) (mapping : AddressMapping) : List Nat := c.minor mapping ++ [c.row]

theorem parts_injective (mapping : AddressMapping) {c c' : Coordinate}
    (same : c.parts mapping = c'.parts mapping) : c = c' := by
  obtain ⟨channel, rank, bank, row, column⟩ := c
  obtain ⟨channel', rank', bank', row', column'⟩ := c'
  rw [mk.injEq]
  cases mapping <;>
    simp only [parts, minor, List.cons_append, List.nil_append, List.cons.injEq,
      and_true] at same <;>
    tauto

end Coordinate

namespace Geometry

def extent (g : Geometry) : Coordinate where
  channel := g.channels
  rank := g.ranksPerChannel
  bank := g.banksPerRank
  row := g.rowsPerBank
  column := g.columnsPerRow

/-- The places that the media have. -/
def places (g : Geometry) : Set Coordinate :=
  {c | c.channel < g.channels ∧ c.rank < g.ranksPerChannel ∧ c.bank < g.banksPerRank ∧
    c.row < g.rowsPerBank ∧ c.column < g.columnsPerRow}

/-- The number of places. -/
def bursts (g : Geometry) : Nat :=
  g.channels * g.ranksPerChannel * g.banksPerRank * g.rowsPerBank * g.columnsPerRow

def rowBursts (g : Geometry) : Nat :=
  g.channels * g.ranksPerChannel * g.banksPerRank * g.columnsPerRow

variable {g : Geometry}

theorem mem_places_iff (mapping : AddressMapping) {c : Coordinate} :
    c ∈ g.places ↔ Within (c.parts mapping) (g.extent.parts mapping) := by
  cases mapping <;>
    simp only [places, Set.mem_ofPred_eq, Coordinate.parts, Coordinate.minor, extent,
      List.cons_append, List.nil_append, Within, List.forall₂_cons, List.forall₂_nil_left_iff,
      and_true] <;>
    tauto

theorem prod_minor_extent (g : Geometry) (mapping : AddressMapping) :
    (g.extent.minor mapping).prod = g.rowBursts := by
  cases mapping <;>
    simp only [Coordinate.minor, extent, List.prod_cons, List.prod_nil, rowBursts] <;> ring

theorem prod_extent (g : Geometry) (mapping : AddressMapping) :
    (g.extent.parts mapping).prod = g.bursts := by
  rw [Coordinate.parts, List.prod_append, prod_minor_extent, List.prod_singleton, rowBursts, bursts,
    extent]
  ring

/-- What is true of every geometry that is accepted. -/
structure Regular (g : Geometry) : Prop where
  burst : 0 < g.burstSize
  /-- A row is a whole number of bursts. -/
  row : g.columnsPerRow * g.burstSize = g.rowBufferSize
  channels : 0 < g.channels
  ranks : 0 < g.ranksPerChannel
  banks : 0 < g.banksPerRank
  rows : 0 < g.rowsPerBank
  columns : 0 < g.columnsPerRow

theorem fault?_eq_none (fits : g.fault? = none) :
    8 ∣ g.burstBits ∧ g.burstSize ∣ g.rowBufferSize ∧ 0 < g.rowsPerBank := by
  rw [fault?] at fits
  split at fits
  · cases fits
  next whole =>
    split at fits
    · cases fits
    next even =>
      split at fits
      · cases fits
      next =>
        split at fits
        · cases fits
        next rows =>
          exact ⟨Nat.dvd_of_mod_eq_zero (not_not.1 whole), Nat.dvd_of_mod_eq_zero (not_not.1 even),
            Nat.pos_of_ne_zero rows⟩

theorem regular_of_validate (valid : g.validate = .ok ()) : g.Regular := by
  obtain ⟨⟨⟩, parameters, fits⟩ := bind_eq_ok.1 valid
  have positive := requirePositive_eq_ok parameters
  simp only [Geometry.parameters, List.forall_mem_cons, List.not_mem_nil, false_implies,
    implies_true, and_true] at positive
  obtain ⟨-, width, beats, buffer, devices, ranks, banks, -, channels⟩ := positive
  have none : g.fault? = none := by
    cases fault : g.fault? with
    | none => rfl
    | some _ => simp [fault] at fits
  obtain ⟨whole, even, rows⟩ := fault?_eq_none none
  have bits : 0 < g.burstBits := Nat.mul_pos (Nat.mul_pos width devices) beats
  have burst : 0 < g.burstSize := Nat.div_pos (Nat.le_of_dvd bits whole) (by decide)
  have bytes : 0 < g.rowBufferSize := Nat.mul_pos buffer devices
  exact ⟨burst, Nat.div_mul_cancel even, channels, ranks, banks, rows,
    Nat.div_pos (Nat.le_of_dvd bytes even) burst⟩

theorem Regular.extent_pos (regular : g.Regular) (mapping : AddressMapping) :
    ∀ radix ∈ g.extent.parts mapping, 0 < radix := by
  obtain ⟨-, -, channels, ranks, banks, rows, columns⟩ := regular
  cases mapping <;>
    simp [Coordinate.parts, Coordinate.minor, extent, channels, ranks, banks, rows, columns]

theorem Regular.rowBursts_pos (regular : g.Regular) : 0 < g.rowBursts :=
  Nat.mul_pos (Nat.mul_pos (Nat.mul_pos regular.channels regular.ranks) regular.banks)
    regular.columns

theorem Regular.bursts_pos (regular : g.Regular) : 0 < g.bursts :=
  Nat.mul_pos (Nat.mul_pos (Nat.mul_pos (Nat.mul_pos regular.channels regular.ranks) regular.banks)
    regular.rows) regular.columns

theorem Regular.rowStride_eq (regular : g.Regular) : g.rowStride = g.rowBursts * g.burstSize := by
  rw [rowStride, ← regular.row, rowBursts]
  ring

end Geometry

namespace AddressDecoder

variable {d : AddressDecoder}

theorem parts_decode (d : AddressDecoder) (offset : Nat) : (d.decode offset).parts d.mapping =
    digits (d.geometry.extent.parts d.mapping) (offset / d.geometry.burstSize) := by
  rw [decode]
  cases d.mapping <;> rfl

theorem decode_eq_iff (regular : d.geometry.Regular) {x y : Nat} : d.decode x = d.decode y ↔
    x / d.geometry.burstSize % d.geometry.bursts =
      y / d.geometry.burstSize % d.geometry.bursts := by
  have apart : d.decode x = d.decode y ↔
      (d.decode x).parts d.mapping = (d.decode y).parts d.mapping :=
    ⟨fun same => by rw [same], Coordinate.parts_injective d.mapping⟩
  rw [apart, parts_decode, parts_decode, digits_eq_iff (regular.extent_pos _),
    Geometry.prod_extent]

theorem decode_mem_places (regular : d.geometry.Regular) (offset : Nat) :
    d.decode offset ∈ d.geometry.places := by
  rw [Geometry.mem_places_iff d.mapping, parts_decode]
  exact within_digits (regular.extent_pos _) _

theorem exists_decode (regular : d.geometry.Regular) {c : Coordinate}
    (mem : c ∈ d.geometry.places) :
    ∃ burst < d.geometry.bursts, d.decode (burst * d.geometry.burstSize) = c := by
  rw [Geometry.mem_places_iff d.mapping] at mem
  refine ⟨_, Geometry.prod_extent _ d.mapping ▸ number_lt mem,
    Coordinate.parts_injective d.mapping ?_⟩
  rw [parts_decode, Nat.mul_div_cancel _ regular.burst, digits_number mem]

theorem decode_add_rowStride (regular : d.geometry.Regular) (offset : Nat) :
    d.decode (offset + d.geometry.rowStride) = { d.decode offset with
      row := ((d.decode offset).row + 1) % d.geometry.rowsPerBank } := by
  have split (x : Nat) : (d.decode x).minor d.mapping ++ [(d.decode x).row] =
      digits (d.geometry.extent.minor d.mapping) (x / d.geometry.burstSize) ++
        [x / d.geometry.burstSize / d.geometry.rowBursts % d.geometry.rowsPerBank] := by
    rw [← Coordinate.parts, parts_decode, Coordinate.parts, digits_append,
      Geometry.prod_minor_extent]
    rfl
  obtain ⟨minor, row⟩ := List.append_inj' (split offset) rfl
  rw [List.singleton_inj] at row
  have low : ∀ radix ∈ d.geometry.extent.minor d.mapping, 0 < radix := fun radix mem =>
    regular.extent_pos d.mapping radix (List.mem_append_left _ mem)
  have whole : 0 < d.geometry.rowBursts := regular.rowBursts_pos
  -- The parts below the row are the same, and the next digit goes up by one.
  refine Coordinate.parts_injective d.mapping ?_
  have kept : ({ d.decode offset with
      row := ((d.decode offset).row + 1) % d.geometry.rowsPerBank } : Coordinate).minor d.mapping =
        (d.decode offset).minor d.mapping := by
    cases d.mapping <;> rfl
  have next : (offset + d.geometry.rowStride) / d.geometry.burstSize =
      offset / d.geometry.burstSize + d.geometry.rowBursts := by
    rw [regular.rowStride_eq, Nat.add_mul_div_right _ _ regular.burst]
  rw [Coordinate.parts, Coordinate.parts, split, kept, minor, row, next,
    Nat.add_div_right _ whole, Nat.mod_add_mod]
  congr 1
  rw [digits_eq_iff low, Geometry.prod_minor_extent, Nat.add_mod_right]

/-- The decoder counts through the places of the media as far as offsets are words, and starts over
when it has been through all of them. -/
structure Enumerates (d : AddressDecoder) : Prop where
  /-- The bytes of a burst have the same place. -/
  burst : ∀ x ≤ lastAddress, ∀ y ≤ lastAddress,
    x / d.geometry.burstSize = y / d.geometry.burstSize → d.decode x = d.decode y
  within : ∀ offset ≤ lastAddress, d.decode offset ∈ d.geometry.places
  /-- The first bursts have places of their own. -/
  injOn : Set.InjOn (fun burst => d.decode (burst * d.geometry.burstSize))
    {burst | burst < d.geometry.bursts ∧ burst * d.geometry.burstSize ≤ lastAddress}
  /-- They have all the places if the last of them has an offset. -/
  bijOn : (d.geometry.bursts - 1) * d.geometry.burstSize ≤ lastAddress →
    Set.BijOn (fun burst => d.decode (burst * d.geometry.burstSize))
      (Set.Iio d.geometry.bursts) d.geometry.places
  /-- If it has none, there is a place that no offset has. -/
  reached : (∀ c ∈ d.geometry.places, ∃ offset ≤ lastAddress, d.decode offset = c) →
    (d.geometry.bursts - 1) * d.geometry.burstSize ≤ lastAddress
  wraps : ∀ offset, offset + d.geometry.bursts * d.geometry.burstSize ≤ lastAddress →
    d.decode (offset + d.geometry.bursts * d.geometry.burstSize) = d.decode offset
  nextRow : ∀ offset, offset + d.geometry.rowStride ≤ lastAddress →
    d.decode (offset + d.geometry.rowStride) = { d.decode offset with
      row := ((d.decode offset).row + 1) % d.geometry.rowsPerBank }

theorem le_of_decode_eq (regular : d.geometry.Regular) {burst offset : Nat}
    (low : burst < d.geometry.bursts)
    (same : d.decode offset = d.decode (burst * d.geometry.burstSize)) :
    burst * d.geometry.burstSize ≤ offset := by
  have rounds := (decode_eq_iff regular).1 same
  rw [Nat.mul_div_cancel _ regular.burst, Nat.mod_eq_of_lt low] at rounds
  calc burst * d.geometry.burstSize
      ≤ offset / d.geometry.burstSize * d.geometry.burstSize :=
        Nat.mul_le_mul_right _ (rounds ▸ Nat.mod_le _ _)
    _ ≤ offset := Nat.div_mul_le_self _ _

theorem injOn_decode (regular : d.geometry.Regular) :
    Set.InjOn (fun burst => d.decode (burst * d.geometry.burstSize))
      (Set.Iio d.geometry.bursts) := by
  intro x low y low' same
  have rounds := (decode_eq_iff regular).1 same
  rwa [Nat.mul_div_cancel _ regular.burst, Nat.mul_div_cancel _ regular.burst,
    Nat.mod_eq_of_lt low, Nat.mod_eq_of_lt low'] at rounds

/-- With a geometry that is accepted, a decoder counts through the places of the media in each of
its orders. -/
theorem enumerates_of_validate (mapping : AddressMapping) {g : Geometry}
    (valid : g.validate = .ok ()) : Enumerates ⟨g, mapping⟩ := by
  have regular := Geometry.regular_of_validate valid
  have last : g.bursts - 1 < g.bursts := Nat.sub_one_lt_of_lt regular.bursts_pos
  refine ⟨fun x _ y _ same => ?_, fun offset _ => decode_mem_places regular offset, ?_,
    fun _ => ⟨fun burst _ => decode_mem_places regular _, injOn_decode regular,
      fun c mem => exists_decode regular mem⟩, fun all => ?_, fun offset _ => ?_,
    fun offset _ => decode_add_rowStride regular offset⟩
  · rw [decode_eq_iff regular, same]
  · exact (injOn_decode (d := ⟨g, mapping⟩) regular).mono fun burst mem => mem.1
  · obtain ⟨offset, word, same⟩ := all _ (decode_mem_places regular ((g.bursts - 1) * g.burstSize))
    exact (le_of_decode_eq regular last same).trans word
  · rw [decode_eq_iff regular, Nat.add_mul_div_right _ _ regular.burst, Nat.add_mod_right]

def oddGeometry : Geometry where
  deviceSize := 1920
  deviceBusWidth := 8
  burstLength := 4
  deviceRowBuffer := 20
  devicesPerRank := 3
  ranksPerChannel := 1
  banksPerRank := 12
  bankGroupsPerRank := 3
  channels := 3

/-- No extent of these media is a power of two but that of the ranks, of which there is one. -/
theorem enumerates_oddGeometry : oddGeometry.validate = .ok () ∧
    oddGeometry.extent = ⟨3, 1, 12, 8, 5⟩ ∧ oddGeometry.bursts = 1440 ∧
    Enumerates ⟨oddGeometry, .roCoRaBaCh⟩ :=
  ⟨rfl, rfl, rfl, enumerates_of_validate _ rfl⟩

def manyRanks : Geometry := { ddr4Geometry with ranksPerChannel := 2 ^ 40 }

/-- The geometry is accepted, and its rows from number 128 on have no offset. -/
theorem not_onto_manyRanks : manyRanks.validate = .ok () ∧
    (⟨0, 0, 0, 128, 0⟩ : Coordinate) ∈ manyRanks.places ∧
    ∀ mapping, ∀ offset ≤ lastAddress,
      (AddressDecoder.mk manyRanks mapping).decode offset ≠ ⟨0, 0, 0, 128, 0⟩ := by
  have valid : manyRanks.validate = .ok () := rfl
  have first : 2 ^ 58 < manyRanks.bursts := by decide
  refine ⟨valid, ?_, fun mapping offset word same => ?_⟩
  · rw [Geometry.places, Set.mem_ofPred_eq]
    decide
  · have start : (AddressDecoder.mk manyRanks mapping).decode (2 ^ 58 * manyRanks.burstSize) =
        ⟨0, 0, 0, 128, 0⟩ := by
      cases mapping <;> rfl
    have late : 2 ^ 58 * manyRanks.burstSize ≤ offset :=
      le_of_decode_eq (d := ⟨manyRanks, mapping⟩) (Geometry.regular_of_validate valid) first
        (same.trans start.symm)
    exact absurd (late.trans word) (by decide)

end AddressDecoder

end Expander
