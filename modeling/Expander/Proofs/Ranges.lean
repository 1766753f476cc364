import Expander.AddressRange

/-!
What ranges tell about single bytes.

The tests of ranges look at bounds alone, and that needs care at the end of the address space. A
range stops at the last address and so never holds it; a range that starts there holds nothing
although it has a size. Still the tests tell what a look at every byte would tell: an access lies in
a range when each of its bytes does (`containsAccess_iff_forall`), and two ranges overlap when they
have a byte in common (`overlaps_iff_exists`).

The bounds, addresses and lengths of a machine are 64-bit words. The tests can be computed on those,
with a sum that is capped for the stop of a range, and one that may fail for the end of an access
(`WordRange.Computes`).
-/

set_option autoImplicit false

namespace Expander

namespace AddressRange

variable {r s : AddressRange} {addr len byte : Nat}

/-! ### The bounds of a range -/

theorem stop_le_lastAddress : r.stop ≤ lastAddress := Nat.min_le_right ..

theorem stop_le_add : r.stop ≤ r.base + r.size := Nat.min_le_left ..

theorem contains_iff_lt_add : r.contains byte = true ↔
    r.base ≤ byte ∧ byte < r.base + r.size ∧ byte < lastAddress := by
  rw [contains_iff, stop, Nat.lt_min]

theorem lt_lastAddress (held : r.contains byte = true) : byte < lastAddress :=
  (contains_iff_lt_add.1 held).2.2

theorem size_ne_zero (held : r.contains byte = true) : r.size ≠ 0 := by
  obtain ⟨low, high, -⟩ := contains_iff_lt_add.1 held
  omega

theorem contains_base (size : r.size ≠ 0) (low : r.base < lastAddress) :
    r.contains r.base = true :=
  contains_iff_lt_add.2 ⟨Nat.le_refl _, Nat.lt_add_of_pos_right (Nat.pos_of_ne_zero size), low⟩

/-! ### The bytes of an access -/

def touched (addr len : Nat) : List Nat := List.range' addr (max len 1)

theorem mem_touched : byte ∈ touched addr len ↔ addr ≤ byte ∧ byte < addr + max len 1 :=
  List.mem_range'_1

theorem containsAccess_iff_forall : r.containsAccess addr len = true ↔
    ∀ byte ∈ touched addr len, byte ≤ lastAddress ∧ r.contains byte = true := by
  constructor
  · intro inside byte mem
    obtain ⟨low, -, high⟩ := containsAccess_iff.1 inside
    obtain ⟨start, before⟩ := mem_touched.1 mem
    have held : r.contains byte = true :=
      contains_iff.2 ⟨Nat.le_trans low start, Nat.lt_of_lt_of_le before high⟩
    exact ⟨Nat.le_of_lt (lt_lastAddress held), held⟩
  · intro each
    -- The first and the last byte are enough, as a range has no gaps.
    have one : 1 ≤ max len 1 := Nat.le_max_right ..
    have first := contains_iff.1 (each addr (mem_touched.2 (by omega))).2
    have last := contains_iff.1 (each (addr + max len 1 - 1) (mem_touched.2 (by omega))).2
    exact containsAccess_iff.2 ⟨first.1, first.2, by omega⟩

theorem contains_of_containsAccess (inside : r.containsAccess addr len = true) :
    r.contains addr = true := by
  obtain ⟨low, high, -⟩ := containsAccess_iff.1 inside
  exact contains_iff.2 ⟨low, high⟩

theorem containsAccess_one : r.containsAccess addr 1 = r.contains addr := by
  rw [Bool.eq_iff_iff, containsAccess_iff, contains_iff]
  omega

theorem base_le (inside : r.containsAccess addr len = true) : r.base ≤ addr :=
  (containsAccess_iff.1 inside).1

theorem offsetOf_add_le (inside : r.containsAccess addr len = true) :
    r.offsetOf addr + len ≤ r.size := by
  obtain ⟨low, -, high⟩ := containsAccess_iff.1 inside
  have stop : r.stop ≤ r.base + r.size := stop_le_add
  rw [offsetOf]
  omega

/-! ### Ranges with a byte in common -/

theorem overlaps_iff_exists : r.overlaps s = true ↔
    ∃ byte ≤ lastAddress, r.contains byte = true ∧ s.contains byte = true := by
  constructor
  · intro overlap
    obtain ⟨size, size', low, low'⟩ := overlaps_iff.1 overlap
    -- Either base lies before the stop of the other range, and so before the last address.
    have first := contains_base size (Nat.lt_of_lt_of_le low stop_le_lastAddress)
    have first' := contains_base size' (Nat.lt_of_lt_of_le low' stop_le_lastAddress)
    rcases Nat.le_total r.base s.base with before | behind
    · exact ⟨s.base, Nat.le_of_lt (lt_lastAddress first'), contains_iff.2 ⟨before, low'⟩, first'⟩
    · exact ⟨r.base, Nat.le_of_lt (lt_lastAddress first), first, contains_iff.2 ⟨behind, low⟩⟩
  · rintro ⟨byte, -, held, held'⟩
    obtain ⟨low, high⟩ := contains_iff.1 held
    obtain ⟨low', high'⟩ := contains_iff.1 held'
    exact overlaps_iff.2 ⟨size_ne_zero held, size_ne_zero held', Nat.lt_of_le_of_lt low high',
      Nat.lt_of_le_of_lt low' high⟩

theorem overlaps_comm (r s : AddressRange) : r.overlaps s = s.overlaps r := by
  rw [Bool.eq_iff_iff, overlaps_iff_exists, overlaps_iff_exists]
  simp only [and_comm]

theorem not_contains_of_apart (apart : r.overlaps s = false) (inside : r.contains addr = true) :
    s.contains addr = false := by
  refine Bool.eq_false_iff.2 fun both => Bool.eq_false_iff.1 apart ?_
  exact overlaps_iff_exists.2 ⟨addr, Nat.le_of_lt (lt_lastAddress inside), inside, both⟩

theorem not_containsAccess_of_apart (apart : r.overlaps s = false)
    (inside : r.contains addr = true) : s.containsAccess addr len = false := by
  refine Bool.eq_false_iff.2 fun both => ?_
  have outside := not_contains_of_apart apart inside
  exact Bool.false_ne_true (outside.symm.trans (contains_of_containsAccess both))

/-- The tests of two ranges tell what a look at every byte tells. -/
structure Bytewise (r s : AddressRange) : Prop where
  byte : ∀ byte, r.contains byte = true ↔
    r.base ≤ byte ∧ byte < r.base + r.size ∧ byte < lastAddress
  access : ∀ addr len, r.containsAccess addr len = true ↔
    ∀ byte ∈ touched addr len, byte ≤ lastAddress ∧ r.contains byte = true
  overlap : r.overlaps s = true ↔
    ∃ byte ≤ lastAddress, r.contains byte = true ∧ s.contains byte = true
  comm : r.overlaps s = s.overlaps r
  exclusive : r.overlaps s = false → ∀ addr len,
    ¬ (r.containsAccess addr len = true ∧ s.containsAccess addr len = true)
  offset : ∀ addr len, r.containsAccess addr len = true →
    r.base ≤ addr ∧ r.offsetOf addr + len ≤ r.size

end AddressRange

/-! ### Words -/

namespace Word

def cappedSum (a b : UInt64) : UInt64 := if a ≤ a + b then a + b else UInt64.ofNat lastAddress

def sum? (a b : UInt64) : Option UInt64 := if a ≤ a + b then some (a + b) else none

def difference? (a b : UInt64) : Option UInt64 := if b ≤ a then some (a - b) else none

variable {a b c : UInt64}

theorem toNat_le_lastAddress (a : UInt64) : a.toNat ≤ lastAddress := Nat.le_of_lt_succ a.toNat_lt

theorem le_add_iff : a ≤ a + b ↔ a.toNat + b.toNat ≤ lastAddress := by
  have room := toNat_le_lastAddress a
  have room' := toNat_le_lastAddress b
  rw [UInt64.le_iff_toNat_le, UInt64.toNat_add]
  rw [lastAddress] at room room' ⊢
  omega

theorem toNat_add_of_le (fits : a.toNat + b.toNat ≤ lastAddress) :
    (a + b).toNat = a.toNat + b.toNat := by
  rw [UInt64.toNat_add]
  exact Nat.mod_eq_of_lt (Nat.lt_succ_of_le fits)

theorem toNat_cappedSum (a b : UInt64) :
    (cappedSum a b).toNat = min (a.toNat + b.toNat) lastAddress := by
  rw [cappedSum]
  split
  next fits =>
    rw [le_add_iff] at fits
    rw [toNat_add_of_le fits, Nat.min_eq_left fits]
  next wraps =>
    rw [le_add_iff, Nat.not_le] at wraps
    rw [Nat.min_eq_right (Nat.le_of_lt wraps)]
    rfl

theorem sum?_eq_some_iff : sum? a b = some c ↔ c.toNat = a.toNat + b.toNat := by
  have room := toNat_le_lastAddress c
  rw [sum?]
  split
  next fits =>
    rw [le_add_iff] at fits
    rw [Option.some_inj, ← UInt64.toNat_inj, toNat_add_of_le fits, eq_comm]
  next wraps =>
    rw [le_add_iff] at wraps
    simp only [reduceCtorEq, false_iff]
    omega

theorem sum?_eq_none_iff : sum? a b = none ↔ lastAddress < a.toNat + b.toNat := by
  rw [sum?, ite_eq_right_iff, ← Nat.not_le, ← le_add_iff]
  simp only [reduceCtorEq, imp_false]

theorem difference?_eq_some_iff : difference? a b = some c ↔ c.toNat + b.toNat = a.toNat := by
  rw [difference?]
  split
  next low =>
    rw [Option.some_inj, ← UInt64.toNat_inj, UInt64.toNat_sub_of_le _ _ low]
    rw [UInt64.le_iff_toNat_le] at low
    omega
  next high =>
    rw [UInt64.le_iff_toNat_le] at high
    simp only [reduceCtorEq, false_iff]
    omega

theorem toNat_max (a b : UInt64) : (max a b).toNat = max a.toNat b.toNat := by
  change (if a ≤ b then b else a).toNat = max a.toNat b.toNat
  rw [Nat.max_def]
  by_cases le : a ≤ b
  · rw [if_pos le, if_pos (UInt64.le_iff_toNat_le.1 le)]
  · rw [if_neg le, if_neg fun le' => le (UInt64.le_iff_toNat_le.2 le')]

end Word

/-- A range with words as bounds, whose tests are computed on words. -/
structure WordRange where
  base : UInt64
  size : UInt64
deriving DecidableEq, Repr

namespace WordRange

variable {w v : WordRange} {addr len : UInt64}

def toRange (w : WordRange) : AddressRange := ⟨w.base.toNat, w.size.toNat⟩

def stop (w : WordRange) : UInt64 := Word.cappedSum w.base w.size

def contains (w : WordRange) (addr : UInt64) : Bool := decide (w.base ≤ addr ∧ addr < w.stop)

def containsAccess (w : WordRange) (addr len : UInt64) : Bool :=
  w.contains addr && (Word.sum? addr (max len 1)).any fun behind => decide (behind ≤ w.stop)

def overlaps (w v : WordRange) : Bool :=
  w.size != 0 && v.size != 0 && decide (w.base < v.stop ∧ v.base < w.stop)

def offset? (w : WordRange) (addr : UInt64) : Option UInt64 := Word.difference? addr w.base

/-- The tests on words answer as those on numbers. The distances from the base to the start and to
the end of an access that lies in the range are words, the latter at most the size. -/
structure Computes (w v : WordRange) : Prop where
  byte : ∀ addr, w.contains addr = w.toRange.contains addr.toNat
  access : ∀ addr len, w.containsAccess addr len = w.toRange.containsAccess addr.toNat len.toNat
  overlap : w.overlaps v = w.toRange.overlaps v.toRange
  offset : ∀ addr len, w.containsAccess addr len = true → ∃ offset behind,
    w.offset? addr = some offset ∧ Word.sum? offset len = some behind ∧
      offset.toNat = w.toRange.offsetOf addr.toNat ∧ behind ≤ w.size

theorem toNat_stop (w : WordRange) : w.stop.toNat = w.toRange.stop := Word.toNat_cappedSum ..

theorem contains_eq (w : WordRange) (addr : UInt64) :
    w.contains addr = w.toRange.contains addr.toNat := by
  rw [AddressRange.contains, contains, ← toNat_stop]
  rfl

theorem containsAccess_eq (w : WordRange) (addr len : UInt64) :
    w.containsAccess addr len = w.toRange.containsAccess addr.toNat len.toNat := by
  have bytes : (max len 1).toNat = max len.toNat 1 := Word.toNat_max ..
  rw [containsAccess, AddressRange.containsAccess, contains_eq, ← bytes]
  congr 1
  cases sum : Word.sum? addr (max len 1) with
  | some behind =>
    rw [Option.any_some, ← Word.sum?_eq_some_iff.1 sum, ← toNat_stop]
    rfl
  | none =>
    -- The end is no word, but the stop is.
    have wraps := Word.sum?_eq_none_iff.1 sum
    have stop : w.toRange.stop ≤ lastAddress := AddressRange.stop_le_lastAddress
    rw [Option.any_none, eq_comm, decide_eq_false_iff_not]
    omega

theorem overlaps_eq (w v : WordRange) : w.overlaps v = w.toRange.overlaps v.toRange := by
  have isEmpty (w : WordRange) : w.toRange.isEmpty = (w.size == 0) := by
    rw [Bool.eq_iff_iff, beq_iff_eq, ← UInt64.toNat_inj]
    exact beq_iff_eq
  rw [overlaps, AddressRange.overlaps, isEmpty, isEmpty, ← toNat_stop, ← toNat_stop]
  rfl

theorem computes_offset (inside : w.containsAccess addr len = true) : ∃ offset behind,
    w.offset? addr = some offset ∧ Word.sum? offset len = some behind ∧
      offset.toNat = w.toRange.offsetOf addr.toNat ∧ behind ≤ w.size := by
  rw [containsAccess_eq] at inside
  have low : w.base.toNat ≤ addr.toNat := AddressRange.base_le inside
  have within : w.toRange.offsetOf addr.toNat + len.toNat ≤ w.size.toNat :=
    AddressRange.offsetOf_add_le inside
  have distance : (addr - w.base).toNat = w.toRange.offsetOf addr.toNat :=
    UInt64.toNat_sub_of_le _ _ (UInt64.le_iff_toNat_le.2 low)
  have cancel : (addr - w.base).toNat + w.base.toNat = addr.toNat := by
    rw [distance]
    exact Nat.sub_add_cancel low
  rw [← distance] at within
  have sum : (addr - w.base + len).toNat = (addr - w.base).toNat + len.toNat :=
    Word.toNat_add_of_le (Nat.le_trans within (Word.toNat_le_lastAddress w.size))
  exact ⟨addr - w.base, addr - w.base + len, Word.difference?_eq_some_iff.2 cancel,
    Word.sum?_eq_some_iff.2 sum, distance, UInt64.le_iff_toNat_le.2 (sum ▸ within)⟩

end WordRange

namespace AddressRange

/-- Ranges decide byte by byte, up to the end of the address space, and words are enough to compute
what they decide. -/
theorem bytewise :
    (∀ r s : AddressRange, r.Bytewise s) ∧ ∀ w v : WordRange, w.Computes v := by
  refine ⟨fun r s => ?_, fun w v => ?_⟩
  · exact {
      byte := fun _ => contains_iff_lt_add
      access := fun _ _ => containsAccess_iff_forall
      overlap := overlaps_iff_exists
      comm := overlaps_comm r s
      exclusive := fun apart addr len both => by
        have outside : s.containsAccess addr len = false :=
          not_containsAccess_of_apart apart (contains_of_containsAccess both.1)
        exact Bool.false_ne_true (outside.symm.trans both.2)
      offset := fun _ _ inside => ⟨base_le inside, offsetOf_add_le inside⟩ }
  · exact {
      byte := w.contains_eq
      access := w.containsAccess_eq
      overlap := w.overlaps_eq v
      offset := fun _ _ => WordRange.computes_offset }

/-- The last page, and a range that starts with its last byte. The 64 bytes before the last address
lie in the page; the last 64 bytes do not. The two ranges are apart, as the second one holds no
byte. -/
theorem bytewise_last_page :
    let page : WordRange := ⟨0xFFFFFFFFFFFFF000, 4096⟩
    let tip : WordRange := ⟨0xFFFFFFFFFFFFFFFF, 2⟩
    (∀ byte ∈ touched 0xFFFFFFFFFFFFFFBF 64, page.toRange.contains byte = true) ∧
      page.toRange.containsAccess 0xFFFFFFFFFFFFFFC0 64 = false ∧
      page.toRange.overlaps tip.toRange = false ∧
      tip.toRange.containsAccess 0xFFFFFFFFFFFFFFBF 64 = false ∧
      page.toRange.offsetOf 0xFFFFFFFFFFFFFFBF + 64 ≤ 4096 ∧
      ∃ offset behind, page.offset? 0xFFFFFFFFFFFFFFBF = some offset ∧
        Word.sum? offset 64 = some behind ∧ behind ≤ 4096 := by
  intro page tip
  obtain ⟨decides, computes⟩ := bytewise
  have inside : page.toRange.containsAccess 0xFFFFFFFFFFFFFFBF 64 = true := by decide
  have apart : page.toRange.overlaps tip.toRange = false := by decide
  obtain ⟨offset, behind, distance, sum, -, within⟩ :=
    (computes page tip).offset 0xFFFFFFFFFFFFFFBF 64 (by decide)
  exact ⟨fun byte mem => (((decides page.toRange tip.toRange).access _ _).1 inside byte mem).2,
    by decide, apart,
    Bool.eq_false_iff.2 fun other => (decides _ _).exclusive apart _ _ ⟨inside, other⟩,
    ((decides page.toRange tip.toRange).offset _ _ inside).2,
    offset, behind, distance, sum, within⟩

end AddressRange

end Expander
