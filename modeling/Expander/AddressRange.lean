import Expander.Text.Hexadecimal
import Expander.Units

/-!
Contiguous ranges of physical addresses.

A range is half open and ends at `lastAddress` at the latest. An access without bytes counts as
one byte at its address, so that every access has a place.
-/

set_option autoImplicit false

namespace Expander

/-- The addresses from `base` up to, but not including, `base + size`. -/
structure AddressRange where
  base : Nat
  size : Nat
deriving DecidableEq, Repr, Inhabited

namespace AddressRange

/-- The first address behind the range, at most `lastAddress`. -/
def stop (r : AddressRange) : Nat := min (r.base + r.size) lastAddress

def isEmpty (r : AddressRange) : Bool := r.size == 0

def contains (r : AddressRange) (addr : Nat) : Bool :=
  decide (r.base ≤ addr ∧ addr < r.stop)

def containsAccess (r : AddressRange) (addr len : Nat) : Bool :=
  r.contains addr && decide (addr + max len 1 ≤ r.stop)

/-- Whether the two ranges share a byte. -/
def overlaps (r s : AddressRange) : Bool :=
  !r.isEmpty && !s.isEmpty && decide (r.base < s.stop ∧ s.base < r.stop)

/-- The distance of `addr` from the start of the range that contains it. -/
def offsetOf (r : AddressRange) (addr : Nat) : Nat := addr - r.base

/-- The bounds of the range in hexadecimal. -/
def text (r : AddressRange) : String :=
  "[" ++ Text.hex r.base ++ ", " ++ Text.hex r.stop ++ ")"

theorem contains_iff {r : AddressRange} {addr : Nat} :
    r.contains addr = true ↔ r.base ≤ addr ∧ addr < r.stop := by
  simp [contains]

theorem containsAccess_iff {r : AddressRange} {addr len : Nat} :
    r.containsAccess addr len = true ↔
      r.base ≤ addr ∧ addr < r.stop ∧ addr + max len 1 ≤ r.stop := by
  simp [containsAccess, contains_iff, and_assoc]

theorem overlaps_iff {r s : AddressRange} :
    r.overlaps s = true ↔ r.size ≠ 0 ∧ s.size ≠ 0 ∧ r.base < s.stop ∧ s.base < r.stop := by
  simp [overlaps, isEmpty, and_assoc]

end AddressRange

end Expander
