import Expander.AddressRange
import Expander.StableOrder

/-!
The physical memory map that tells the host which ranges are memory.

With system memory at address zero, and more than a mebibyte of it, the map has the classic layout:
low memory, the legacy hole, memory from one mebibyte on. The BIOS window below four gibibytes is
reserved, and the expander range is memory.
-/

set_option autoImplicit false

namespace Expander

/-- What a region of the map is used for. -/
inductive RegionKind where
  | ram
  /-- Kept for firmware and legacy devices. -/
  | reserved
deriving DecidableEq, Repr

namespace RegionKind

def typeNumber : RegionKind → Nat
  | ram => 1
  | reserved => 2

def text : RegionKind → String
  | ram => "RAM"
  | reserved => "reserved"

end RegionKind

structure MemoryRegion where
  range : AddressRange
  kind : RegionKind
deriving DecidableEq, Repr

/-- The written form of an entry. -/
def MemoryRegion.text (r : MemoryRegion) : String :=
  Text.hexPadded 16 r.range.base ++ " - " ++ Text.hexPadded 16 r.range.stop ++ "  " ++ r.kind.text

namespace MemoryMap

/-- The memory below the legacy hole. -/
def lowMemory : AddressRange := ⟨0, 639 * kibibyte⟩

/-- The legacy hole below one mebibyte. -/
def legacyHole : AddressRange := ⟨0x9FC00, 385 * kibibyte⟩

/-- The BIOS window below four gibibytes. -/
def biosWindow : AddressRange := ⟨0xFFFF0000, 64 * kibibyte⟩

def systemRegions (system : AddressRange) : List MemoryRegion :=
  if system.base = 0 ∧ mebibyte < system.size then
    [⟨lowMemory, .ram⟩, ⟨legacyHole, .reserved⟩, ⟨⟨mebibyte, system.size - mebibyte⟩, .ram⟩]
  else [⟨system, .ram⟩]

def build (system expander : AddressRange) : List MemoryRegion :=
  sortStable (fun a b => decide (a.range.base < b.range.base))
    (systemRegions system ++ [⟨biosWindow, .reserved⟩, ⟨expander, .ram⟩])

end MemoryMap

end Expander
