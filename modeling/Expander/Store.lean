import Expander.Machine
import Std.Data.ExtTreeMap.Lemmas

/-!
Byte storage of one memory range.

A store has a fixed size and starts out with zeros; `byte` is its view. Accesses that leave the
store fail as a whole. After a write the bytes of the data lie where they were put, and all other
bytes are as before (`byte_write?`).
-/

set_option autoImplicit false

namespace Expander

/-- A byte memory of fixed size that is zero where nothing was written. -/
structure Store where
  size : Nat
  written : Std.ExtTreeMap Nat UInt8 := {}

namespace Store

/-- A store in which nothing was written. -/
def blank (size : Nat) : Store := { size }

/-- A store of `size` zero bytes, beside `held` bytes of others; a store has at least one byte. -/
def allocate (m : Machine) (held size : Nat) : Except SimError Store :=
  if size = 0 ∨ m.maps held size = false then .error (.allocation size) else .ok (blank size)

/-- The byte at `offset`. -/
def byte (s : Store) (offset : Nat) : UInt8 := s.written.getD offset 0

/-- The `len` bytes from `offset` on, unless they leave the store. -/
def read? (s : Store) (offset len : Nat) : Option (List UInt8) :=
  if offset + len ≤ s.size then some ((List.range len).map fun i => s.byte (offset + i)) else none

/-- The map after `data` was put in from `offset` on. -/
def put (written : Std.ExtTreeMap Nat UInt8) (offset : Nat) :
    List UInt8 → Std.ExtTreeMap Nat UInt8
  | [] => written
  | b :: rest => put (written.insert offset b) (offset + 1) rest

def write? (s : Store) (offset : Nat) (data : List UInt8) : Option Store :=
  if offset + data.length ≤ s.size then
    some { s with written := put s.written offset data }
  else none

/-- The `len` bytes from `offset` on, or zeros when they leave the store. -/
def readOrZero (s : Store) (offset len : Nat) : List UInt8 :=
  (s.read? offset len).getD (List.replicate len 0)

/-- The store after writing `data`, or the same store when the data leaves it. -/
def writeOrKeep (s : Store) (offset : Nat) (data : List UInt8) : Store :=
  (s.write? offset data).getD s

theorem getD_put (written : Std.ExtTreeMap Nat UInt8) (offset i : Nat) (data : List UInt8) :
    (put written offset data).getD i 0 =
      if i < offset then written.getD i 0 else data.getD (i - offset) (written.getD i 0) := by
  induction data generalizing written offset with
  | nil => simp [put]
  | cons b rest ih =>
    rw [put, ih, Std.ExtTreeMap.getD_insert]
    by_cases hlt : i < offset
    · have hne : offset ≠ i := by omega
      have hlt' : i < offset + 1 := by omega
      simp [hlt, hlt', hne]
    · by_cases heq : i = offset
      · subst heq
        simp
      · have hge : ¬i < offset + 1 := by omega
        have hne : offset ≠ i := by omega
        have hsub : i - offset = (i - (offset + 1)) + 1 := by omega
        simp [hlt, hge, hne, hsub]

/-- A write puts its data in place and leaves every other byte alone. -/
theorem byte_write? {s t : Store} {offset : Nat} {data : List UInt8}
    (h : s.write? offset data = some t) (i : Nat) :
    t.byte i = if i < offset then s.byte i else data.getD (i - offset) (s.byte i) := by
  rw [write?] at h
  split at h
  · cases h
    exact getD_put s.written offset i data
  · cases h

theorem size_write? {s t : Store} {offset : Nat} {data : List UInt8}
    (h : s.write? offset data = some t) : t.size = s.size := by
  rw [write?] at h
  split at h
  · cases h
    rfl
  · cases h

@[simp] theorem size_writeOrKeep (s : Store) (offset : Nat) (data : List UInt8) :
    (s.writeOrKeep offset data).size = s.size := by
  rw [writeOrKeep]
  cases h : s.write? offset data with
  | none => rfl
  | some t => exact size_write? h

theorem byte_blank (size i : Nat) : (blank size).byte i = 0 := Std.ExtTreeMap.getD_empty

theorem allocate_eq_ok {m : Machine} {held size : Nat} {s : Store}
    (h : allocate m held size = .ok s) : s = blank size := by
  rw [allocate] at h
  split at h
  · cases h
  · exact (Except.ok.inj h).symm

end Store

end Expander
