import Expander.Proofs.Ranges
import Expander.Proofs.Session
import Expander.Proofs.Stage.View

/-!
A plain memory beside the stores.

The plain memory has a byte at every address, and accesses are performed on it one after the other,
at once. A store holds the bytes of a plain memory on its range; this stays so when both perform an
access of that range (`Store.Holds.write`), and when the plain memory performs one elsewhere.
-/

set_option autoImplicit false

namespace Expander

def PlainMemory : Type := Nat → UInt8

namespace PlainMemory

def zero : PlainMemory := fun _ => 0

def read (m : PlainMemory) (addr size : Nat) : List UInt8 :=
  (List.range size).map fun i => m (addr + i)

def write (m : PlainMemory) (addr : Nat) (data : List UInt8) : PlainMemory :=
  fun a => if a < addr then m a else data.getD (a - addr) (m a)

theorem write_of_not_mem (m : PlainMemory) {addr a : Nat} {data : List UInt8}
    (outside : a < addr ∨ addr + data.length ≤ a) : m.write addr data a = m a := by
  rw [write]
  split
  · rfl
  · rename_i notBefore
    have behind : data.length ≤ a - addr := by omega
    rw [List.getD_eq_getElem?_getD, List.getElem?_eq_none behind, Option.getD_none]

end PlainMemory

namespace Access

def perform (m : PlainMemory) : Access → PlainMemory
  | read _ _ => m
  | write addr data => m.write addr data

def answer (m : PlainMemory) : Access → List UInt8
  | read addr size => m.read addr size
  | write _ _ => []

end Access

def replay (grants : List Grant) : PlainMemory :=
  grants.foldl (fun m g => g.access.perform m) .zero

theorem replay_concat (grants : List Grant) (g : Grant) :
    replay (grants ++ [g]) = g.access.perform (replay grants) := by
  rw [replay, List.foldl_append]
  rfl

namespace Grant

def within (range : AddressRange) (g : Grant) : Bool :=
  range.containsAccess g.access.request.addr g.access.request.size

end Grant

variable {range other : AddressRange} {m m' : PlainMemory} {g : Grant} {grants : List Grant}

theorem Grant.not_within (apart : range.overlaps other = false)
    (inside : g.within other = true) : g.within range = false := by
  rw [AddressRange.overlaps_comm] at apart
  exact AddressRange.not_containsAccess_of_apart apart
    (AddressRange.contains_of_containsAccess inside)

theorem Grant.perform_outside (inside : g.within other = true)
    (apart : range.overlaps other = false) {a : Nat} (mem : range.contains a = true) :
    g.access.perform m a = m a := by
  have outside := AddressRange.not_contains_of_apart apart mem
  obtain ⟨id, access, issued⟩ := g
  cases access with
  | read addr size => rfl
  | write addr data =>
    refine m.write_of_not_mem ?_
    rcases Nat.lt_or_ge a addr with before | start
    · exact .inl before
    · -- A byte that is written lies in the other range.
      refine .inr (Nat.le_of_not_lt fun written => ?_)
      have touched : a ∈ AddressRange.touched addr data.length :=
        AddressRange.mem_touched.2 ⟨start, by omega⟩
      have held := (AddressRange.containsAccess_iff_forall.1 inside a touched).2
      exact Bool.false_ne_true (outside.symm.trans held)

theorem replay_append_outside {more : List Grant}
    (outside : ∀ g ∈ more, ∃ other, g.within other = true ∧ range.overlaps other = false) {a : Nat}
    (mem : range.contains a = true) : replay (grants ++ more) a = replay grants a := by
  induction more generalizing grants with
  | nil => rw [List.append_nil]
  | cons g more ih =>
    obtain ⟨other, inside, apart⟩ := outside g List.mem_cons_self
    rw [List.append_cons, ih fun g' mem' => outside g' (List.mem_cons_of_mem g mem'),
      replay_concat, Grant.perform_outside inside apart mem]

namespace Store

/-- The store has the bytes of a plain memory in its range. -/
structure Holds (range : AddressRange) (m : PlainMemory) (s : Store) : Prop where
  size : s.size = range.size
  byte : ∀ a, range.contains a = true → s.byte (range.offsetOf a) = m a

variable {s : Store} {addr : Nat}

theorem Holds.congr (h : s.Holds range m) (same : ∀ a, range.contains a = true → m' a = m a) :
    s.Holds range m' :=
  ⟨h.size, fun a mem => (h.byte a mem).trans (same a mem).symm⟩

theorem Holds.read (h : s.Holds range m) {len : Nat}
    (inside : range.containsAccess addr len = true) :
    s.readOrZero (range.offsetOf addr) len = m.read addr len := by
  have fits : range.offsetOf addr + len ≤ s.size :=
    h.size ▸ AddressRange.offsetOf_add_le inside
  rw [AddressRange.containsAccess_iff] at inside
  rw [readOrZero, read?, if_pos fits, Option.getD_some, PlainMemory.read]
  refine List.map_congr_left fun i mem => ?_
  have lt := List.mem_range.1 mem
  have at_i : range.contains (addr + i) = true := AddressRange.contains_iff.2 (by omega)
  rw [← h.byte (addr + i) at_i, AddressRange.offsetOf, AddressRange.offsetOf]
  congr 1
  omega

theorem Holds.write (h : s.Holds range m) {data : List UInt8}
    (inside : range.containsAccess addr data.length = true) :
    (s.writeOrKeep (range.offsetOf addr) data).Holds range (m.write addr data) := by
  have low : range.base ≤ addr := AddressRange.base_le inside
  have fits : range.offsetOf addr + data.length ≤ s.size :=
    h.size ▸ AddressRange.offsetOf_add_le inside
  refine ⟨(size_writeOrKeep ..).trans h.size, fun a mem => ?_⟩
  have written : s.write? (range.offsetOf addr) data =
      some { s with written := put s.written (range.offsetOf addr) data } := if_pos fits
  have same := h.byte a mem
  rw [AddressRange.contains_iff] at mem
  rw [writeOrKeep, written, Option.getD_some, byte_write? written, same, PlainMemory.write]
  simp only [AddressRange.offsetOf]
  have order : a - range.base < addr - range.base ↔ a < addr := by omega
  have distance : a - range.base - (addr - range.base) = a - addr := by omega
  rw [distance]
  exact if_congr order rfl rfl

theorem holds_blank (range : AddressRange) : (blank range.size).Holds range .zero :=
  ⟨rfl, fun _ _ => byte_blank _ _⟩

end Store

end Expander
