import Expander.Error

/-!
The machine on which a simulation runs.

A simulation asks the machine for two things: mapped storage for the bytes of memory, and room for
the tables and queues of a stage. Which requests are met is up to the machine. Storage that is not
given out is an error; where there is no room for a table, the process stops.
-/

set_option autoImplicit false

namespace Expander

/-- What a machine with words of 64 bits gives out. -/
structure Machine where
  /-- Whether `size` bytes can be mapped beside the `held` bytes that are mapped already. -/
  maps (held size : Nat) : Bool
  /-- Whether room for `entries` entries of a table can be set aside. -/
  reserves (entries : Nat) : Bool
  /-- An entry takes a byte at least, and no table is larger than half of the address space. -/
  reserves_lt (entries : Nat) : reserves entries = true → entries < 0x8000000000000000

namespace Machine

/-- A machine that maps less than 128 TiB, and whose tables have entries of 72 bytes. -/
def standard : Machine where
  maps held size := decide (held + size < 0x800000000000)
  reserves entries := decide (72 * entries < 0x8000000000000000)
  reserves_lt entries room := by
    have room := of_decide_eq_true room
    omega

/-- Passes when there is room for each of the tables, and otherwise stops at the first for which
there is none. -/
def setAside (m : Machine) : List Nat → Except SimError Unit
  | [] => .ok ()
  | entries :: rest => if m.reserves entries then m.setAside rest else .error (.capacity entries)

end Machine

end Expander
