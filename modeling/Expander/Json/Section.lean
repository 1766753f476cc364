import Expander.Json.Basic
import Expander.Units

/-!
Sections of a configuration in JSON.

A section is an object whose members are named fields, or an array of the fields in order. Members
with unknown names are ignored; a field that is given twice, also under its other names, spoils the
section. A field that is not given takes its default.
-/

set_option autoImplicit false

namespace Expander

/-- The names of a field: its own, and those that stand for it. -/
structure FieldName where
  name : String
  /-- The other names under which the field is read. -/
  aliases : List String := []
deriving DecidableEq, Repr

namespace FieldName

def plain (name : String) : FieldName := { name }

def names (f : FieldName) (key : Option String) : Bool :=
  match key with
  | none => false
  | some key => key == f.name || f.aliases.contains key

/-- The value given for the field by the members of an object; fails when there are two. -/
def find (f : FieldName) (members : List (Option String × Json)) : Option (Option Json) :=
  match members.filter fun m => f.names m.1 with
  | [] => some none
  | [m] => some (some m.2)
  | _ => none

end FieldName

namespace Json

/-- The values given for the fields of a section, in order. -/
def fields (layout : List FieldName) : Json → Option (List (Option Json))
  | .array elements =>
    if elements.length ≤ layout.length then
      some (elements.map some ++ List.replicate (layout.length - elements.length) none)
    else none
  | .object members =>
    if members.all fun m => m.1.isSome then layout.mapM fun f => f.find members else none
  | _ => none

/-- A number up to a bound. -/
def bounded? (bound : Nat) : Json → Option Nat
  | .number n => if n ≤ bound then some n else none
  | _ => none

def word? : Json → Option Nat := bounded? lastAddress

def half? : Json → Option Nat := bounded? 0xFFFFFFFF

def quarter? : Json → Option Nat := bounded? 0xFFFF

def byte? : Json → Option Nat := bounded? 0xFF

def bool? : Json → Option Bool
  | .bool b => some b
  | _ => none

/-- A value that may be null. -/
def nullable? {α : Type} (read : Json → Option α) : Json → Option (Option α)
  | .null => some none
  | j => (read j).map some

/-- One of a number of named values: its name, or an object with the name over null. -/
def named? {α : Type} (table : List (String × α)) : Json → Option α
  | .string (some name) => table.lookup name
  | .object [(some name, .null)] => table.lookup name
  | _ => none

def list? {α : Type} (read : Json → Option α) : Json → Option (List α)
  | .array elements => elements.mapM read
  | _ => none

def given? {α : Type} (read : Json → Option α) (default : α) : Option Json → Option α
  | none => some default
  | some j => read j

end Json

end Expander
