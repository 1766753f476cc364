import Expander.Json.Section
import Mathlib.Data.List.Perm.Basic

/-!
Presentations of a document.

A schema says which documents are read for what: named fields, names that stand for each other,
lists. Two documents of a schema present the same thing when they differ in the order of the
members, in the names of fields and values, in members with unknown names and in members that only
state a default (`Restyle`). A document in which one object gives a field twice presents nothing
(`Doubled`).
-/

set_option autoImplicit false

namespace Expander

/-- The shape of the documents that are read for a kind of value. -/
inductive Schema where
  /-- A document without further structure. -/
  | plain
  /-- One of a number of names; each pair is a name and another that stands for it. -/
  | named (others : List (String × String))
  | list (element : Schema)
  /-- Named fields, each with its shape and, unless it has to be given, its default. -/
  | record (fields : List (FieldName × Schema × Option Json))

/-- The second document presents what the first one does. -/
inductive Restyle : Schema → Json → Json → Prop
  | refl {s : Schema} {j : Json} : Restyle s j j
  | trans {s : Schema} {j k l : Json} (first : Restyle s j k) (second : Restyle s k l) :
      Restyle s j l
  /-- The members of an object in another order. -/
  | permute {fields ms ns} (perm : ms.Perm ns) :
      Restyle (.record fields) (.object ms) (.object ns)
  /-- A field under another of its names. -/
  | rename {fields} {f : FieldName} {s : Schema} {default : Option Json} {key key' : String}
      {v : Json} {ms} (field : (f, s, default) ∈ fields) (named : f.names (some key) = true)
      (named' : f.names (some key') = true) :
      Restyle (.record fields) (.object ((some key, v) :: ms)) (.object ((some key', v) :: ms))
  /-- A further member that no field has the name of. -/
  | insert {fields : List (FieldName × Schema × Option Json)} {key : String} {v : Json} {ms}
      (unknown : ∀ f ∈ fields, f.1.names (some key) = false) :
      Restyle (.record fields) (.object ms) (.object ((some key, v) :: ms))
  /-- A field left out that has its default. -/
  | leave {fields} {f : FieldName} {s : Schema} {default v : Json} {key : String} {ms}
      (field : (f, s, some default) ∈ fields) (named : f.names (some key) = true)
      (same : Restyle s default v) :
      Restyle (.record fields) (.object ((some key, v) :: ms)) (.object ms)
  /-- A field with another presentation of its value. -/
  | inside {fields} {f : FieldName} {s : Schema} {default : Option Json} {key : String} {v w : Json}
      {ms} (field : (f, s, default) ∈ fields) (named : f.names (some key) = true)
      (value : Restyle s v w) :
      Restyle (.record fields) (.object ((some key, v) :: ms)) (.object ((some key, w) :: ms))
  | element {s : Schema} {before behind : List Json} {v w : Json} (value : Restyle s v w) :
      Restyle (.list s) (.array (before ++ v :: behind)) (.array (before ++ w :: behind))
  | name {others : List (String × String)} {name other : String} (stands : (name, other) ∈ others) :
      Restyle (.named others) (.text name) (.text other)

/-- Somewhere in the document, a field is given twice. -/
inductive Doubled : Schema → Json → Prop
  | here {fields} {f : FieldName} {s : Schema} {default : Option Json}
      {before between behind : List (Option String × Json)} {key key' : Option String} {v w : Json}
      (field : (f, s, default) ∈ fields) (named : f.names key = true)
      (named' : f.names key' = true) :
      Doubled (.record fields)
        (.object (before ++ (key, v) :: (between ++ (key', w) :: behind)))
  | member {fields} {f : FieldName} {s : Schema} {default : Option Json}
      {ms : List (Option String × Json)} {key : Option String} {v : Json}
      (field : (f, s, default) ∈ fields) (mem : (key, v) ∈ ms) (named : f.names key = true)
      (value : Doubled s v) : Doubled (.record fields) (.object ms)
  /-- A section can be an array of its fields in order. -/
  | position {fields} {f : FieldName} {s : Schema} {default : Option Json} {es : List Json}
      {v : Json} {place : Nat} (field : fields[place]? = some (f, s, default))
      (given : es[place]? = some v) (value : Doubled s v) : Doubled (.record fields) (.array es)
  | element {s : Schema} {es : List Json} {v : Json} (mem : v ∈ es) (value : Doubled s v) :
      Doubled (.list s) (.array es)

namespace FieldName

def keys (f : FieldName) : List String := f.name :: f.aliases

theorem names_iff {f : FieldName} {key : String} : f.names (some key) = true ↔ key ∈ f.keys := by
  simp [names, keys]

variable {f : FieldName} {ms ns : List (Option String × Json)} {key : Option String} {v w : Json}

theorem find_perm (perm : ms.Perm ns) : f.find ms = f.find ns := by
  have filtered := perm.filter fun m => f.names m.1
  rw [find, find]
  generalize ms.filter (fun m => f.names m.1) = found at filtered
  match found with
  | [] => rw [filtered.nil_eq]
  | [m] => rw [List.singleton_perm.1 filtered]
  | m :: m' :: rest =>
    have length := filtered.length_eq
    generalize ns.filter (fun m => f.names m.1) = found' at length
    match found' with
    | [] => simp at length
    | [_] => simp at length
    | _ :: _ :: _ => rfl

theorem find_of_not (others : ∀ m ∈ ms, f.names m.1 = false) : f.find ms = some none := by
  have nothing : ms.filter (fun m => f.names m.1) = [] := by simpa using others
  rw [find, nothing]

theorem find_cons_of_not (other : f.names key = false) : f.find ((key, v) :: ms) = f.find ms := by
  rw [find, find, List.filter_cons_of_neg (by simpa using other)]

theorem find_cons (named : f.names key = true) {given : Option Json} :
    f.find ((key, v) :: ms) = some given ↔ f.find ms = some none ∧ given = some v := by
  rw [find, find, List.filter_cons_of_pos (by simpa using named)]
  generalize ms.filter (fun m => f.names m.1) = others
  match others with
  | [] => simp [eq_comm (a := given)]
  | [_] => simp
  | _ :: _ :: _ => simp

theorem find_of_mem {given : Option Json} (found : f.find ms = some given) (mem : (key, v) ∈ ms)
    (named : f.names key = true) : given = some v := by
  obtain ⟨before, behind, rfl⟩ := List.append_of_mem mem
  rw [find_perm List.perm_middle, find_cons named] at found
  exact found.2

theorem find_twice {before between behind : List (Option String × Json)} {key' : Option String}
    (named : f.names key = true) (named' : f.names key' = true) :
    f.find (before ++ (key, v) :: (between ++ (key', w) :: behind)) = none := by
  rw [find_perm List.perm_middle, Option.eq_none_iff_forall_ne_some]
  intro given found
  have alone := ((find_cons named).1 found).1
  have mem : (key', w) ∈ before ++ (between ++ (key', w) :: behind) := by simp
  have another := find_of_mem alone mem named'
  cases another

end FieldName

end Expander
