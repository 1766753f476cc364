import Expander.Proofs.Configuring.Presentation
import Expander.Proofs.Json.Writing
import Mathlib.Data.List.Forall2
import Mathlib.Data.List.Lattice
import Mathlib.Data.List.Nodup
import Mathlib.Data.List.Pairwise

/-!
Codecs: a reader and a writer that agree.

What a codec writes for a value reads back as the value, and so do all presentations of it; a
document in which a field is given twice does not read at all (`Codec`). The codec of a section
follows from the codecs of its fields (`Section.codec`).
-/

set_option autoImplicit false

namespace Expander

/-- A reader and a writer of a kind of value, and the schema of the documents between them. -/
structure Codec (α : Type) where
  schema : Schema
  read : Json → Option α
  write : α → Json
  /-- The values in the bounds of their type. -/
  Fits : α → Prop
  grammatical : ∀ x, (write x).Grammatical
  read_write : ∀ {x}, Fits x → read (write x) = some x
  restyle : ∀ {j k x}, Restyle schema j k → read j = some x → read k = some x
  doubled : ∀ {j}, Doubled schema j → read j = none

theorem Restyle.eq_of_plain {j k : Json} (h : Restyle .plain j k) : j = k := by
  generalize same : Schema.plain = s at h
  induction h with
  | refl => rfl
  | trans _ _ first second => exact (first same).trans (second same)
  | _ => cases same

theorem Doubled.not_plain {j : Json} : ¬ Doubled .plain j := nofun

theorem Doubled.not_named {others : List (String × String)} {j : Json} :
    ¬ Doubled (.named others) j := nofun

namespace Codec

def plain {α : Type} (read : Json → Option α) (write : α → Json) (Fits : α → Prop)
    (grammatical : ∀ x, (write x).Grammatical)
    (read_write : ∀ {x}, Fits x → read (write x) = some x) : Codec α where
  schema := .plain
  read := read
  write := write
  Fits := Fits
  grammatical := grammatical
  read_write := read_write
  restyle h := by rw [h.eq_of_plain]; exact id
  doubled h := absurd h Doubled.not_plain

def bounded (bound : Nat) : Codec Nat :=
  plain (Json.bounded? bound) .number (· ≤ bound) .number fun fits => if_pos fits

@[simp]
theorem fits_bounded {bound n : Nat} : (bounded bound).Fits n ↔ n ≤ bound := Iff.rfl

def flag : Codec Bool := plain Json.bool? .bool (fun _ => True) .bool fun _ => rfl

def optional (bound : Nat) : Codec (Option Nat) :=
  plain (Json.nullable? (Json.bounded? bound)) .optional (fun n => ∀ k ∈ n, k ≤ bound)
    (fun
      | none => .null
      | some n => .number n)
    fun {n} fits => by
      cases n with
      | none => rfl
      | some n =>
        have read : Json.bounded? bound (.number n) = some n := if_pos (fits n rfl)
        simp only [Json.optional, Json.nullable?, read, Option.map_some]

@[simp]
theorem fits_optional {bound : Nat} {o : Option Nat} :
    (optional bound).Fits o ↔ ∀ n ∈ o, n ≤ bound := Iff.rfl

def named {α : Type} (table : List (String × α)) (name : α → String)
    (others : List (String × String)) (known : ∀ x, table.lookup (name x) = some x)
    (stands : ∀ p ∈ others, table.lookup p.2 = table.lookup p.1) : Codec α where
  schema := .named others
  read := Json.named? table
  write x := .text (name x)
  Fits _ := True
  grammatical x := .string _
  read_write {x} _ := known x
  restyle {j k x} h := by
    generalize same : Schema.named others = s at h
    induction h with
    | refl => exact id
    | trans _ _ first second => exact fun read => second same (first same read)
    | name mem =>
      cases same
      exact fun read => (stands _ mem).trans read
    | _ => cases same
  doubled h := absurd h Doubled.not_named

end Codec

theorem mapM_eq_some {α β : Type} {f : α → Option β} {xs : List α} {ys : List β} :
    xs.mapM f = some ys ↔ List.Forall₂ (fun x y => f x = some y) xs ys := by
  induction xs generalizing ys with
  | nil => simp [eq_comm]
  | cons x xs ih =>
    simp only [List.mapM_cons, Option.bind_eq_bind, Option.bind_eq_some_iff, ih,
      List.forall₂_cons_left_iff]
    simp [eq_comm]

def Codec.list {α : Type} (codec : Codec α) : Codec (List α) where
  schema := .list codec.schema
  read := Json.list? codec.read
  write xs := .array (xs.map codec.write)
  Fits xs := ∀ x ∈ xs, codec.Fits x
  grammatical xs := .array (List.forall_mem_map.2 fun x _ => codec.grammatical x)
  read_write {xs} fits := by
    rw [Json.list?, mapM_eq_some, List.forall₂_map_left_iff, List.forall₂_same]
    exact fun x mem => codec.read_write (fits x mem)
  restyle {j k xs} h := by
    generalize same : Schema.list codec.schema = s at h
    induction h generalizing xs with
    | refl => exact id
    | trans _ _ first second => exact fun read => second same (first same read)
    | @element s before behind v w value =>
      cases same
      simp only [Json.list?, List.mapM_append, List.mapM_cons, Option.bind_eq_bind,
        Option.bind_eq_some_iff]
      rintro ⟨ys, first, zs, ⟨y, read, rest⟩, last⟩
      exact ⟨ys, first, zs, ⟨y, codec.restyle value read, rest⟩, last⟩
    | _ => cases same
  doubled {j} h := by
    cases h with
    | element mem value =>
      obtain ⟨before, behind, rfl⟩ := List.append_of_mem mem
      simp [Json.list?, codec.doubled value]

theorem length_fields {layout : List FieldName} {j : Json} {given : List (Option Json)}
    (h : j.fields layout = some given) : given.length = layout.length := by
  cases j with
  | array es =>
    rw [Json.fields] at h
    split_ifs at h
    cases h
    simp
    omega
  | object ms =>
    rw [Json.fields] at h
    split_ifs at h
    exact (mapM_eq_some.1 h).length_eq.symm
  | _ => cases h

/-- A field of a section. -/
structure Field (σ : Type) where
  name : FieldName
  {Value : Type}
  codec : Codec Value
  get : σ → Value

namespace Field

variable {σ : Type}

def take (f : Field σ) (default : Option σ) : Option Json → Option f.Value
  | some v => f.codec.read v
  | none => default.map f.get

def Shows (f : Field σ) (default : Option σ) (x : σ) (ms : List (Option String × Json)) : Prop :=
  ∃ given, f.name.find ms = some given ∧ f.take default given = some (f.get x)

def entry (f : Field σ) (default : Option σ) : FieldName × Schema × Option Json :=
  (f.name, f.codec.schema, default.map fun d => f.codec.write (f.get d))

def Agree (fields : List (Field σ)) (default : Option σ) (x : σ) (given : List (Option Json)) :
    Prop :=
  List.Forall₂ (fun f v => f.take default v = some (f.get x)) fields given

theorem reads_iff {fields : List (Field σ)} {default : Option σ} {x : σ} {j : Json}
    {read : Option σ} {k : List (Option Json) → Option σ}
    (bound : read = (j.fields (fields.map (·.name))).bind k)
    (agree : ∀ given : List (Option Json), given.length = fields.length →
      (True ∧ Agree fields default x given ↔ k given = some x)) :
    read = some x ↔ ∃ given, j.fields (fields.map (·.name)) = some given ∧
      Agree fields default x given := by
  rw [bound, Option.bind_eq_some_iff]
  refine exists_congr fun given => and_congr_right fun found => ?_
  rw [← agree given (by rw [length_fields found, List.length_map]), true_and]

theorem reads_cons {f : Field σ} {fields : List (Field σ)} {d x : σ} {v : Option Json}
    {given : List (Option Json)} {k : f.Value → Option σ} {before : Prop}
    (rest : ∀ y, (before ∧ y = f.get x) ∧ Agree fields (some d) x given ↔ k y = some x) :
    before ∧ Agree (f :: fields) (some d) x (v :: given) ↔
      (Json.given? f.codec.read (f.get d) v).bind k = some x := by
  have taken : f.take (some d) v = Json.given? f.codec.read (f.get d) v := by cases v <;> rfl
  rw [Agree, List.forall₂_cons, taken, Option.bind_eq_some_iff]
  simp only [← rest]
  constructor
  · rintro ⟨kept, found, agree⟩
    exact ⟨_, found, ⟨kept, rfl⟩, agree⟩
  · rintro ⟨y, found, ⟨kept, rfl⟩, agree⟩
    exact ⟨kept, found, agree⟩

theorem reads_nil {default : Option σ} {x y : σ} {before : Prop} (same : before ↔ y = x) :
    before ∧ Agree [] default x [] ↔ some y = some x := by
  rw [Option.some_inj, ← same, Agree, List.forall₂_nil_left_iff, eq_self, and_true]

end Field

/-- A section with the fields that its reader and its writer go by. -/
structure Section (σ : Type) where
  fields : List (Field σ)
  /-- The section whose fields stand in for those that are not given, if they need not be. -/
  default : Option σ
  read : Json → Option σ
  write : σ → Json
  Fits : σ → Prop
  distinct : (fields.flatMap fun f => f.name.keys).Nodup
  reads : ∀ {j x}, read j = some x ↔ ∃ given, j.fields (fields.map (·.name)) = some given ∧
    Field.Agree fields default x given
  writes : ∀ x, write x = .record (fields.map fun f => (f.name.name, f.codec.write (f.get x)))
  fits : ∀ {x}, Fits x → ∀ f ∈ fields, f.codec.Fits (f.get x)
  default_fits : ∀ x ∈ default, Fits x

namespace Section

variable {σ : Type} (s : Section σ) {j k v : Json} {x : σ} {ms : List (Option String × Json)}
  {f g : Field σ} {key : String}

def schema : Schema := .record (s.fields.map (·.entry s.default))

variable {s}

theorem eq_of_names (mem : f ∈ s.fields) (mem' : g ∈ s.fields)
    (named : f.name.names (some key) = true) (named' : g.name.names (some key) = true) : f = g := by
  have symmetric : Std.Symm (Function.onFun List.Disjoint fun f : Field σ => f.name.keys) :=
    ⟨fun _ _ => List.Disjoint.symm⟩
  have apart := (List.nodup_flatMap.1 s.distinct).2
  by_contra other
  exact apart.forall mem mem' other (FieldName.names_iff.1 named) (FieldName.names_iff.1 named')

theorem read_object : s.read (.object ms) = some x ↔
    (∀ m ∈ ms, m.1.isSome = true) ∧ ∀ f ∈ s.fields, f.Shows s.default x ms := by
  have each (fields : List (Field σ)) : (∃ given,
      List.Forall₂ (fun f v => f.name.find ms = some v) fields given ∧
        Field.Agree fields s.default x given) ↔
      ∀ f ∈ fields, f.Shows s.default x ms := by
    induction fields with
    | nil => simp [Field.Agree]
    | cons f fields ih =>
      rw [List.forall_mem_cons, ← ih]
      constructor
      · rintro ⟨given, found, taken⟩
        cases found with
        | cons found rest =>
          cases taken with
          | cons taken rest' => exact ⟨⟨_, found, taken⟩, _, rest, rest'⟩
      · rintro ⟨⟨v, found, taken⟩, given, rest, rest'⟩
        exact ⟨v :: given, .cons found rest, .cons taken rest'⟩
  rw [s.reads, ← each]
  by_cases named : ∀ m ∈ ms, m.1.isSome = true
  · have all : ms.all (fun m => m.1.isSome) = true := List.all_eq_true.2 named
    simp only [Json.fields, all, if_true, mapM_eq_some, List.forall₂_map_left_iff]
    exact ⟨fun shows => ⟨named, shows⟩, And.right⟩
  · have all : ¬ ms.all (fun m => m.1.isSome) = true := fun all => named (List.all_eq_true.1 all)
    simp only [Json.fields, if_neg all, named]
    simp

theorem read_cons (mem : g ∈ s.fields) (named : g.name.names (some key) = true) :
    s.read (.object ((some key, v) :: ms)) = some x ↔
      g.codec.read v = some (g.get x) ∧ g.name.find ms = some none ∧
        (∀ m ∈ ms, m.1.isSome = true) ∧ ∀ f ∈ s.fields, f ≠ g → f.Shows s.default x ms := by
  have shows : g.Shows s.default x ((some key, v) :: ms) ↔
      g.codec.read v = some (g.get x) ∧ g.name.find ms = some none := by
    simp only [Field.Shows, FieldName.find_cons named]
    constructor
    · rintro ⟨_, ⟨alone, rfl⟩, taken⟩
      exact ⟨taken, alone⟩
    · rintro ⟨taken, alone⟩
      exact ⟨_, ⟨alone, rfl⟩, taken⟩
  have others {f : Field σ} (mem' : f ∈ s.fields) (other : f ≠ g) :
      f.Shows s.default x ((some key, v) :: ms) ↔ f.Shows s.default x ms := by
    have unnamed : f.name.names (some key) = false :=
      Bool.eq_false_iff.2 fun named' => other (eq_of_names mem' mem named' named)
    simp only [Field.Shows, FieldName.find_cons_of_not unnamed]
  rw [read_object, List.forall_mem_cons]
  constructor
  · rintro ⟨⟨-, all⟩, each⟩
    obtain ⟨taken, alone⟩ := shows.1 (each g mem)
    exact ⟨taken, alone, all, fun f mem' other => (others mem' other).1 (each f mem')⟩
  · rintro ⟨taken, alone, all, each⟩
    refine ⟨⟨rfl, all⟩, fun f mem' => ?_⟩
    by_cases same : f = g
    · rw [same]
      exact shows.2 ⟨taken, alone⟩
    · exact (others mem' same).2 (each f mem' same)

theorem mem_schema {name : FieldName} {shape : Schema} {default : Option Json}
    (mem : (name, shape, default) ∈ s.fields.map (·.entry s.default)) :
    ∃ f ∈ s.fields, f.name = name ∧ f.codec.schema = shape ∧
      s.default.map (fun d => f.codec.write (f.get d)) = default := by
  obtain ⟨f, mem, same⟩ := List.mem_map.1 mem
  exact ⟨f, mem, by simpa [Field.entry] using same⟩

theorem restyle (h : Restyle s.schema j k) (read : s.read j = some x) : s.read k = some x := by
  generalize same : s.schema = shape at h
  induction h with
  | refl => exact read
  | trans _ _ first second => exact second (first read same) same
  | @permute fields ms ns perm =>
    rw [read_object] at read ⊢
    refine ⟨fun m mem => read.1 m (perm.mem_iff.2 mem), fun f mem => ?_⟩
    rw [Field.Shows, ← FieldName.find_perm perm]
    exact read.2 f mem
  | rename field named named' =>
    cases same
    obtain ⟨g, mem, rfl, -⟩ := mem_schema field
    rw [read_cons mem named] at read
    exact (read_cons mem named').2 read
  | insert unknown =>
    cases same
    rw [read_object] at read ⊢
    refine ⟨List.forall_mem_cons.2 ⟨rfl, read.1⟩, fun f mem => ?_⟩
    have other : f.name.names _ = false := unknown (f.entry s.default) (List.mem_map_of_mem mem)
    rw [Field.Shows, FieldName.find_cons_of_not other]
    exact read.2 f mem
  | leave field named value _ =>
    cases same
    obtain ⟨g, mem, rfl, rfl, default⟩ := mem_schema field
    obtain ⟨d, given, rfl⟩ := Option.map_eq_some_iff.1 default
    obtain ⟨taken, alone, all, each⟩ := (read_cons mem named).1 read
    -- the value that is left out and the default read alike
    have fits := s.fits (s.default_fits d given) g mem
    rw [g.codec.restyle value (g.codec.read_write fits)] at taken
    refine read_object.2 ⟨all, fun f mem' => ?_⟩
    by_cases other : f = g
    · subst other
      exact ⟨none, alone, by rw [given]; exact taken⟩
    · exact each f mem' other
  | inside field named value _ =>
    cases same
    obtain ⟨g, mem, rfl, rfl, -⟩ := mem_schema field
    obtain ⟨taken, rest⟩ := (read_cons mem named).1 read
    exact (read_cons mem named).2 ⟨g.codec.restyle value taken, rest⟩
  | _ => cases same

theorem read_array {es : List Json} {place : Nat} (read : s.read (.array es) = some x)
    (field : s.fields[place]? = some f) (given : es[place]? = some v) :
    f.codec.read v = some (f.get x) := by
  obtain ⟨all, fields, taken⟩ := s.reads.1 read
  rw [Json.fields] at fields
  split_ifs at fields
  cases fields
  obtain ⟨bound, rfl⟩ := List.getElem?_eq_some_iff.1 field
  obtain ⟨bound', rfl⟩ := List.getElem?_eq_some_iff.1 given
  have taken := taken.get bound (by simp; omega)
  simpa [List.getElem_append_left, bound', Field.take] using taken

theorem doubled (h : Doubled s.schema j) : s.read j = none := by
  rw [Option.eq_none_iff_forall_ne_some]
  intro x read
  cases h with
  | here field named named' =>
    obtain ⟨g, mem, rfl, -⟩ := mem_schema field
    obtain ⟨given, found, -⟩ := (read_object.1 read).2 g mem
    rw [FieldName.find_twice named named'] at found
    cases found
  | member field mem' named value =>
    obtain ⟨g, mem, rfl, rfl, -⟩ := mem_schema field
    obtain ⟨given, found, taken⟩ := (read_object.1 read).2 g mem
    rw [FieldName.find_of_mem found mem' named, Field.take, g.codec.doubled value] at taken
    cases taken
  | position field given value =>
    rw [List.getElem?_map, Option.map_eq_some_iff] at field
    obtain ⟨g, field, same⟩ := field
    cases same
    have taken := read_array read field given
    rw [g.codec.doubled value] at taken
    cases taken

theorem find_write (mem : f ∈ s.fields) :
    f.name.find (s.fields.map fun g => (some g.name.name, g.codec.write (g.get x))) =
      some (some (f.codec.write (f.get x))) := by
  obtain ⟨before, behind, fields⟩ := List.append_of_mem mem
  have distinct : ((f :: (before ++ behind)).flatMap fun g => g.name.keys).Nodup := by
    refine (List.Perm.flatMap_right _ ?_).nodup_iff.1 s.distinct
    rw [fields]
    exact List.perm_middle
  rw [List.flatMap_cons, List.nodup_append] at distinct
  rw [fields, FieldName.find_perm (List.perm_middle.map _), List.map_cons,
    FieldName.find_cons (FieldName.names_iff.2 List.mem_cons_self)]
  refine ⟨FieldName.find_of_not ?_, rfl⟩
  simp only [List.forall_mem_map]
  intro g other
  rw [Bool.eq_false_iff, ne_eq, FieldName.names_iff]
  intro named
  refine distinct.2.2 _ named g.name.name ?_ rfl
  exact List.mem_flatMap.2 ⟨g, other, List.mem_cons_self⟩

theorem read_write (fits : s.Fits x) : s.read (s.write x) = some x := by
  rw [s.writes, Json.record, List.map_map, read_object]
  refine ⟨by simp only [List.forall_mem_map]; exact fun _ _ => rfl, fun f mem => ?_⟩
  exact ⟨_, find_write mem, f.codec.read_write (s.fits fits f mem)⟩

variable (s)

def codec : Codec σ where
  schema := s.schema
  read := s.read
  write := s.write
  Fits := s.Fits
  grammatical x := by
    rw [s.writes]
    refine .object ?_
    simp only [List.map_map, List.forall_mem_map]
    exact fun f _ => f.codec.grammatical (f.get x)
  read_write := read_write
  restyle := restyle
  doubled := doubled

end Section

end Expander
