import Expander.Json.Reader
import Mathlib.Data.List.TakeWhile

/-!
The grammar of JSON, and the reader.

A text spells a document when the grammar derives it, with blanks wherever the grammar has them
(`Json.Spelled`). The reader finds the document of every text that spells one
(`Json.parse_spelled`).
-/

set_option autoImplicit false

namespace Expander.Json

def Blanks (cs : List Char) : Prop := ∀ c ∈ cs, isBlank c = true

/-- The text between the quotes of a string literal. -/
inductive Literal : List StringPart → List Char → Prop
  | nil : Literal [] []
  | char {c : Char} {parts cs} (printable : 32 ≤ c.toNat) (quote : c ≠ '"') (escape : c ≠ '\\')
      (rest : Literal parts cs) : Literal (.char c :: parts) (c :: cs)
  | escape {letter c : Char} {parts cs} (denotes : escaped letter = some c)
      (rest : Literal parts cs) : Literal (.char c :: parts) ('\\' :: letter :: cs)
  | unit {a b c d : Char} {code : Nat} {parts cs} (denotes : hexValue4 a b c d = some code)
      (rest : Literal parts cs) :
      Literal (.unit code :: parts) ('\\' :: 'u' :: a :: b :: c :: d :: cs)

/-- One or more digits. -/
structure Digits (cs : List Char) : Prop where
  some : cs ≠ []
  all : ∀ c ∈ cs, c.isDigit = true

/-- The whole part of a numeral. -/
inductive Whole : List Char → Prop
  | zero : Whole ['0']
  | digits {c : Char} {cs : List Char} (leading : c ≠ '0') (digits : Digits (c :: cs)) :
      Whole (c :: cs)

inductive Fraction : List Char → Prop
  | none : Fraction []
  | some {cs : List Char} (digits : Digits cs) : Fraction ('.' :: cs)

/-- The exponent of a numeral. -/
inductive Scale : List Char → Prop
  | none : Scale []
  | some {mark : Char} {sign cs : List Char} (letter : mark = 'e' ∨ mark = 'E')
      (signed : sign = [] ∨ sign = ['+'] ∨ sign = ['-']) (digits : Digits cs) :
      Scale (mark :: (sign ++ cs))

/-- Numerals, and the documents that they are. -/
inductive Numeral : Json → List Char → Prop
  | number {cs : List Char} (whole : Whole cs) : Numeral (.number (digitsValue cs)) cs
  | decimal {sign whole fraction scale : List Char} (signed : sign = [] ∨ sign = ['-'])
      (isWhole : Whole whole) (isFraction : Fraction fraction) (isScale : Scale scale)
      (more : sign ≠ [] ∨ fraction ≠ [] ∨ scale ≠ []) :
      Numeral (.decimal (String.ofList (sign ++ (whole ++ (fraction ++ scale)))))
        (sign ++ (whole ++ (fraction ++ scale)))

def textOf (parts : List StringPart) : Option String := (assemble parts).map String.ofList

mutual

/-- The texts of a document. -/
inductive Spells : Json → List Char → Prop
  | null : Spells .null ['n', 'u', 'l', 'l']
  | isTrue : Spells (.bool true) ['t', 'r', 'u', 'e']
  | isFalse : Spells (.bool false) ['f', 'a', 'l', 's', 'e']
  | numeral {j : Json} {cs : List Char} (numeral : Numeral j cs) : Spells j cs
  | string {parts : List StringPart} {cs : List Char} (literal : Literal parts cs) :
      Spells (.string (textOf parts)) ('"' :: (cs ++ ['"']))
  | noElements {blanks : List Char} (blank : Blanks blanks) :
      Spells (.array []) ('[' :: (blanks ++ [']']))
  | array {es : List Json} {cs : List Char} (elements : SpellsElements es cs) :
      Spells (.array es) ('[' :: (cs ++ [']']))
  | noMembers {blanks : List Char} (blank : Blanks blanks) :
      Spells (.object []) ('\x7b' :: (blanks ++ ['\x7d']))
  | object {ms : List (Option String × Json)} {cs : List Char} (members : SpellsMembers ms cs) :
      Spells (.object ms) ('\x7b' :: (cs ++ ['\x7d']))

/-- The texts of one or more elements. -/
inductive SpellsElements : List Json → List Char → Prop
  | last {e : Json} {before cs behind : List Char} (isBefore : Blanks before)
      (element : Spells e cs) (isBehind : Blanks behind) :
      SpellsElements [e] (before ++ (cs ++ behind))
  | more {e : Json} {es : List Json} {before cs behind rest : List Char} (isBefore : Blanks before)
      (element : Spells e cs) (isBehind : Blanks behind) (elements : SpellsElements es rest) :
      SpellsElements (e :: es) (before ++ (cs ++ (behind ++ ',' :: rest)))

/-- The texts of one or more members. -/
inductive SpellsMembers : List (Option String × Json) → List Char → Prop
  | last {parts : List StringPart} {v : Json} {key cs before colon blanks behind : List Char}
      (isBefore : Blanks before) (literal : Literal parts key) (isColon : Blanks colon)
      (isBlank : Blanks blanks) (isValue : Spells v cs) (isBehind : Blanks behind) :
      SpellsMembers [(textOf parts, v)]
        (before ++ '"' :: (key ++ '"' :: (colon ++ ':' :: (blanks ++ (cs ++ behind)))))
  | more {parts : List StringPart} {v : Json} {ms : List (Option String × Json)}
      {key cs before colon blanks behind rest : List Char}
      (isBefore : Blanks before) (literal : Literal parts key) (isColon : Blanks colon)
      (isBlank : Blanks blanks) (isValue : Spells v cs) (isBehind : Blanks behind)
      (members : SpellsMembers ms rest) :
      SpellsMembers ((textOf parts, v) :: ms)
        (before ++ '"' ::
          (key ++ '"' :: (colon ++ ':' :: (blanks ++ (cs ++ (behind ++ ',' :: rest))))))

end

theorem escaped_unit : escaped 'u' = none := by decide

theorem stringParts_literal {parts : List StringPart} {cs : List Char} (h : Literal parts cs)
    (rest : List Char) : stringParts (cs ++ '"' :: rest) = some (parts, rest) := by
  induction h with
  | nil => simp [stringParts]
  | @char c parts cs printable quote escape _ ih =>
    have low : ¬ c.toNat < 32 := Nat.not_lt.2 printable
    rw [List.cons_append, stringParts.eq_def]
    split <;> simp_all
  | @escape letter c parts cs denotes _ ih =>
    have other : letter ≠ 'u' := by
      rintro rfl
      rw [escaped_unit] at denotes
      cases denotes
    rw [List.cons_append, List.cons_append, stringParts]
    · simp [denotes, ih]
    · exact fun _ _ _ _ _ same => absurd same other
  | @unit a b c d code parts cs denotes _ ih =>
    simp [stringParts, denotes, ih]

theorem stringBody_literal {parts : List StringPart} {cs : List Char} (h : Literal parts cs)
    (rest : List Char) : stringBody (cs ++ '"' :: rest) = some (textOf parts, rest) := by
  rw [stringBody, stringParts_literal h]
  rfl

theorem isDigits_digits {cs : List Char} (h : Digits cs) : isDigits cs = true := by
  simpa [isDigits, h.some] using h.all

theorem digits_whole {cs : List Char} (h : Whole cs) : Digits cs := by
  cases h with
  | zero => exact ⟨nofun, List.forall_mem_singleton.2 rfl⟩
  | digits _ digits => exact digits

theorem isWhole_whole {cs : List Char} (h : Whole cs) : isWhole cs = true := by
  cases h with
  | zero => rfl
  | digits leading digits =>
    rw [isWhole]
    · exact isDigits_digits digits
    · simp [leading]
    · simp [leading]

theorem isDigit_of_isWhole {cs : List Char} (h : isWhole cs = true) :
    ∀ c ∈ cs, c.isDigit = true := by
  rw [isWhole.eq_def] at h
  split at h
  · exact List.forall_mem_singleton.2 rfl
  · cases h
  · rw [isDigits, Bool.and_eq_true, List.all_eq_true] at h
    exact h.2

theorem digit_ne_sign {c : Char} (digit : c.isDigit = true) :
    c ≠ '-' ∧ c ≠ '+' ∧ c ≠ '.' ∧ c ≠ 'e' ∧ c ≠ 'E' := by
  refine ⟨?_, ?_, ?_, ?_, ?_⟩ <;>
    · rintro rfl
      cases digit

theorem isExponent_signed {sign cs : List Char} (signed : sign = [] ∨ sign = ['+'] ∨ sign = ['-'])
    (digits : Digits cs) : isExponent (sign ++ cs) = true := by
  have all := isDigits_digits digits
  rcases signed with rfl | rfl | rfl
  · obtain ⟨c, cs, rfl⟩ := List.exists_cons_of_ne_nil digits.some
    obtain ⟨minus, plus, -⟩ := digit_ne_sign (digits.all c List.mem_cons_self)
    rw [List.nil_append, isExponent]
    · exact all
    · simpa using plus
    · simpa using minus
  · exact all
  · exact all

theorem isScale_scale {cs : List Char} (h : Scale cs) : isScale cs = true := by
  cases h with
  | none => rfl
  | some letter signed digits =>
    rw [isScale, isExponent_signed signed digits, Bool.and_true, isExponentMark]
    rcases letter with rfl | rfl <;> rfl

theorem takeWhile_scale {digits scale : List Char} (all : ∀ c ∈ digits, c.isDigit = true)
    (h : Scale scale) : (digits ++ scale).takeWhile Char.isDigit = digits ∧
      (digits ++ scale).dropWhile Char.isDigit = scale := by
  rw [List.takeWhile_append_of_pos all, List.dropWhile_append_of_pos all]
  cases h with
  | none => exact ⟨List.append_nil _, rfl⟩
  | some letter signed _ =>
    rcases letter with rfl | rfl <;> exact ⟨List.append_nil _, rfl⟩

theorem isTail_fraction {fraction scale : List Char} (h : Fraction fraction) (h' : Scale scale) :
    isTail (fraction ++ scale) = true := by
  have isScale := isScale_scale h'
  cases h with
  | none =>
    cases h' with
    | none => rfl
    | some letter signed digits => rcases letter with rfl | rfl <;> exact isScale
  | some digits =>
    obtain ⟨taken, dropped⟩ := takeWhile_scale digits.all h'
    rw [List.cons_append, isTail, taken, dropped, isDigits_digits digits, isScale]
    rfl

theorem takeWhile_fraction {whole fraction scale : List Char}
    (all : ∀ c ∈ whole, c.isDigit = true) (h : Fraction fraction) (h' : Scale scale) :
    (whole ++ (fraction ++ scale)).takeWhile Char.isDigit = whole ∧
      (whole ++ (fraction ++ scale)).dropWhile Char.isDigit = fraction ++ scale := by
  cases h with
  | none => exact takeWhile_scale all h'
  | some digits =>
    rw [List.takeWhile_append_of_pos all, List.dropWhile_append_of_pos all]
    exact ⟨List.append_nil _, rfl⟩

theorem isUnsigned_parts {whole fraction scale : List Char} (h : Whole whole)
    (h' : Fraction fraction) (h'' : Scale scale) :
    isUnsigned (whole ++ (fraction ++ scale)) = true := by
  obtain ⟨taken, dropped⟩ := takeWhile_fraction (digits_whole h).all h' h''
  rw [isUnsigned, taken, dropped, isWhole_whole h, isTail_fraction h' h'']
  rfl

theorem not_isWhole {sign whole fraction scale : List Char} (signed : sign = [] ∨ sign = ['-'])
    (h : Fraction fraction) (h' : Scale scale) (more : sign ≠ [] ∨ fraction ≠ [] ∨ scale ≠ []) :
    isWhole (sign ++ (whole ++ (fraction ++ scale))) = false := by
  rw [Bool.eq_false_iff]
  intro plain
  have digit := isDigit_of_isWhole plain
  have none {c : Char} (mem : c ∈ sign ++ (whole ++ (fraction ++ scale)))
      (other : c.isDigit = false) : False := by
    rw [digit c mem] at other
    cases other
  rcases more with sign' | fraction' | scale'
  · rcases signed with rfl | rfl
    · exact sign' rfl
    · exact none (c := '-') (by simp) rfl
  · cases h with
    | none => exact fraction' rfl
    | some digits => exact none (c := '.') (by simp) rfl
  · cases h' with
    | none => exact scale' rfl
    | some letter signed digits =>
      rcases letter with rfl | rfl
      · exact none (c := 'e') (by simp) rfl
      · exact none (c := 'E') (by simp) rfl

theorem numeral_numeral {j : Json} {cs : List Char} (h : Numeral j cs) : numeral cs = some j := by
  rw [numeral.eq_def]
  cases h with
  | number whole => rw [if_pos (isWhole_whole whole)]
  | @decimal sign whole fraction scale signed isWhole isFraction isScale more =>
    have unsigned := isUnsigned_parts isWhole isFraction isScale
    have other : ¬ Json.isWhole (sign ++ (whole ++ (fraction ++ scale))) = true := by
      rw [not_isWhole signed isFraction isScale more]
      exact nofun
    rw [if_neg other]
    rcases signed with rfl | rfl
    · obtain ⟨c, whole, rfl⟩ := List.exists_cons_of_ne_nil (digits_whole isWhole).some
      have minus := (digit_ne_sign ((digits_whole isWhole).all c List.mem_cons_self)).1
      simp only
      split
      next same => simp [minus] at same
      next => rw [if_pos (by exact unsigned)]
    · exact if_pos unsigned

def Stops (cs : List Char) : Prop := ∀ c ∈ cs.head?, isNumeralChar c = false

theorem isNumeralChar_of_isBlank {c : Char} (h : isBlank c = true) : isNumeralChar c = false := by
  simp only [isBlank, Bool.or_eq_true, beq_iff_eq] at h
  rcases h with ((rfl | rfl) | rfl) | rfl <;> rfl

theorem stops_blanks {blanks rest : List Char} (h : Blanks blanks) (stops : Stops rest) :
    Stops (blanks ++ rest) := by
  cases blanks with
  | nil => exact stops
  | cons c blanks =>
    intro c' first
    cases first
    exact isNumeralChar_of_isBlank (h c List.mem_cons_self)

theorem skipBlanks_blanks {blanks rest : List Char} (h : Blanks blanks)
    (first : ∀ c ∈ rest.head?, isBlank c = false) : skipBlanks (blanks ++ rest) = rest := by
  rw [skipBlanks, List.dropWhile_append_of_pos h]
  cases rest with
  | nil => rfl
  | cons c rest => exact List.dropWhile_cons_of_neg (by simp [first c rfl])

theorem isNumeralChar_digits {cs : List Char} (all : ∀ c ∈ cs, c.isDigit = true) :
    ∀ c ∈ cs, isNumeralChar c = true := fun c mem => by simp [isNumeralChar, all c mem]

theorem isNumeralChar_fraction {cs : List Char} (h : Fraction cs) :
    ∀ c ∈ cs, isNumeralChar c = true := by
  cases h with
  | none => exact nofun
  | some digits => exact List.forall_mem_cons.2 ⟨rfl, isNumeralChar_digits digits.all⟩

theorem isNumeralChar_scale {cs : List Char} (h : Scale cs) :
    ∀ c ∈ cs, isNumeralChar c = true := by
  cases h with
  | none => exact nofun
  | @some mark sign cs letter signed digits =>
    have mark' : isNumeralChar mark = true := by rcases letter with rfl | rfl <;> rfl
    have sign' : ∀ c ∈ sign, isNumeralChar c = true := by
      rcases signed with rfl | rfl | rfl
      · exact nofun
      · exact List.forall_mem_singleton.2 rfl
      · exact List.forall_mem_singleton.2 rfl
    exact List.forall_mem_cons.2
      ⟨mark', List.forall_mem_append.2 ⟨sign', isNumeralChar_digits digits.all⟩⟩

theorem isNumeralChar_numeral {j : Json} {cs : List Char} (h : Numeral j cs) :
    ∀ c ∈ cs, isNumeralChar c = true := by
  cases h with
  | number whole => exact isNumeralChar_digits (digits_whole whole).all
  | @decimal sign whole fraction scale signed isWhole isFraction isScale =>
    have sign' : ∀ c ∈ sign, isNumeralChar c = true := by
      rcases signed with rfl | rfl
      · exact nofun
      · exact List.forall_mem_singleton.2 rfl
    have whole' := isNumeralChar_digits (digits_whole isWhole).all
    exact List.forall_mem_append.2 ⟨sign', List.forall_mem_append.2 ⟨whole',
      List.forall_mem_append.2 ⟨isNumeralChar_fraction isFraction, isNumeralChar_scale isScale⟩⟩⟩

theorem first_numeral {j : Json} {cs : List Char} (h : Numeral j cs) :
    ∀ c ∈ cs.head?, c.isDigit = true ∨ c = '-' := by
  have first {cs : List Char} (whole : Whole cs) (rest : List Char) :
      ∀ c ∈ (cs ++ rest).head?, c.isDigit = true := by
    obtain ⟨d, cs, rfl⟩ := List.exists_cons_of_ne_nil (digits_whole whole).some
    rintro c ⟨⟩
    exact (digits_whole whole).all d List.mem_cons_self
  cases h with
  | number whole => exact fun c head => .inl (first whole [] c (by simpa using head))
  | decimal signed whole =>
    rcases signed with rfl | rfl
    · exact fun c head => .inl (first whole _ c head)
    · rintro c ⟨⟩
      exact .inr rfl

theorem span_numeral {j : Json} {cs rest : List Char} (h : Numeral j cs) (stops : Stops rest) :
    (cs ++ rest).takeWhile isNumeralChar = cs ∧ (cs ++ rest).dropWhile isNumeralChar = rest := by
  have all := isNumeralChar_numeral h
  rw [List.takeWhile_append_of_pos all, List.dropWhile_append_of_pos all]
  cases rest with
  | nil => exact ⟨List.append_nil _, rfl⟩
  | cons c rest =>
    have stop : ¬ isNumeralChar c = true := by simp [stops c rfl]
    rw [List.takeWhile_cons_of_neg stop, List.dropWhile_cons_of_neg stop]
    exact ⟨List.append_nil _, rfl⟩

theorem isBlank_of_isNumeralChar {c : Char} (h : isNumeralChar c = true) : isBlank c = false := by
  rw [Bool.eq_false_iff]
  intro blank
  rw [isNumeralChar_of_isBlank blank] at h
  cases h

theorem first_spells {j : Json} {cs : List Char} (h : Spells j cs) :
    ∃ c tail, cs = c :: tail ∧ isBlank c = false ∧ c ≠ ']' := by
  cases h with
  | numeral numeral =>
    cases cs with
    | nil =>
      have none := numeral_numeral numeral
      cases none
    | cons c tail =>
      have all := isNumeralChar_numeral numeral
      refine ⟨c, tail, rfl, isBlank_of_isNumeralChar (all c List.mem_cons_self), ?_⟩
      rintro rfl
      rcases first_numeral numeral ']' rfl with digit | sign
      · cases digit
      · cases sign
  | _ => exact ⟨_, _, rfl, rfl, by decide⟩

theorem skipBlanks_spells {j : Json} {cs before : List Char} (h : Spells j cs)
    (blank : Blanks before) (rest : List Char) :
    skipBlanks (before ++ (cs ++ rest)) = cs ++ rest := by
  obtain ⟨c, tail, rfl, token, -⟩ := first_spells h
  refine skipBlanks_blanks blank ?_
  rintro c' ⟨⟩
  exact token

theorem skipBlanks_token {blanks rest : List Char} {c : Char} (h : Blanks blanks)
    (token : isBlank c = false) : skipBlanks (blanks ++ c :: rest) = c :: rest := by
  refine skipBlanks_blanks h ?_
  rintro c' ⟨⟩
  exact token

theorem first_elements {es : List Json} {cs : List Char} (h : SpellsElements es cs)
    (rest : List Char) : ∃ c tail, skipBlanks (cs ++ rest) = c :: tail ∧ c ≠ ']' := by
  cases h with
  | last isBefore element _ =>
    obtain ⟨c, tail, rfl, -, other⟩ := first_spells element
    simp only [List.append_assoc, skipBlanks_spells element isBefore]
    exact ⟨c, _, rfl, other⟩
  | more isBefore element _ _ =>
    obtain ⟨c, tail, rfl, -, other⟩ := first_spells element
    simp only [List.append_assoc, skipBlanks_spells element isBefore]
    exact ⟨c, _, rfl, other⟩

theorem first_members {ms : List (Option String × Json)} {cs : List Char}
    (h : SpellsMembers ms cs) (rest : List Char) :
    ∃ tail, skipBlanks (cs ++ rest) = '"' :: tail := by
  cases h with
  | last isBefore _ _ _ _ _ =>
    simp only [List.append_assoc, List.cons_append]
    exact ⟨_, skipBlanks_token isBefore rfl⟩
  | more isBefore _ _ _ _ _ _ =>
    simp only [List.append_assoc, List.cons_append]
    exact ⟨_, skipBlanks_token isBefore rfl⟩

theorem value_numeral {c : Char} {rest cs : List Char} (text : skipBlanks cs = c :: rest)
    (first : c.isDigit = true ∨ c = '-') (fuel : Nat) :
    value (fuel + 1) cs = (Json.numeral ((c :: rest).takeWhile isNumeralChar)).map fun n =>
      (n, (c :: rest).dropWhile isNumeralChar) := by
  rw [value, text]
  split <;> simp_all

theorem value_array {rest behind cs : List Char} {es : List Json} {fuel : Nat}
    (text : skipBlanks cs = '[' :: rest)
    (first : ∃ c tail, skipBlanks rest = c :: tail ∧ c ≠ ']')
    (inside : elements fuel rest = some (es, behind)) :
    value (fuel + 1) cs = some (.array es, behind) := by
  obtain ⟨c, tail, start, other⟩ := first
  rw [value, text]
  simp only [start, inside]
  split
  next same => simp_all
  next => rfl

theorem value_object {rest behind cs tail : List Char} {ms : List (Option String × Json)}
    {fuel : Nat} (text : skipBlanks cs = '\x7b' :: rest) (first : skipBlanks rest = '"' :: tail)
    (inside : members fuel rest = some (ms, behind)) :
    value (fuel + 1) cs = some (.object ms, behind) := by
  rw [value, text]
  simp only [first, inside]
  rfl

mutual

/-- The reader reads every spelling of a document, whatever follows it. -/
theorem value_spells {j : Json} {cs before rest : List Char} (h : Spells j cs)
    (blank : Blanks before) (stops : Stops rest) {fuel : Nat} (enough : 2 * cs.length ≤ fuel) :
    value fuel (before ++ (cs ++ rest)) = some (j, rest) := by
  have text := skipBlanks_spells h blank rest
  obtain ⟨c, tail, start, -⟩ := first_spells h
  obtain ⟨fuel, rfl⟩ : ∃ f, fuel = f + 1 := ⟨fuel - 1, by grind⟩
  cases h with
  | null => rw [value, text]; rfl
  | isTrue => rw [value, text]; rfl
  | isFalse => rw [value, text]; rfl
  | numeral numeral =>
    obtain ⟨taken, dropped⟩ := span_numeral numeral stops
    have first := first_numeral numeral c (by rw [start]; rfl)
    subst start
    rw [List.cons_append] at text taken dropped
    rw [List.cons_append, value_numeral text first, taken, dropped, numeral_numeral numeral]
    rfl
  | @string parts cs literal =>
    rw [value, text]
    simp only [List.cons_append, List.append_assoc, List.nil_append, stringBody_literal literal]
    rfl
  | noElements blanks =>
    rw [value, text]
    simp only [List.cons_append, List.append_assoc, List.nil_append,
      skipBlanks_token (c := ']') blanks rfl]
  | @array es cs elements =>
    refine value_array (by simpa using text) (first_elements elements _) ?_
    exact elements_spells elements rest (by grind)
  | noMembers blanks =>
    rw [value, text]
    simp only [List.cons_append, List.append_assoc, List.nil_append,
      skipBlanks_token (c := '\x7d') blanks rfl]
  | @object ms cs members =>
    obtain ⟨tail, first⟩ := first_members members ('\x7d' :: rest)
    refine value_object (by simpa using text) first ?_
    exact members_spells members rest (by grind)

theorem elements_spells {es : List Json} {cs : List Char} (h : SpellsElements es cs)
    (rest : List Char) {fuel : Nat} (enough : 2 * cs.length + 1 ≤ fuel) :
    elements fuel (cs ++ ']' :: rest) = some (es, rest) := by
  obtain ⟨fuel, rfl⟩ : ∃ f, fuel = f + 1 := ⟨fuel - 1, by grind⟩
  cases h with
  | @last e before cs behind isBefore element isBehind =>
    have stops : Stops (behind ++ ']' :: rest) := stops_blanks isBehind (by rintro c ⟨⟩; rfl)
    have first : value fuel _ = _ := value_spells element isBefore stops (by grind)
    simp only [List.append_assoc, elements, first, skipBlanks_token (c := ']') isBehind rfl]
  | @more e es before cs behind others isBefore element isBehind elements =>
    have stops : Stops (behind ++ ',' :: (others ++ ']' :: rest)) :=
      stops_blanks isBehind (by rintro c ⟨⟩; rfl)
    have first : value fuel _ = _ := value_spells element isBefore stops (by grind)
    have more : Json.elements fuel _ = _ := elements_spells elements rest (by grind)
    simp only [List.append_assoc, List.cons_append, Json.elements, first,
      skipBlanks_token (c := ',') isBehind rfl, more]
    rfl

theorem members_spells {ms : List (Option String × Json)} {cs : List Char}
    (h : SpellsMembers ms cs) (rest : List Char) {fuel : Nat} (enough : 2 * cs.length + 1 ≤ fuel) :
    members fuel (cs ++ '\x7d' :: rest) = some (ms, rest) := by
  obtain ⟨fuel, rfl⟩ : ∃ f, fuel = f + 1 := ⟨fuel - 1, by grind⟩
  cases h with
  | @last parts v key cs before colon blanks behind isBefore literal isColon isBlank isValue
      isBehind =>
    have stops : Stops (behind ++ '\x7d' :: rest) := stops_blanks isBehind (by rintro c ⟨⟩; rfl)
    have first : value fuel _ = _ := value_spells isValue isBlank stops (by grind)
    simp only [List.append_assoc, List.cons_append, Json.members,
      skipBlanks_token (c := '"') isBefore rfl, stringBody_literal literal,
      skipBlanks_token (c := ':') isColon rfl, first,
      skipBlanks_token (c := '\x7d') isBehind rfl]
  | @more parts v ms key cs before colon blanks behind others isBefore literal isColon isBlank
      isValue isBehind members =>
    have stops : Stops (behind ++ ',' :: (others ++ '\x7d' :: rest)) :=
      stops_blanks isBehind (by rintro c ⟨⟩; rfl)
    have first : value fuel _ = _ := value_spells isValue isBlank stops (by grind)
    have more : Json.members fuel _ = _ := members_spells members rest (by grind)
    simp only [List.append_assoc, List.cons_append, Json.members,
      skipBlanks_token (c := '"') isBefore rfl, stringBody_literal literal,
      skipBlanks_token (c := ':') isColon rfl, first,
      skipBlanks_token (c := ',') isBehind rfl, more]
    rfl

end

/-- The texts of a document, with blanks around it. -/
def Spelled (j : Json) (text : String) : Prop :=
  ∃ before cs behind, Blanks before ∧ Spells j cs ∧ Blanks behind ∧
    text.toList = before ++ (cs ++ behind)

theorem parse_spelled {j : Json} {text : String} (h : Spelled j text) : parse text = some j := by
  obtain ⟨before, cs, behind, isBefore, spells, isBehind, text⟩ := h
  have stops : Stops (behind ++ []) := stops_blanks isBehind nofun
  have nothing : skipBlanks (behind ++ []) = [] := skipBlanks_blanks isBehind nofun
  rw [List.append_nil] at stops nothing
  rw [parse, text, value_spells spells isBefore stops (by grind)]
  simp [nothing]

end Expander.Json
