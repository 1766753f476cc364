import Expander.Proofs.Json.Spelling

/-!
The writers, and the grammar of JSON.

What the writers write for a document spells it (`Json.spelled_render`, `Json.spelled_pretty`), so
that the reader reads it back. What the document keeps as written has to be a numeral
(`Json.Grammatical`).
-/

set_option autoImplicit false

namespace Expander.Json

/-- Documents in which what is kept as written is a numeral. -/
inductive Grammatical : Json → Prop
  | null : Grammatical .null
  | bool (b : Bool) : Grammatical (.bool b)
  | number (n : Nat) : Grammatical (.number n)
  | decimal {s : String} (numeral : Numeral (.decimal s) s.toList) : Grammatical (.decimal s)
  | string (text : Option String) : Grammatical (.string text)
  | array {es : List Json} (elements : ∀ e ∈ es, Grammatical e) : Grammatical (.array es)
  | object {ms : List (Option String × Json)} (members : ∀ m ∈ ms, Grammatical m.2) :
      Grammatical (.object ms)

theorem blanks_nil : Blanks [] := nofun

theorem assemble_unit {code : Nat} (high : isHighSurrogate code = false)
    (low : isLowSurrogate code = false) (parts : List StringPart) :
    assemble (.unit code :: parts) = (assemble parts).map (Char.ofNat code :: ·) := by
  rcases parts with _ | ⟨_ | next, parts⟩ <;> simp [assemble, high, low]

theorem hexValue4_control {n : Nat} (control : n < 32) :
    hexValue4 '0' '0' (Nat.digitChar (n / 16)) (Nat.digitChar (n % 16)) = some n := by
  revert n
  decide

theorem literal_escape (c : Char) : ∃ part,
    (∀ {parts cs}, Literal parts cs → Literal (part :: parts) (escape c ++ cs)) ∧
      ∀ parts, assemble (part :: parts) = (assemble parts).map (c :: ·) := by
  have short {letter : Char} (denotes : escaped letter = some c) : ∃ part,
      (∀ {parts cs}, Literal parts cs → Literal (part :: parts) (['\\', letter] ++ cs)) ∧
        ∀ parts, assemble (part :: parts) = (assemble parts).map (c :: ·) :=
    ⟨.char c, fun literal => .escape denotes literal, fun _ => rfl⟩
  rw [escape]
  split_ifs with quote slash newline carriage tab back form control
  · exact short (by rw [quote]; rfl)
  · exact short (by rw [slash]; rfl)
  · exact short (by rw [newline]; rfl)
  · exact short (by rw [carriage]; rfl)
  · exact short (by rw [tab]; rfl)
  · exact short (by rw [← Char.ofNat_toNat c, back]; rfl)
  · exact short (by rw [← Char.ofNat_toNat c, form]; rfl)
  · refine ⟨.unit c.toNat, .unit (hexValue4_control control), fun parts => ?_⟩
    have plain : isHighSurrogate c.toNat = false ∧ isLowSurrogate c.toNat = false := by
      simp only [isHighSurrogate, isLowSurrogate, decide_eq_false_iff_not]
      omega
    rw [assemble_unit plain.1 plain.2, Char.ofNat_toNat]
  · exact ⟨.char c, fun literal => .char (Nat.not_lt.1 control) quote slash literal, fun _ => rfl⟩

theorem literal_escapes (cs : List Char) :
    ∃ parts, Literal parts (cs.flatMap escape) ∧ assemble parts = some cs := by
  induction cs with
  | nil => exact ⟨[], .nil, rfl⟩
  | cons c cs ih =>
    obtain ⟨parts, literal, denotes⟩ := ih
    obtain ⟨part, extend, denotes'⟩ := literal_escape c
    refine ⟨part :: parts, ?_, by rw [denotes', denotes]; rfl⟩
    rw [List.flatMap_cons]
    exact extend literal

theorem literal_quoted (s : Option String) :
    ∃ parts cs, quoted s = '"' :: (cs ++ ['"']) ∧ Literal parts cs ∧ textOf parts = s := by
  cases s with
  | none =>
    exact ⟨[.unit 0xD800], ['\\', 'u', 'd', '8', '0', '0'], rfl, .unit (by decide) .nil, rfl⟩
  | some s =>
    obtain ⟨parts, literal, denotes⟩ := literal_escapes s.toList
    refine ⟨parts, _, rfl, literal, ?_⟩
    rw [textOf, denotes, Option.map_some, String.ofList_toList]

theorem digitsValue_eq (cs : List Char) : digitsValue cs = Nat.ofDigitChars 10 cs 0 := by
  simp only [digitsValue, Nat.ofDigitChars, Nat.mul_comm]
  rfl

theorem digits_toDigits (n : Nat) : Digits (Nat.toDigits 10 n) :=
  ⟨Nat.toDigits_ne_nil, fun _ => Nat.isDigit_of_mem_toDigits (by decide) (by decide)⟩

theorem whole_toDigits (n : Nat) : Whole (Nat.toDigits 10 n) := by
  obtain rfl | positive := Nat.eq_zero_or_pos n
  · exact .zero
  suffices ∀ c ∈ (Nat.toDigits 10 n).head?, c ≠ '0' by
    obtain ⟨c, cs, text⟩ := List.exists_cons_of_ne_nil (digits_toDigits n).some
    rw [text] at this ⊢
    exact .digits (this c rfl) (text ▸ digits_toDigits n)
  induction n using Nat.strongRecOn with
  | ind n ih =>
    rw [Nat.toDigits_eq_if (by decide)]
    split_ifs with small
    · have leading : ∀ n < 10, 0 < n → Nat.digitChar n ≠ '0' := by decide
      rintro c ⟨⟩
      exact leading n small positive
    · have more : ∀ c ∈ (Nat.toDigits 10 (n / 10)).head?, c ≠ '0' :=
        ih (n / 10) (by omega) (by omega)
      obtain ⟨c, cs, text⟩ := List.exists_cons_of_ne_nil (digits_toDigits (n / 10)).some
      rw [text] at more ⊢
      exact more

theorem numeral_number (n : Nat) : Numeral (.number n) (Nat.toDigits 10 n) := by
  have numeral := Numeral.number (whole_toDigits n)
  rwa [digitsValue_eq, Nat.ofDigitChars_toDigits (by decide) (by decide)] at numeral

theorem spells_bool (b : Bool) : Spells (.bool b) (atom (.bool b)) := by
  cases b with
  | true => exact .isTrue
  | false => exact .isFalse

theorem spells_string (s : Option String) : Spells (.string s) (quoted s) := by
  obtain ⟨parts, cs, text, literal, denotes⟩ := literal_quoted s
  have spelled := Spells.string literal
  rwa [denotes, ← text] at spelled

section Sequences

variable {write : Json → List Char} {before behind : List Char}

theorem spells_array {tail : List Json → List Char} (isBefore : Blanks before)
    (isBehind : Blanks behind) (nil : tail [] = behind ++ [']'])
    (cons : ∀ e es, tail (e :: es) = ',' :: (before ++ (write e ++ tail es))) (e : Json)
    (es : List Json) (each : ∀ x ∈ e :: es, Spells x (write x)) :
    Spells (.array (e :: es)) ('[' :: (before ++ (write e ++ tail es))) := by
  suffices ∃ cs, before ++ (write e ++ tail es) = cs ++ [']'] ∧ SpellsElements (e :: es) cs by
    obtain ⟨cs, text, elements⟩ := this
    rw [text]
    exact .array elements
  induction es generalizing e with
  | nil =>
    exact ⟨before ++ (write e ++ behind), by simp [nil],
      .last isBefore (each e List.mem_cons_self) isBehind⟩
  | cons e' es ih =>
    obtain ⟨cs, text, elements⟩ := ih e' fun x mem => each x (List.mem_cons_of_mem _ mem)
    refine ⟨before ++ (write e ++ ([] ++ ',' :: cs)), by simp [cons, text], ?_⟩
    exact .more isBefore (each e List.mem_cons_self) blanks_nil elements

theorem spells_object {colon : List Char} {tail : List (Option String × Json) → List Char}
    (isBefore : Blanks before) (isColon : Blanks colon) (isBehind : Blanks behind)
    (nil : tail [] = behind ++ ['\x7d'])
    (cons : ∀ m ms, tail (m :: ms) =
      ',' :: (before ++ (quoted m.1 ++ ':' :: (colon ++ (write m.2 ++ tail ms)))))
    (m : Option String × Json) (ms : List (Option String × Json))
    (each : ∀ x ∈ m :: ms, Spells x.2 (write x.2)) :
    Spells (.object (m :: ms))
      ('\x7b' :: (before ++ (quoted m.1 ++ ':' :: (colon ++ (write m.2 ++ tail ms))))) := by
  suffices ∃ cs, before ++ (quoted m.1 ++ ':' :: (colon ++ (write m.2 ++ tail ms))) =
      cs ++ ['\x7d'] ∧ SpellsMembers (m :: ms) cs by
    obtain ⟨cs, text, members⟩ := this
    rw [text]
    exact .object members
  induction ms generalizing m with
  | nil =>
    obtain ⟨parts, key, text, literal, denotes⟩ := literal_quoted m.1
    have members := SpellsMembers.last isBefore literal blanks_nil isColon
      (each m List.mem_cons_self) isBehind
    rw [denotes] at members
    exact ⟨_, by simp [nil, text], members⟩
  | cons m' ms ih =>
    obtain ⟨parts, key, text, literal, denotes⟩ := literal_quoted m.1
    obtain ⟨cs, text', members⟩ := ih m' fun x mem => each x (List.mem_cons_of_mem _ mem)
    have members := SpellsMembers.more isBefore literal blanks_nil isColon
      (each m List.mem_cons_self) blanks_nil members
    rw [denotes] at members
    exact ⟨_, by simp [cons, text, text'], members⟩

end Sequences

theorem renderElements_cons (e : Json) (es : List Json) :
    renderElements (e :: es) = ',' :: ([] ++ (renderChars e ++ renderElements es)) := rfl

theorem spells_renderChars {j : Json} (h : Grammatical j) : Spells j (renderChars j) := by
  induction h with
  | null => exact .null
  | bool b => exact spells_bool b
  | number n => exact .numeral (numeral_number n)
  | decimal numeral => exact .numeral numeral
  | string s => exact spells_string s
  | @array es _ each =>
    cases es with
    | nil => exact .noElements blanks_nil
    | cons e es => exact spells_array blanks_nil blanks_nil rfl renderElements_cons e es each
  | @object ms _ each =>
    cases ms with
    | nil => exact .noMembers blanks_nil
    | cons m ms =>
      exact spells_object blanks_nil blanks_nil blanks_nil rfl (fun _ _ => rfl) m ms each

theorem blanks_newline (depth : Nat) : Blanks (newline depth) := by
  refine List.forall_mem_cons.2 ⟨rfl, fun c mem => ?_⟩
  rw [List.eq_of_mem_replicate mem]
  rfl

theorem spells_prettyChars {j : Json} (h : Grammatical j) (depth : Nat) :
    Spells j (prettyChars depth j) := by
  induction h generalizing depth with
  | null => exact .null
  | bool b => exact spells_bool b
  | number n => exact .numeral (numeral_number n)
  | decimal numeral => exact .numeral numeral
  | string s => exact spells_string s
  | @array es _ each =>
    cases es with
    | nil => exact .noElements blanks_nil
    | cons e es =>
      have elements : Spells _ ('[' :: (newline (depth + 1) ++
          (prettyChars (depth + 1) e ++ prettyElements depth es))) :=
        spells_array (blanks_newline (depth + 1)) (blanks_newline depth) rfl
          (fun e es => by simp [prettyElements]) e es fun x mem => each x mem (depth + 1)
      simpa [prettyChars] using elements
  | @object ms _ each =>
    cases ms with
    | nil => exact .noMembers blanks_nil
    | cons m ms =>
      have members : Spells _ ('\x7b' :: (newline (depth + 1) ++ (quoted m.1 ++ ':' :: ([' '] ++
          (prettyChars (depth + 1) m.2 ++ prettyMembers depth ms))))) :=
        spells_object (blanks_newline (depth + 1)) (List.forall_mem_singleton.2 rfl)
          (blanks_newline depth) rfl (fun m ms => by simp [prettyMembers]) m ms
          fun x mem => each x mem (depth + 1)
      simpa [prettyChars] using members

theorem spelled_render {j : Json} (h : Grammatical j) : Spelled j j.render :=
  ⟨[], renderChars j, [], blanks_nil, spells_renderChars h, blanks_nil, by simp [render]⟩

theorem spelled_pretty {j : Json} (h : Grammatical j) : Spelled j j.pretty :=
  ⟨[], prettyChars 0 j, [], blanks_nil, spells_prettyChars h 0, blanks_nil, by simp [pretty]⟩

end Expander.Json
