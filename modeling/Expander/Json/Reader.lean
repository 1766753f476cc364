import Expander.Json.Basic

/-!
Reading JSON text.

The reader follows the grammar without leniency: no blanks but the four of JSON, no leading zeros,
no control characters in strings, no trailing commas, nothing behind the document. Escapes of
surrogates are grammatical in any order; a string whose surrogates are not paired is read as
`Json.string none`.
-/

set_option autoImplicit false

namespace Expander.Json

/-- The blanks between tokens. -/
def isBlank (c : Char) : Bool := c == ' ' || c == '\t' || c == '\n' || c == '\r'

/-- The text behind leading blanks. -/
def skipBlanks (cs : List Char) : List Char := cs.dropWhile isBlank

inductive StringPart where
  | char (c : Char)
  | unit (code : Nat)
deriving DecidableEq, Repr

/-- The value of a hexadecimal digit of either case. -/
def hexValue (c : Char) : Option Nat :=
  if '0' ≤ c ∧ c ≤ '9' then some (c.toNat - 48)
  else if 'a' ≤ c ∧ c ≤ 'f' then some (c.toNat - 87)
  else if 'A' ≤ c ∧ c ≤ 'F' then some (c.toNat - 55)
  else none

/-- The value of four hexadecimal digits. -/
def hexValue4 (a b c d : Char) : Option Nat := do
  some ((((← hexValue a) * 16 + (← hexValue b)) * 16 + (← hexValue c)) * 16 + (← hexValue d))

/-- The character that a one-letter escape denotes. -/
def escaped (c : Char) : Option Char :=
  if c = '"' ∨ c = '\\' ∨ c = '/' then some c
  else if c = 'n' then some '\n'
  else if c = 'r' then some '\r'
  else if c = 't' then some '\t'
  else if c = 'b' then some (Char.ofNat 8)
  else if c = 'f' then some (Char.ofNat 12)
  else none

/-- The parts of a string literal up to its closing quote, and the text behind it. -/
def stringParts : List Char → Option (List StringPart × List Char)
  | [] => none
  | '"' :: rest => some ([], rest)
  | '\\' :: 'u' :: a :: b :: c :: d :: rest => do
    let code ← hexValue4 a b c d
    let (parts, behind) ← stringParts rest
    some (.unit code :: parts, behind)
  | '\\' :: e :: rest => do
    let c ← escaped e
    let (parts, behind) ← stringParts rest
    some (.char c :: parts, behind)
  | c :: rest => do
    if c.toNat < 32 then none
    let (parts, behind) ← stringParts rest
    some (.char c :: parts, behind)

/-- Whether a code unit starts a surrogate pair. -/
def isHighSurrogate (code : Nat) : Bool := decide (0xD800 ≤ code ∧ code < 0xDC00)

/-- Whether a code unit ends a surrogate pair. -/
def isLowSurrogate (code : Nat) : Bool := decide (0xDC00 ≤ code ∧ code < 0xE000)

/-- The text that the parts of a literal denote, unless a surrogate is not paired. -/
def assemble : List StringPart → Option (List Char)
  | [] => some []
  | .char c :: rest => (assemble rest).map (c :: ·)
  | .unit high :: .unit low :: rest =>
    if isHighSurrogate high then
      if isLowSurrogate low then
        (assemble rest).map
          (Char.ofNat (0x10000 + (high - 0xD800) * 0x400 + (low - 0xDC00)) :: ·)
      else none
    else if isLowSurrogate high then none
    else (assemble (.unit low :: rest)).map (Char.ofNat high :: ·)
  | .unit code :: rest =>
    if isHighSurrogate code || isLowSurrogate code then none
    else (assemble rest).map (Char.ofNat code :: ·)

/-- A string literal behind its opening quote. -/
def stringBody (cs : List Char) : Option (Option String × List Char) :=
  (stringParts cs).map fun r => ((assemble r.1).map String.ofList, r.2)

/-- Whether a character can stand in a numeral. -/
def isNumeralChar (c : Char) : Bool :=
  c.isDigit || c == '-' || c == '+' || c == '.' || c == 'e' || c == 'E'

/-- Whether some characters are one or more digits. -/
def isDigits (cs : List Char) : Bool := !cs.isEmpty && cs.all Char.isDigit

/-- Whether some characters are the whole part of a numeral: digits without a leading zero. -/
def isWhole : List Char → Bool
  | ['0'] => true
  | '0' :: _ => false
  | cs => isDigits cs

/-- Whether some characters are the exponent of a numeral behind its letter. -/
def isExponent : List Char → Bool
  | '+' :: cs => isDigits cs
  | '-' :: cs => isDigits cs
  | cs => isDigits cs

/-- Whether a character starts the exponent of a numeral. -/
def isExponentMark (c : Char) : Bool := c == 'e' || c == 'E'

/-- Whether some characters are nothing or the exponent of a numeral. -/
def isScale : List Char → Bool
  | [] => true
  | mark :: cs => isExponentMark mark && isExponent cs

/-- Whether some characters are what may stand behind the whole part of a numeral. -/
def isTail : List Char → Bool
  | '.' :: cs =>
    isDigits (cs.takeWhile Char.isDigit) && isScale (cs.dropWhile Char.isDigit)
  | cs => isScale cs

/-- Whether some characters are a numeral without a sign. -/
def isUnsigned (cs : List Char) : Bool :=
  isWhole (cs.takeWhile Char.isDigit) && isTail (cs.dropWhile Char.isDigit)

/-- The number that decimal digits denote. -/
def digitsValue (cs : List Char) : Nat := cs.foldl (fun n c => n * 10 + (c.toNat - 48)) 0

/-- The power of ten in the scale of a numeral, which starts with its letter. -/
def scaleValue : List Char → Int
  | _ :: '-' :: digits => -(digitsValue digits : Int)
  | _ :: '+' :: digits => digitsValue digits
  | _ :: digits => digitsValue digits
  | [] => 0

/-- The binary64 number nearest to what a numeral denotes. -/
def floatValue (numeral : String) : Float :=
  let (negative, unsigned) := match numeral.toList with
    | '-' :: rest => (true, rest)
    | all => (false, all)
  let (mantissa, scale) := unsigned.span fun c => c != 'e' && c != 'E'
  let fraction := (mantissa.dropWhile (· != '.')).drop 1
  let exponent := scaleValue scale - fraction.length
  let x := Float.ofScientific (digitsValue (mantissa.filter (· != '.')))
    (decide (exponent < 0)) exponent.natAbs
  if negative then -x else x

/-- The numeral that some characters are, if they are one. -/
def numeral (cs : List Char) : Option Json :=
  if isWhole cs then some (.number (digitsValue cs))
  else
    let unsigned := match cs with
      | '-' :: rest => rest
      | _ => cs
    if isUnsigned unsigned then some (.decimal (String.ofList cs)) else none

mutual

/-- The document at the start of a text, and the text behind it. -/
def value : Nat → List Char → Option (Json × List Char)
  | 0, _ => none
  | fuel + 1, cs =>
    match skipBlanks cs with
    | 'n' :: 'u' :: 'l' :: 'l' :: rest => some (.null, rest)
    | 't' :: 'r' :: 'u' :: 'e' :: rest => some (.bool true, rest)
    | 'f' :: 'a' :: 'l' :: 's' :: 'e' :: rest => some (.bool false, rest)
    | '"' :: rest => (stringBody rest).map fun r => (.string r.1, r.2)
    | '[' :: rest =>
      match skipBlanks rest with
      | ']' :: behind => some (.array [], behind)
      | _ => (elements fuel rest).map fun r => (.array r.1, r.2)
    | '\x7b' :: rest =>
      match skipBlanks rest with
      | '\x7d' :: behind => some (.object [], behind)
      | _ => (members fuel rest).map fun r => (.object r.1, r.2)
    | start => (numeral (start.takeWhile isNumeralChar)).map fun n =>
      (n, start.dropWhile isNumeralChar)

/-- One or more elements up to the end of the array, and the text behind it. -/
def elements : Nat → List Char → Option (List Json × List Char)
  | 0, _ => none
  | fuel + 1, cs =>
    match value fuel cs with
    | none => none
    | some (first, behind) =>
      match skipBlanks behind with
      | ']' :: rest => some ([first], rest)
      | ',' :: rest => (elements fuel rest).map fun r => (first :: r.1, r.2)
      | _ => none

/-- One or more members up to the end of the object, and the text behind it. -/
def members : Nat → List Char → Option (List (Option String × Json) × List Char)
  | 0, _ => none
  | fuel + 1, cs =>
    match skipBlanks cs with
    | '"' :: rest =>
      match stringBody rest with
      | none => none
      | some (key, behindKey) =>
        match skipBlanks behindKey with
        | ':' :: start =>
          match value fuel start with
          | none => none
          | some (first, behind) =>
            match skipBlanks behind with
            | '\x7d' :: rest => some ([(key, first)], rest)
            | ',' :: rest => (members fuel rest).map fun r => ((key, first) :: r.1, r.2)
            | _ => none
        | _ => none
    | _ => none

end

/-- The document that a text is, if it is one. Every step reads a character or is followed by one
that does, so twice the length of the text bounds the depth of the reading. -/
def parse (s : String) : Option Json :=
  match value (2 * s.toList.length + 2) s.toList with
  | some (j, behind) => if (skipBlanks behind).isEmpty then some j else none
  | none => none

end Expander.Json
