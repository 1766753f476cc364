import Expander.Text.Hexadecimal

/-!
JSON documents and their text.

Numbers that are plain digits are kept as numbers, all other numerals as they are written. A string
literal with an unpaired surrogate is grammatical but denotes no text; it is kept as `none`.
`render` writes a document in one line, `pretty` in indented lines.
-/

set_option autoImplicit false

namespace Expander

inductive Json where
  | null
  | bool (value : Bool)
  /-- A number written as plain digits. -/
  | number (value : Nat)
  /-- A numeral with a sign, a fraction or an exponent, as written. -/
  | decimal (numeral : String)
  /-- A string; `none` when its escapes denote no text. -/
  | string (text : Option String)
  | array (elements : List Json)
  | object (members : List (Option String × Json))
deriving Repr, Inhabited, BEq

namespace Json

def text (s : String) : Json := .string (some s)

def record (members : List (String × Json)) : Json :=
  .object (members.map fun m => (some m.1, m.2))

def optional (n : Option Nat) : Json :=
  match n with
  | none => .null
  | some n => .number n

/-- The text of a character within a string literal. -/
def escape (c : Char) : List Char :=
  if c = '"' then ['\\', '"']
  else if c = '\\' then ['\\', '\\']
  else if c = '\n' then ['\\', 'n']
  else if c = '\r' then ['\\', 'r']
  else if c = '\t' then ['\\', 't']
  else if c.toNat = 8 then ['\\', 'b']
  else if c.toNat = 12 then ['\\', 'f']
  else if c.toNat < 32 then
    ['\\', 'u', '0', '0', Nat.digitChar (c.toNat / 16), Nat.digitChar (c.toNat % 16)]
  else [c]

/-- The text of a string literal; `none` is written as a lone surrogate. -/
def quoted : Option String → List Char
  | some s => '"' :: (s.toList.flatMap escape ++ ['"'])
  | none => ['"', '\\', 'u', 'd', '8', '0', '0', '"']

/-- The text of a document without elements or members, or with none of them. -/
def atom : Json → List Char
  | .null => ['n', 'u', 'l', 'l']
  | .bool true => ['t', 'r', 'u', 'e']
  | .bool false => ['f', 'a', 'l', 's', 'e']
  | .number n => Nat.toDigits 10 n
  | .decimal numeral => numeral.toList
  | .string s => quoted s
  | .array _ => ['[', ']']
  | .object _ => ['\x7b', '\x7d']

mutual

/-- The characters of a document in one line. -/
def renderChars : Json → List Char
  | .array (e :: rest) => '[' :: (renderChars e ++ renderElements rest)
  | .object ((key, value) :: rest) =>
    '\x7b' :: (quoted key ++ ':' :: (renderChars value ++ renderMembers rest))
  | .array [] => ['[', ']']
  | .object [] => ['\x7b', '\x7d']
  | .null => atom .null
  | .bool b => atom (.bool b)
  | .number n => atom (.number n)
  | .decimal numeral => atom (.decimal numeral)
  | .string s => atom (.string s)

/-- The elements behind the first one, and the end of the array. -/
def renderElements : List Json → List Char
  | [] => [']']
  | e :: rest => ',' :: (renderChars e ++ renderElements rest)

/-- The members behind the first one, and the end of the object. -/
def renderMembers : List (Option String × Json) → List Char
  | [] => ['\x7d']
  | (key, value) :: rest =>
    ',' :: (quoted key ++ ':' :: (renderChars value ++ renderMembers rest))

end

def render (j : Json) : String := String.ofList (renderChars j)

def newline (depth : Nat) : List Char := '\n' :: List.replicate (2 * depth) ' '

mutual

/-- The characters of a document in indented lines. -/
def prettyChars (depth : Nat) : Json → List Char
  | .array (e :: rest) =>
    '[' :: (newline (depth + 1) ++ prettyChars (depth + 1) e ++ prettyElements depth rest)
  | .object ((key, value) :: rest) =>
    '\x7b' :: (newline (depth + 1) ++ quoted key ++ [':', ' '] ++
      prettyChars (depth + 1) value ++ prettyMembers depth rest)
  | .array [] => ['[', ']']
  | .object [] => ['\x7b', '\x7d']
  | .null => atom .null
  | .bool b => atom (.bool b)
  | .number n => atom (.number n)
  | .decimal numeral => atom (.decimal numeral)
  | .string s => atom (.string s)

/-- The elements behind the first one, and the end of the array. -/
def prettyElements (depth : Nat) : List Json → List Char
  | [] => newline depth ++ [']']
  | e :: rest =>
    ',' :: (newline (depth + 1) ++ prettyChars (depth + 1) e ++ prettyElements depth rest)

/-- The members behind the first one, and the end of the object. -/
def prettyMembers (depth : Nat) : List (Option String × Json) → List Char
  | [] => newline depth ++ ['\x7d']
  | (key, value) :: rest =>
    ',' :: (newline (depth + 1) ++ quoted key ++ [':', ' '] ++
      prettyChars (depth + 1) value ++ prettyMembers depth rest)

end

/-- A document in indented lines. -/
def pretty (j : Json) : String := String.ofList (prettyChars 0 j)

end Json

end Expander
