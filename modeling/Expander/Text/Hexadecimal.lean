/-!
Hexadecimal text of numbers and bytes, in lower case.
-/

set_option autoImplicit false

namespace Expander.Text

/-- The hexadecimal digits of `n`, without leading zeros. -/
def hexDigits (n : Nat) : List Char := Nat.toDigits 16 n

def hex (n : Nat) : String := "0x" ++ String.ofList (hexDigits n)

/-- `n` in hexadecimal behind `0x`, filled with zeros to at least `width` digits. -/
def hexPadded (width n : Nat) : String :=
  "0x" ++ String.ofList (List.replicate (width - (hexDigits n).length) '0' ++ hexDigits n)

/-- `text` followed by blanks up to at least `width` characters. -/
def padRight (width : Nat) (text : String) : String :=
  text ++ String.ofList (List.replicate (width - text.length) ' ')

/-- Blanks and then `text`, at least `width` characters together. -/
def padLeft (width : Nat) (text : String) : String :=
  String.ofList (List.replicate (width - text.length) ' ') ++ text

end Expander.Text
