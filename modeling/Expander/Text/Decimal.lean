/-!
Decimal text of binary64 numbers.

A finite number is the exact fraction `num / den` that its bits denote. `fixed` rounds the fraction
to a number of places, a half to the even neighbour. `shortest` writes the fewest digits that read
back as the same number, and of those the nearest.
-/

set_option autoImplicit false

namespace Expander.Text

def twoTo (n : Nat) : Nat := Nat.pow 2 n

def tenTo (n : Nat) : Nat := Nat.pow 10 n

structure Binary where
  negative : Bool
  significand : Nat
  exponent : Int
  /-- Whether the next number below lies half as far away as the next above. -/
  isPowerOfTwo : Bool
deriving DecidableEq, Repr

/-- The parts of the number with the given bits; infinities and NaN are read as if finite. -/
def Binary.ofBits (bits : Nat) : Binary :=
  let fraction := bits % twoTo 52
  let scale := bits / twoTo 52 % twoTo 11
  { negative := bits / twoTo 63 % 2 == 1
    significand := if scale = 0 then fraction else twoTo 52 + fraction
    exponent := (max scale 1 : Nat) - (1075 : Int)
    isPowerOfTwo := fraction == 0 && decide (1 < scale) }

def Binary.ofFloat (x : Float) : Binary := .ofBits x.toBits.toNat

/-- `num / den` to the nearest whole number, a half to the even one. -/
def roundHalfEven (num den : Nat) : Nat :=
  let quotient := num / den
  let twice := 2 * (num % den)
  if twice < den then quotient
  else if den < twice then quotient + 1
  else quotient + quotient % 2

def paddedDigits (width n : Nat) : List Char :=
  let digits := Nat.toDigits 10 n
  List.replicate (width - digits.length) '0' ++ digits

/-- A number with `places` digits behind the point; a half goes to the even digit. -/
def fixed (places : Nat) (x : Float) : String :=
  let b := Binary.ofFloat x
  let scaled := b.significand * twoTo b.exponent.toNat * tenTo places
  let rounded := roundHalfEven scaled (twoTo (-b.exponent).toNat)
  let digits := paddedDigits (places + 1) rounded
  let whole := digits.take (digits.length - places)
  let fraction := digits.drop (digits.length - places)
  String.ofList
    ((if b.negative then ['-'] else []) ++ whole ++
      if places = 0 then [] else '.' :: fraction)

/-- Digits `d` and an exponent `e` for the number `d · 10 ^ e`. -/
structure Digits where
  digits : Nat
  exponent : Int
deriving DecidableEq, Repr

/-- Four times the significand, and the two ends of the interval of fractions that round to the
number, in the same unit of a quarter of its last place. -/
def Binary.interval (b : Binary) : Nat × Nat × Nat :=
  let m := 4 * b.significand
  (m - if b.isPowerOfTwo then 1 else 2, m, m + 2)

/-- The fraction of a magnitude `m · 2 ^ (exponent - 2)` over `10 ^ e`. -/
def overPowerOfTen (m : Nat) (exponent e : Int) : Nat × Nat :=
  (m * twoTo (exponent - 2).toNat * tenTo (-e).toNat,
    twoTo (2 - exponent).toNat * tenTo e.toNat)

/-- Whether `d · 10 ^ e` lies in the interval that rounds to the number; its ends belong to it when
the significand is even. -/
def Binary.readsBack (b : Binary) (d : Nat) (e : Int) : Bool :=
  let (low, _, high) := b.interval
  let (lowNum, lowDen) := overPowerOfTen low b.exponent e
  let (highNum, highDen) := overPowerOfTen high b.exponent e
  if b.significand % 2 = 0 then decide (lowNum ≤ d * lowDen ∧ d * highDen ≤ highNum)
  else decide (lowNum < d * lowDen ∧ d * highDen < highNum)

/-- The nearest neighbour of the number on the grid of multiples of `10 ^ e` that reads back, if
one does. -/
def Binary.onGrid (b : Binary) (e : Int) : Option Digits :=
  let (num, den) := overPowerOfTen (4 * b.significand) b.exponent e
  let below := num / den
  let nearest := roundHalfEven num den
  let other := if nearest = below then below + 1 else below
  if b.readsBack nearest e then some ⟨nearest, e⟩
  else if b.readsBack other e then some ⟨other, e⟩
  else none

/-- The first grid, from the coarsest on, that holds a number that reads back. -/
def Binary.search (b : Binary) : Nat → Int → Digits
  | 0, e => ⟨0, e⟩
  | finer + 1, e =>
    match b.onGrid e with
    | some found => found
    | none => b.search finer (e - 1)

/-- The shortest digits that read back. Every grid from `10 ^ 309` to `10 ^ -343` is tried, the
coarsest first. -/
def Binary.shortest (b : Binary) : Digits :=
  if b.significand = 0 then ⟨0, 0⟩ else b.search 660 309

/-- Digits without trailing zeros. -/
def Digits.trim : Nat → Digits → Digits
  | 0, d => d
  | fuel + 1, d =>
    if d.digits ≠ 0 ∧ d.digits % 10 = 0 then trim fuel ⟨d.digits / 10, d.exponent + 1⟩ else d

/-- How shortest digits are laid out: positions of the point from `pointAfter` to `pointBefore` are
written out, others with an exponent. -/
structure Layout where
  /-- The point may stand before this many digits, counted with zeros, at most. -/
  pointBefore : Int
  /-- The point may stand this many zeros in front of the digits, at most. -/
  pointAfter : Int
deriving DecidableEq, Repr

/-- Numbers of reports are written out below `10 ^ 16`, and down to `10 ^ -5`. -/
def Layout.report : Layout := ⟨16, -5⟩

def positional (digits : List Char) (point : Int) : List Char :=
  let count : Int := digits.length
  if count ≤ point then digits ++ List.replicate (point - count).toNat '0' ++ ['.', '0']
  else if 0 < point then digits.take point.toNat ++ '.' :: digits.drop point.toNat
  else ['0', '.'] ++ List.replicate (-point).toNat '0' ++ digits

/-- Digits with the point behind the first one and an exponent of ten. -/
def scientific (digits : List Char) (point : Int) : List Char :=
  let mantissa := match digits with
    | [] => []
    | [d] => [d]
    | d :: rest => d :: '.' :: rest
  mantissa ++ 'e' :: (toString (point - 1)).toList

def Digits.text (d : Digits) (layout : Layout) : List Char :=
  let trimmed := d.trim 400
  let digits := Nat.toDigits 10 trimmed.digits
  let point := trimmed.exponent + digits.length
  if d.digits = 0 then ['0', '.', '0']
  else if layout.pointAfter < point ∧ point ≤ layout.pointBefore then positional digits point
  else scientific digits point

/-- A number in the fewest digits that read back. -/
def shortest (x : Float) : String :=
  let b := Binary.ofFloat x
  String.ofList ((if b.negative then ['-'] else []) ++ b.shortest.text .report)

end Expander.Text
