import Expander.Units

/-!
Histograms with buckets of equal width, and the mean of what they counted.
-/

set_option autoImplicit false

namespace Expander

/-- The quotient of two counts as a binary64 number: both are rounded to nearest, then divided. A
count of zero in the denominator gives zero. -/
def ratio (num den : Nat) : Float :=
  if den = 0 then 0 else Float.ofScientific num false 0 / Float.ofScientific den false 0

/-- Counts of samples by bucket. -/
structure Histogram where
  /-- The smallest value of the first bucket. -/
  min : Nat
  bucketSize : Nat
  buckets : List Nat
  /-- The number of samples below the first bucket. -/
  underflows : Nat := 0
  /-- The number of samples above the last bucket. -/
  overflows : Nat := 0
  samples : Nat := 0
  sum : Nat := 0
deriving DecidableEq, Repr

namespace Histogram

def covering (low high bucketSize : Nat) : Histogram :=
  let width := max bucketSize 1
  { min := low, bucketSize := width, buckets := List.replicate ((high - low) / width + 1) 0 }

def sample (h : Histogram) (value : Nat) : Histogram :=
  let counted := { h with samples := h.samples + 1, sum := h.sum + value }
  if value < h.min then { counted with underflows := h.underflows + 1 }
  else
    let bucket := (value - h.min) / h.bucketSize
    if bucket < h.buckets.length then { counted with buckets := h.buckets.modify bucket (· + 1) }
    else { counted with overflows := h.overflows + 1 }

/-- The arithmetic mean of the samples; zero when there are none. -/
def mean (h : Histogram) : Float := ratio h.sum h.samples

end Histogram

end Expander
