/-!
Units of time and of memory, and the bound of the physical address space.

Every tick, address and size of the library is a natural number. Sums and products are exact, unless
a definition bounds them by the last address: what is said of a system holds of one that computes in
words of 64 bits as long as no number that it computes is larger than a word.
-/

set_option autoImplicit false

namespace Expander

/-- Simulated time in picoseconds. Time has no end: a system that counts it in words of 64 bits does
what is said here as long as it comes to no tick behind `lastTick`. -/
abbrev Tick := Nat

/-- The last tick that a word of 64 bits holds. -/
def lastTick : Tick := 18446744073709551615

/-- Ticks per nanosecond. -/
def nanosecond : Tick := 1000

/-- Ticks per microsecond. -/
def microsecond : Tick := 1000 * nanosecond

def kibibyte : Nat := 1024

def mebibyte : Nat := 1024 * kibibyte

def gibibyte : Nat := 1024 * mebibyte

/-- The size of an ordinary host access, one cache line. -/
def cacheLineBytes : Nat := 64

/-- The last physical address, which is also the largest 64-bit word. -/
def lastAddress : Nat := 18446744073709551615

/-- The number of steps of length `step` that cover `n`: the quotient rounded up. -/
def ceilDiv (n step : Nat) : Nat := (n + step - 1) / step

/-- The sum of some amounts. -/
def total (amounts : List Nat) : Nat := amounts.foldr (· + ·) 0

end Expander
