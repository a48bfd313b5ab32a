import Tabulation.Decimal.Power

/-!
# The exact value of a binary float

A finite float is a whole number times a power of two. Text is made from that exact value and
from the interval of reals that round to it, both kept as natural numbers over one denominator,
so that every comparison below is a comparison of naturals.
-/

namespace Tabulation.Decimal

/-- The absolute value of a finite float: `significand * 2 ^ exponent`. -/
structure Binary where
  significand : Nat
  exponent : Int
  /-- Just above a power of two the next float down is only half as far away as the next one
  up. -/
  narrowBelow : Bool
deriving Repr, DecidableEq

/-- Reads the fields of a 64-bit float, its sign apart. The answer means something for finite
floats only. -/
def Binary.ofBits (bits : UInt64) : Binary :=
  let field : Nat := bits.toNat / twoTo 52 % twoTo 11
  let fraction : Nat := bits.toNat % twoTo 52
  if field = 0 then ⟨fraction, -1074, false⟩
  else ⟨twoTo 52 + fraction, (field : Int) - 1075, fraction = 0 && 1 < field⟩

/-- A positive value and the ends of the interval of reals that round to it, in units of
`1 / denominator`. -/
structure Rounding where
  low : Nat
  value : Nat
  high : Nat
  denominator : Nat
  /-- Both ends belong to the interval when the significand is even. -/
  closed : Bool

/-- The neighbours of a float end its interval halfway; a quarter of the last place is the unit
in which both halves are whole. -/
def Binary.rounding (x : Binary) : Rounding :=
  let unit := twoTo (x.exponent - 2).toNat
  { low := (4 * x.significand - if x.narrowBelow then 1 else 2) * unit
    value := 4 * x.significand * unit
    high := (4 * x.significand + 2) * unit
    denominator := twoTo (2 - x.exponent).toNat
    closed := x.significand % 2 = 0 }

/-- The value as a quotient of naturals. -/
def Binary.fraction (x : Binary) : Nat × Nat :=
  (x.significand * twoTo x.exponent.toNat, twoTo (-x.exponent).toNat)

def isNegative (x : Float) : Bool :=
  x.toBits.toNat / twoTo 63 = 1

end Tabulation.Decimal
