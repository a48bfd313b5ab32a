import Tabulation.Decimal.Binary
import Tabulation.Decimal.Layout

/-!
# A set number of places

The exact value is rounded once, to the nearest multiple of the last place, and a half goes to
the even neighbour.
-/

namespace Tabulation.Decimal

/-- The natural number nearest to a quotient, the even one of two that are equally near. -/
def roundHalfEven (numerator denominator : Nat) : Nat :=
  let below := numerator / denominator
  let twice := 2 * (numerator % denominator)
  if twice < denominator then below
  else if denominator < twice then below + 1
  else if below % 2 = 0 then below else below + 1

/-- The text of a float with the given number of places; negative zero keeps its sign. -/
def fixedText (places : Nat) (x : Float) : String :=
  if x.isNaN then "NaN"
  else
    let sign := if isNegative x then "-" else ""
    if x.isInf then sign ++ "inf"
    else
      let (numerator, denominator) := (Binary.ofBits x.toBits).fraction
      sign ++ positional (roundHalfEven (numerator * tenTo places) denominator) places

end Tabulation.Decimal
