import Tabulation.Decimal.Binary
import Tabulation.Decimal.Layout

/-!
# The shortest decimal that reads back

Of all decimals that round to a given float, the one with the fewest digits is written; of
several that short, the nearest to the value, and the larger one of two that are equally near.
On the grid of each power of ten only the two neighbours of the value are tried: if any point of
a grid lies in the interval around the value, one of those two does.
-/

namespace Tabulation.Decimal

/-- The least `k` with `numerator / denominator < 10 ^ k`, for a positive quotient. -/
def scale (numerator denominator : Nat) : Int :=
  if denominator ≤ numerator then ((Nat.toDigits 10 (numerator / denominator)).length : Int)
  else 1 - ((Nat.toDigits 10 ((denominator - 1) / numerator)).length : Int)

namespace Rounding

/-- Whether `digits * 10 ^ power` lies in the interval. -/
def contains (r : Rounding) (digits : Nat) (power : Int) : Bool :=
  let point := digits * r.denominator * tenTo power.toNat
  let low := r.low * tenTo (-power).toNat
  let high := r.high * tenTo (-power).toNat
  if r.closed then low ≤ point && point ≤ high else low < point && point < high

/-- The better of the two neighbours of the value among the multiples of `10 ^ power`, if one
of them lies in the interval. -/
def neighbour? (r : Rounding) (power : Int) : Option Nat :=
  let value := r.value * tenTo (-power).toNat
  let step := r.denominator * tenTo power.toNat
  let below := value / step
  match r.contains below power, r.contains (below + 1) power with
  | true, false => some below
  | false, true => some (below + 1)
  | true, true => some (if 2 * value < (2 * below + 1) * step then below else below + 1)
  | false, false => none

/-- The first grid, from the coarsest on, that has a point in the interval. Seventeen digits
always suffice for a 64-bit float. -/
def shortest? (r : Rounding) : Option (Nat × Int) :=
  let k := scale r.value r.denominator
  (List.range 17).findSome? fun (n : Nat) =>
    let power := k - (n : Int) - 1
    (r.neighbour? power).map fun digits => (digits, power)

end Rounding

/-- Digits and the number of them behind the point; the exact value if no grid answered. -/
def Binary.shortest (x : Binary) : Nat × Nat :=
  match x.rounding.shortest? with
  | some (digits, power) =>
      dropZeros (digits * tenTo power.toNat) (-power).toNat
  | none =>
      let (numerator, _) := x.fraction
      dropZeros (numerator * Nat.pow 5 (-x.exponent).toNat) (-x.exponent).toNat

/-- The text of a float: the fewest digits that read back, and a sign also for negative zero. -/
def shortestText (x : Float) : String :=
  if x.isNaN then "NaN"
  else
    let sign := if isNegative x then "-" else ""
    if x.isInf then sign ++ "inf"
    else
      let b := Binary.ofBits x.toBits
      if b.significand = 0 then sign ++ "0"
      else
        let (digits, places) := b.shortest
        sign ++ positional digits places

end Tabulation.Decimal
