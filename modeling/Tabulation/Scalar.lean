import Tabulation.Decimal.Shortest
import Tabulation.Decimal.Fixed
import Tabulation.Decimal.Numeral

/-!
# The numbers that widths are measured in

Column widths are read, split, added, normalised and written. All of that is defined over any
type with the operations below. Tables are set with 64-bit floats; the laws of the width algebra
are laws of exact arithmetic, and are stated where the same definitions run over the rationals.
-/

namespace Tabulation

class Scalar (α : Type) extends Add α, Sub α, Mul α, Div α, Neg α, LT α, LE α, BEq α,
    OfScientific α where
  decLt : DecidableLT α
  decLe : DecidableLE α
  ofInt : Int → α
  /-- The number that a text spells. -/
  read? : String → Option α
  /-- The text of a number, which reads back as the same number if it is finite. -/
  text : α → String
  /-- The text with exactly two places. -/
  twoPlaces : α → String
  isFinite : α → Bool

namespace Scalar

attribute [reducible] decLt decLe
attribute [instance] decLt decLe

instance : Scalar Float where
  decLt := inferInstance
  decLe := inferInstance
  ofInt := Float.ofInt
  read? := Decimal.float?
  text := Decimal.shortestText
  twoPlaces := Decimal.fixedText 2
  isFinite := Float.isFinite

variable {α : Type} [Scalar α]

/-- The sum from left to right. It starts at negative zero, the number that changes no other
when it is added, so that is also the sum of nothing. -/
def sum (xs : List α) : α :=
  xs.foldl (· + ·) (-0.0)

/-- The text of a number with a point in it, so that it cannot be read as a whole number. -/
def pointedText (x : α) : String :=
  let t := text x
  if t.toList.contains '.' || !isFinite x then t else t ++ ".0"

/-- At most two places, and no zeros at the end. -/
def briefText (x : α) : String :=
  let digits := (twoPlaces x).toList.reverse.dropWhile (· = '0')
  let kept := (digits.dropWhile (· = '.')).reverse
  if kept.isEmpty || kept = ['-'] then "0" else String.ofList kept

end Scalar

end Tabulation
