import Tabulation.Decimal.Layout

/-!
# Reading numbers

A numeral is a sign, digits with at most one point among or beside them, and an exponent; only
the digits are required, and nothing may stand around it. Whole numbers have no point and no
exponent, and must fit into 64 bits.
-/

namespace Tabulation.Decimal

/-- The number `± digits * 10 ^ exponent`. -/
structure Numeral where
  negative : Bool
  digits : Nat
  exponent : Int
deriving Repr, DecidableEq

/-- The number that a list of decimal digits spells. -/
def ofDigits (cs : List Char) : Nat :=
  cs.foldl (fun n c => 10 * n + (c.toNat - '0'.toNat)) 0

/-- Whether a list is one or more decimal digits. -/
def isDigits (cs : List Char) : Bool :=
  !cs.isEmpty && cs.all Char.isDigit

/-- Splits off a sign; `true` is minus. -/
def splitSign : List Char → Bool × List Char
  | '-' :: rest => (true, rest)
  | '+' :: rest => (false, rest)
  | cs => (false, cs)

/-- What may follow the digits of a numeral: nothing, or `e` and a whole number. -/
def exponent? : List Char → Option Int
  | [] => some 0
  | c :: rest =>
      if c = 'e' ∨ c = 'E' then
        let (negative, digits) := splitSign rest
        if isDigits digits then
          some (if negative then -(ofDigits digits : Int) else ofDigits digits)
        else none
      else none

/-- Reads a numeral without its sign. -/
def unsigned? (negative : Bool) (cs : List Char) : Option Numeral :=
  let whole := cs.takeWhile Char.isDigit
  let (places, rest) := match cs.dropWhile Char.isDigit with
    | '.' :: r => (r.takeWhile Char.isDigit, r.dropWhile Char.isDigit)
    | r => ([], r)
  if whole.isEmpty && places.isEmpty then none
  else (exponent? rest).map fun e =>
    { negative, digits := ofDigits (whole ++ places), exponent := e - places.length }

def numeral? (cs : List Char) : Option Numeral :=
  let (negative, rest) := splitSign cs
  unsigned? negative rest

/-- The nearest float. Far outside of the range of floats the answer is known from the number of
digits alone, and the power of ten is not computed. Zeros at the end that stand behind the point
are dropped, so that a number is converted in one way however it is written. -/
def Numeral.toFloat (n : Numeral) : Float :=
  let size := (Nat.toDigits 10 n.digits).length + n.exponent
  let magnitude :=
    if n.digits = 0 ∨ size < -400 then 0.0
    else if 400 < size then 1.0 / 0.0
    else
      let behind := (-n.exponent).toNat
      let (digits, places) := dropZeros n.digits behind
      let exponent := n.exponent + (behind - places)
      Float.ofScientific digits (exponent < 0) exponent.natAbs
  if n.negative then -magnitude else magnitude

/-- The float that a text spells: a numeral, or infinity or not-a-number by name, in letters of
either case. -/
def float? (s : String) : Option Float :=
  let (negative, rest) := splitSign s.toList
  let name := rest.map Char.toLower
  if name = "inf".toList ∨ name = "infinity".toList then
    some (if negative then -(1.0 / 0.0) else 1.0 / 0.0)
  else if name = "nan".toList then some (0.0 / 0.0)
  else (numeral? s.toList).map Numeral.toFloat

/-- The signed whole number of 64 bits that a text spells. -/
def int64? (s : String) : Option Int :=
  let (negative, digits) := splitSign s.toList
  if isDigits digits then
    let n : Int := if negative then -(ofDigits digits : Int) else ofDigits digits
    if -(twoTo 63 : Int) ≤ n ∧ n < twoTo 63 then some n else none
  else none

/-- The unsigned whole number of 64 bits that a text spells; a plus sign may stand in front. -/
def nat64? (s : String) : Option Nat :=
  let digits := match s.toList with
    | '+' :: rest => rest
    | cs => cs
  if isDigits digits then
    let n := ofDigits digits
    if n < twoTo 64 then some n else none
  else none

end Tabulation.Decimal
