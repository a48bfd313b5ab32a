import Tabulation.Decimal.Power

/-!
# Digits and the point

A decimal is a natural number of digits of which the last `places` stand behind the point. It is
written positionally, however large or small, and never with an exponent.
-/

namespace Tabulation.Decimal

/-- The digits of `n`, with zeros in front up to the given width. -/
def padded (width n : Nat) : String :=
  let digits := Nat.toDigits 10 n
  String.ofList (List.replicate (width - digits.length) '0' ++ digits)

/-- The number `digits / 10 ^ places` with exactly that many digits behind the point. -/
def positional (digits places : Nat) : String :=
  if places = 0 then padded 1 digits
  else padded 1 (digits / tenTo places) ++ "." ++ padded places (digits % tenTo places)

/-- Drops the zeros at the end that stand behind the point; the value stays. -/
def dropZeros (digits : Nat) : (places : Nat) → Nat × Nat
  | 0 => (digits, 0)
  | places + 1 =>
      if digits % 10 = 0 then dropZeros (digits / 10) places else (digits, places + 1)

end Tabulation.Decimal
