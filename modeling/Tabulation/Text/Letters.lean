/-!
# Column letters

Columns are lettered A to Z, then AA, AB and so on: numbers in base twenty-six without a digit
for zero, so that every non-empty word of letters belongs to exactly one column.
-/

namespace Tabulation.Text

def letter (digit : Nat) : Char :=
  Char.ofNat ('A'.toNat + digit)

/-- The letters of a column counted from zero. -/
def columnLetters (n : Nat) : List Char :=
  if n < 26 then [letter n]
  else columnLetters (n / 26 - 1) ++ [letter (n % 26)]
termination_by n

end Tabulation.Text
