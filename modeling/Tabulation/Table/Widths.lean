import Tabulation.Error
import Tabulation.Scalar

/-!
# Sharing the width of a table

Columns may say which fraction of the width they take. Columns that say nothing share what is
left, the sum is brought to one where it is not, and the result is scaled to the width of the
table. Fractions that are given for the table as a whole must not exceed one; those that come from
its columns may, and are then normalised.
-/

namespace Tabulation

variable {α : Type} [Scalar α]

/-- Fractions separated by commas. -/
def widthsText (widths : List α) : String :=
  String.intercalate "," (widths.map Scalar.text)

/-- How far a sum of widths may be from one and still count as one. -/
def widthTolerance : α := 1e-9

/-- Whether a number can be a width. -/
def isWidth (w : α) : Bool :=
  Scalar.isFinite w && decide (0.0 ≤ w)

def isTotalWidth (w : α) : Bool :=
  Scalar.isFinite w && decide (0.0 < w)

/-- Gives the columns without a width equal parts of what the others leave. -/
def shareRest (raw : List α) (allocated : α) : List α :=
  let unspecified := raw.countP (· == 0.0)
  if unspecified = 0 then raw
  else
    let rest := 1.0 - allocated
    let share := (if 0.0 < rest then rest else 0.0) / Scalar.ofInt unspecified
    raw.map fun w => if w == 0.0 then share else w

/-- Divides widths by their sum if it is not one. -/
def normalizeWidths (widths : List α) : List α :=
  let sum := Scalar.sum widths
  if widthTolerance < sum - 1.0 ∨ widthTolerance < -(sum - 1.0) then widths.map (· / sum)
  else widths

/-- The widths of the columns of a table; zero stands for a column that says nothing. -/
def shareWidths (raw : List α) (total : α) (explicit : Bool) : Except Error (List α) :=
  if raw.isEmpty then .ok []
  else
    match raw.find? (!isWidth ·) with
    | some w => .error (.width (Scalar.text w) .negativeColumn)
    | none =>
        if !isTotalWidth total then .error (.width (Scalar.text total) .total)
        else
          let allocated := Scalar.sum raw
          if explicit ∧ 1.0 + widthTolerance < allocated then
            .error (.width (widthsText raw) .excess)
          else .ok ((normalizeWidths (shareRest raw allocated)).map (· * total))

end Tabulation
