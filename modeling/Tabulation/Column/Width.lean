import Tabulation.Error
import Tabulation.Scalar
import Tabulation.Text.Blank

/-!
# Widths

A width is a fraction of the text width or a length with a unit. The unit is kept as it is
written; only magnitudes are computed with, and they stay with their unit.
-/

namespace Tabulation.Column

inductive Width (α : Type) where
  | fraction (value : α)
  | length (value : α) (unit : String)
deriving Repr

variable {α : Type} [Scalar α]

/-- The characters that the number in front of a unit is made of. -/
def isNumeric (c : Char) : Bool :=
  c.isDigit || c = '+' || c = '-' || c = '.'

/-- A number and the unit behind it; blanks around either do not count. -/
def numberAndUnit (text : String) : Except Error (α × String) :=
  let trimmed := Text.trim text
  let number := String.ofList (trimmed.toList.takeWhile isNumeric)
  let unit := Text.trim (String.ofList (trimmed.toList.dropWhile isNumeric))
  match Scalar.read? number with
  | some value => .ok (value, unit)
  | none => .error (.width trimmed (.notANumber number))

namespace Width

/-- A bare number is a fraction, a number with a unit a length. -/
def parse (text : String) : Except Error (Width α) := do
  let (value, unit) ← numberAndUnit text
  return if unit.isEmpty then .fraction value else .length value unit

def value : Width α → α
  | .fraction v => v
  | .length v _ => v

def fraction? : Width α → Option α
  | .fraction v => some v
  | .length _ _ => none

/-- The same unit with another magnitude. -/
def withValue (x : α) : Width α → Width α
  | .fraction _ => .fraction x
  | .length _ unit => .length x unit

def latex : Width α → String
  | .fraction v => Scalar.twoPlaces v ++ "\\textwidth"
  | .length v unit => Scalar.briefText v ++ unit

/-- The text of a width in a column definition. -/
def source : Width α → String
  | .fraction v => Scalar.pointedText v
  | .length v unit => Scalar.text v ++ unit

end Width

end Tabulation.Column
