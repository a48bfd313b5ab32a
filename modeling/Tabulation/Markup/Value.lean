import Tabulation.Column.Width
import Tabulation.Decimal.Numeral
import Tabulation.Entries
import Tabulation.Markup.Fault
import Tabulation.Table.Basic
import Tabulation.Text.Pieces

/-!
# Values of attributes

Truth values, counts, numbers and ranges as attributes give them. Blanks around a value do not
count, and an attribute without a value switches on what it names.
-/

namespace Tabulation.Markup

open Text

def boolOf (key value : String) : Except AttributeFault Bool :=
  let v := String.map Char.toLower (trim value)
  if v ∈ ["", "true", "yes", "1"] then .ok true
  else if v ∈ ["false", "no", "0"] then .ok false
  else .error (.notABoolean key v)

def countOf (key value : String) : Except AttributeFault Nat :=
  match Decimal.nat64? (trim value) with
  | some (n + 1) => .ok (n + 1)
  | _ => .error (.notACount key value)

def numberOf {α : Type} [Scalar α] (key value : String) : Except AttributeFault α :=
  match Scalar.read? (trim value) with
  | some x => .ok x
  | none => .error (.notANumber key value)

/-- Numbers separated by commas. -/
def numbersOf {α : Type} [Scalar α] (key value : String) : Except AttributeFault (List α) :=
  (split ',' value).mapM (numberOf key)

def headingOf (value : String) : Except AttributeFault Nat :=
  let v := trim value
  if v ∈ ["", "true", "yes"] then .ok 1
  else if v ∈ ["false", "no"] then .ok 0
  else
    match Decimal.nat64? v with
    | some n => if n ≤ 2 then .ok n else .error (.heading v)
    | none => .error (.heading v)

/-- A range of columns, or one column. -/
def rangeOf (key part : String) : Except AttributeFault (Nat × Nat) := do
  let cs := part.toList
  let (first, last) := match cs.dropWhile (· ≠ '-') with
    | [] => (part, part)
    | _ :: rest => (String.ofList (cs.takeWhile (· ≠ '-')), String.ofList rest)
  let first ← countOf key (trim first)
  let last ← countOf key (trim last)
  return (first, last)

/-- Ranges of columns separated by commas. -/
def rangesOf (key value : String) : Except AttributeFault (List (Nat × Nat)) :=
  let parts := ((split ',' value).map trim).filter (!·.isEmpty)
  parts.mapM (rangeOf key)

/-- A text that is not blank. -/
def nonBlank? (value : String) : Option String :=
  let v := trim value
  if v.isEmpty then none else some v

/-- Sets one attribute of a table; unknown names are ignored. -/
def setOption {α : Type} [Scalar α] (a : Attributes α) (key value : String) :
    Except AttributeFault (Attributes α) :=
  match key with
  | "alignment" => .ok { a with alignment := value }
  | "environment" =>
      match Environment.parse value with
      | .ok environment => .ok { a with environment }
      | .error _ => .error (.environment value)
  | "width" => (numbersOf key value).map fun widths => { a with widths }
  | "tabularx_width" => (numberOf key value).map fun width => { a with width }
  | "total_width" => (numberOf key value).map fun w => { a with totalWidth := some w }
  | "leave_table_padding" =>
      (boolOf key value).map fun leave => { a with leaveTablePadding := leave }
  | "label" => .ok { a with label := nonBlank? value }
  | "caption_title" => .ok { a with captionTitle := nonBlank? value }
  | "tablenotes_options" => .ok { a with tablenotesOptions := nonBlank? value }
  | _ => .ok a

def setOptions {α : Type} [Scalar α] (a : Attributes α) :
    Entries String → Except AttributeFault (Attributes α)
  | [] => .ok a
  | (key, value) :: rest => do setOptions (← setOption a key value) rest

/-- A cell and how many times it stands in its row. -/
structure RepeatedCell where
  cell : Cell
  times : Nat := 1

def setCell (c : RepeatedCell) (key value : String) : Except AttributeFault RepeatedCell :=
  match key with
  | "col_span" => (countOf key value).map fun span => { c with cell := { c.cell with span } }
  | "heading" => (headingOf value).map fun heading => { c with cell := { c.cell with heading } }
  | "vertical" =>
      (boolOf key value).map fun vertical => { c with cell := { c.cell with vertical } }
  | "repeat" => (countOf key value).map fun times => { c with times }
  | _ => .ok c

def setCellAttributes (c : RepeatedCell) : Entries String → Except AttributeFault RepeatedCell
  | [] => .ok c
  | (key, value) :: rest => do setCellAttributes (← setCell c key value) rest

def setRow (r : Row) (key value : String) : Except AttributeFault Row :=
  match key with
  | "underlines" => (rangesOf key value).map fun underlines => { r with underlines }
  | "header" => (boolOf key value).map fun header => { r with header }
  | "top_space" => (boolOf key value).map fun topSpace => { r with topSpace }
  | "bottom_space" => (boolOf key value).map fun bottomSpace => { r with bottomSpace }
  | _ => .ok r

def setRowAttributes (r : Row) : Entries String → Except AttributeFault Row
  | [] => .ok r
  | (key, value) :: rest => do setRowAttributes (← setRow r key value) rest

end Tabulation.Markup
