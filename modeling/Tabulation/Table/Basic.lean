import Tabulation.Content.Inline
import Tabulation.Decimal.Power
import Tabulation.Error
import Tabulation.Scalar
import Tabulation.Text.Blank

/-!
# Tables

A table is rows of cells with attributes, a caption and notes. A row has one slot for each logical
column: a cell stands in the first slot it covers, and the others it covers are marked as covered.
`Table.columnCount` is what all rows must agree on, and `Table.validate` says whether they do.
-/

namespace Tabulation

structure Cell where
  content : List Inline
  /-- The logical columns that the cell covers. -/
  span : Nat := 1
  /-- Zero in the body, one in a heading, two in a subheading. -/
  heading : Nat := 0
  /-- Turned by a right angle. -/
  vertical : Bool := false

/-- What stands in one column of a row. -/
inductive Slot where
  | cell (cell : Cell)
  | covered

structure Row where
  slots : List Slot
  /-- Rules below the row, as ranges of logical columns counted from one. -/
  underlines : List (Nat × Nat) := []
  topSpace : Bool := false
  bottomSpace : Bool := false
  header : Bool := false

structure Note where
  label : String
  definition : List Inline

inductive Environment where
  | tabular
  | tabularx
deriving Repr, DecidableEq

structure Attributes (α : Type) where
  alignment : String := ""
  environment : Environment := .tabular
  /-- The width of a `tabularx`, as a fraction of the text width. -/
  width : α
  /-- Keeps the padding at the edges of the table. -/
  leaveTablePadding : Bool := false
  label : Option String := none
  /-- The short caption for the list of tables. -/
  captionTitle : Option String := none
  tablenotesOptions : Option String := none
  totalWidth : Option α := none
  /-- A fraction for each column, zero where none is given. -/
  widths : List α := []

structure Table (α : Type) where
  rows : List Row
  attributes : Attributes α
  caption : List Inline := []
  notes : List Note := []

def Attributes.default {α : Type} [Scalar α] : Attributes α := { width := 1.0 }

/-- The environment of a name; blanks around it do not count, and no name is the plain one. -/
def Environment.parse (name : String) : Except Error Environment :=
  let name := Text.trim name
  if name.isEmpty ∨ name = "tabular" then .ok .tabular
  else if name = "tabularx" then .ok .tabularx
  else .error (.markup (.unknownEnvironment name) none)

def Environment.name : Environment → String
  | .tabular => "tabular"
  | .tabularx => "tabularx"

namespace Slot

def isCovered : Slot → Bool
  | .covered => true
  | .cell _ => false

/-- The logical columns that a slot claims for its cell. -/
def claim : Slot → Nat
  | .cell c => max c.span 1
  | .covered => 0

/-- A slot with the covered ones behind it that its span asks for. -/
def withCovered : Slot → List Slot
  | .cell c => .cell c :: List.replicate (c.span - 1) .covered
  | .covered => [.covered]

end Slot

namespace Row

/-- A row in which each cell is followed by the slots that it covers. -/
def spanned (slots : List Slot) : Row :=
  { slots := slots.flatMap Slot.withCovered }

/-- The logical columns that the cells of a row claim, added up as words. The slots of a row are
kept in memory, so a sum that is no greater than their number is a word as it is; any other one
wraps around. -/
def spanSum (r : Row) : Nat :=
  let columns := r.slots.foldr (fun slot columns => slot.claim + columns) 0
  if columns ≤ r.slots.length then columns else columns % Decimal.wordLimit

/-- Whether covered slots stand exactly where spans ask for them; `pending` of them are still
owed. -/
def covers (pending : Nat) : List Slot → Bool
  | [] => pending = 0
  | .covered :: rest =>
      match pending with
      | 0 => false
      | n + 1 => covers n rest
  | .cell c :: rest => pending = 0 && covers (max c.span 1 - 1) rest

end Row

namespace Table

variable {α : Type}

/-- The logical columns of a table, which the first row decides. -/
def columnCount (t : Table α) : Nat :=
  match t.rows with
  | [] => 0
  | r :: _ => r.spanSum

/-- Checks rows against the column count, from the given row number on. -/
def checkRows (expected : Nat) (index : Nat) : List Row → Except Error Unit
  | [] => .ok ()
  | r :: rest =>
      if r.spanSum ≠ expected then .error (.columnCount index expected r.spanSum)
      else if r.slots.length ≠ expected ∨ !Row.covers 0 r.slots then
        .error (.columnCount index expected r.slots.length)
      else checkRows expected (index + 1) rest

/-- The number of columns of a table whose rows agree on it. -/
def validate (t : Table α) : Except Error Nat := do
  let expected := t.columnCount
  if expected = 0 then throw (.markup .noColumns none)
  checkRows expected 0 t.rows
  return expected

end Table

end Tabulation
