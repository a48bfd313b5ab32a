import Tabulation.Column.Width

/-!
# Column specifiers

A specifier is what a definition means once its arguments are bound: a kind of column with its
own options, what replaces the column below a group of several columns, and the space around it.
Option values may hold specifiers, so the two are defined together.
-/

namespace Tabulation.Column

/-- How the text of a plain column is set. -/
inductive Align where
  | left
  | right
  | center
deriving Repr, DecidableEq

/-- Which line of a paragraph stands on the line of its row. -/
inductive Anchor where
  | top
  | middle
  | bottom
deriving Repr, DecidableEq

/-- Line spacing and ragged setting of running text. -/
structure TextSetting where
  baselineskip : Option String := some "10pt"
  raggedright : Bool := false
deriving Repr, DecidableEq

/-- A column of a set width whose text is broken into lines. -/
structure Paragraph (α : Type) where
  anchor : Anchor
  width : Width α
  /-- The part of the remaining width that each level of indentation takes. -/
  indentFraction : α
  text : TextSetting
  /-- The widths of the levels, that of the content last; empty in a column that is not split. -/
  indentWidths : List α := []
  /-- Set where a group of levels is set as one column. -/
  renderAs : Option Anchor := none

mutual

/-- The value of an option. -/
inductive Value (α : Type) where
  | nothing
  | bool (b : Bool)
  | int (n : Int)
  | number (x : α)
  | text (s : String)
  | column (specifier : Specifier α)
  | columns (specifiers : List (Specifier α))

/-- A column of numbers aligned at the decimal point. An option without a value is not set. -/
structure Numeric (α : Type) where
  tableFormat : Value α
  addIntegerZero : Value α
  tableColumnWidth : Option (Width α)
  tableNumberAlignment : Value α
  retainExplicitPlus : Value α
  detectInlineWeight : Value α

inductive Kind (α : Type) where
  | simple (align : Align)
  | paragraph (paragraph : Paragraph α)
  | numeric (numeric : Numeric α)
  /-- Takes the width that the other columns leave. -/
  | autoWidth (text : TextSetting)

/-- What a cell that begins in a column and covers more of the table is set as. -/
inductive Override (α : Type) where
  | itself
  | single (specifier : Specifier α)
  /-- Looked up by the indentation of the cell. -/
  | indexed (specifiers : List (Specifier α))

structure Specifier (α : Type) where
  kind : Kind α
  override : Override α
  noSpaceAfter : Bool
  spaceAfter : Option String
  noLeftPadding : Bool
  noRightPadding : Bool

end

variable {α : Type}

def Align.identifier : Align → Char
  | .left => 'l'
  | .right => 'r'
  | .center => 'c'

def Anchor.identifier : Anchor → Char
  | .top => 'p'
  | .middle => 'm'
  | .bottom => 'b'

def Kind.identifier : Kind α → Char
  | .simple align => align.identifier
  | .paragraph p => p.anchor.identifier
  | .numeric _ => 'S'
  | .autoWidth _ => 'X'

/-- The options that a kind does not go without. -/
def Kind.requiredOptions : Kind α → List String
  | .paragraph _ => ["width"]
  | _ => []

namespace Specifier

/-- A column of a kind with nothing else said about it. -/
def plain (kind : Kind α) : Specifier α :=
  { kind, override := .itself, noSpaceAfter := false, spaceAfter := none, noLeftPadding := false,
    noRightPadding := false }

/-- The column that stands in for one that cannot be used. -/
def plainLeft : Specifier α := plain (.simple .left)

/-- A column of a kind as it is when no option is given. Numbers are not aligned in a group of
several columns, which is set flush left. -/
def ofKind (kind : Kind α) : Specifier α :=
  match kind with
  | .numeric _ => { plain kind with override := .single plainLeft }
  | _ => plain kind

def identifier (c : Specifier α) : Char := c.kind.identifier

/-- The width of a paragraph column. -/
def width? (c : Specifier α) : Option (Width α) :=
  match c.kind with
  | .paragraph p => some p.width
  | _ => none

/-- The width as a fraction of the text width, where the column declares one. -/
def fractionWidth? (c : Specifier α) : Option α :=
  match c.kind with
  | .paragraph p => p.width.fraction?
  | .numeric n => n.tableColumnWidth.bind Width.fraction?
  | _ => none

def indentWidths (c : Specifier α) : List α :=
  match c.kind with
  | .paragraph p => p.indentWidths
  | _ => []

def withoutLeftPadding (c : Specifier α) : Specifier α := { c with noLeftPadding := true }

def withoutRightPadding (c : Specifier α) : Specifier α := { c with noRightPadding := true }

/-- Whether a specifier is the plain left column, in every part. -/
def isPlainLeft (c : Specifier α) : Bool :=
  match c with
  | ⟨.simple .left, .itself, false, none, false, false⟩ => true
  | _ => false

/-- Whether the override is the one the kind has when none is given. -/
def hasDefaultOverride (c : Specifier α) : Bool :=
  match c.kind, c.override with
  | .numeric _, .single d => d.isPlainLeft
  | .numeric _, _ => false
  | _, .itself => true
  | _, _ => false

end Specifier

/-- The options of a numeric column when none is given. -/
def Numeric.default : Numeric α :=
  { tableFormat := .text "3.2", addIntegerZero := .nothing, tableColumnWidth := none,
    tableNumberAlignment := .nothing, retainExplicitPlus := .nothing,
    detectInlineWeight := .text "math" }

/-- The part of the remaining width that a level of indentation takes unless a column says
otherwise. -/
def defaultIndentFraction [Scalar α] : α := 0.1

end Tabulation.Column
