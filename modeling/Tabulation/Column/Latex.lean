import Tabulation.Column.Source

/-!
# Specifiers as LaTeX column types

A column type is the letter of the column with its width or options, a prefix that sets the line
spacing, and the padding directives of the two sides.
-/

namespace Tabulation.Column

variable {α : Type} [Scalar α]

/-- The prefix that sets running text, empty if there is nothing to set. -/
def TextSetting.latex (t : TextSetting) : String :=
  let parts :=
    (match t.baselineskip with
      | some skip => "\\baselineskip=" ++ skip
      | none => "") ++
    (if t.raggedright then "\\RaggedRight\\arraybackslash" else "")
  if parts.isEmpty then "" else ">\x7b" ++ parts ++ "\x7d"

def Paragraph.latex (p : Paragraph α) : String :=
  p.text.latex ++ ((p.renderAs.getD p.anchor).identifier).toString ++
    "\x7b" ++ p.width.latex ++ "\x7d"

/-- An option of a numeric column, if it is set. -/
def numericOption (isSet : Bool) (key value : String) : List String :=
  if isSet then [key ++ "=" ++ value] else []

mutual

/-- A value inside a list of LaTeX options. -/
def Value.latex : Value α → String
  | .nothing => "none"
  | .bool b => toString b
  | .int n => toString n
  | .number x => Scalar.text x
  | .text s => s
  | .column c => c.latex
  | .columns cs => (Value.columns cs).source

def Kind.latex : Kind α → String
  | .simple align => align.identifier.toString
  | .paragraph p => p.latex
  | .numeric ⟨format, zero, width, alignment, plus, weight⟩ =>
      "S[" ++ String.intercalate "," (
        numericOption (!format.isNothing) "table-format" format.latex ++
        numericOption (!zero.isNothing) "add-integer-zero" zero.latex ++
        (match width with
          | some w => ["table-column-width=" ++ w.latex]
          | none => []) ++
        numericOption (!alignment.isNothing) "table-number-alignment" alignment.latex ++
        numericOption (!plus.isNothing) "retain-explicit-plus" plus.latex ++
        numericOption (!weight.isNothing) "detect-inline-weight" weight.latex) ++ "]"
  | .autoWidth t => t.latex ++ "X"

def Specifier.latex : Specifier α → String
  | ⟨kind, _, noSpaceAfter, spaceAfter, noLeft, noRight⟩ =>
      (if noLeft then "@\x7b\x7d" else "") ++ kind.latex ++
        (match spaceAfter with
          | some space => "@\x7b\\hskip " ++ space ++ "\x7d"
          | none => if noRight || noSpaceAfter then "@\x7b\x7d" else "")

end

/-- The prefix that sets the text of a column. -/
def Specifier.textLatex (c : Specifier α) : String :=
  match c.kind with
  | .paragraph p => p.text.latex
  | .autoWidth t => t.latex
  | _ => ""

end Tabulation.Column
