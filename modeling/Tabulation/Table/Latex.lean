import Tabulation.Column.Latex
import Tabulation.Table.Layout

/-!
# LaTeX output

A layout becomes the head of an environment with its column types, one line for each row followed
by the rules below it, the tail, the list of notes and the caption. The pieces are kept apart so
that tables can be set side by side. Text reaches the output escaped; only raw pieces for LaTeX
are passed through.
-/

namespace Tabulation

open Column

namespace Latex

/-- A group in braces. -/
def braced (s : String) : String := "\x7b" ++ s ++ "\x7d"

/-- The characters by which one character of a text is shown. -/
def escapeChar (c : Char) : List Char :=
  if c = '\\' then "\\textbackslash\x7b\x7d".toList
  else if c = '~' then "\\textasciitilde\x7b\x7d".toList
  else if c = '^' then "\\textasciicircum\x7b\x7d".toList
  else if c ∈ ['&', '%', '$', '#', '_', '\x7b', '\x7d'] then ['\\', c]
  else [c]

/-- A text with its special characters escaped. -/
def escape (s : String) : String :=
  String.ofList (s.toList.flatMap escapeChar)

/-- The font of a cell in a heading. -/
def headingFont (heading : Nat) : String :=
  match heading with
  | 1 => "\\sffamily "
  | 2 => "\\sffamily\\small "
  | _ => ""

def environment (name : String) (content : String) : String :=
  "\\begin" ++ braced name ++ content ++ "\\end" ++ braced name

end Latex

/-- A rule and the blank that keeps it apart from the next. -/
def Rule.latex (r : Rule) : String :=
  match r with
  | .full => "\\midrule "
  | .partly first last _ _ =>
      "\\cmidrule(" ++ r.trim ++ ")" ++ Latex.braced (toString first ++ "-" ++ toString last) ++
        " "

mutual

/-- A piece of content; `target` gives the link target of a note. -/
def Inline.latex (target : String → String) : Inline → String
  | .word text => Latex.escape text
  | .space => " "
  | .strong inner => "\\textbf" ++ Latex.braced (latexInlines target inner)
  | .raw format text => if format = "latex" ∨ format = "tex" then text else ""
  | .note label => "\\tnotex" ++ Latex.braced (target label)

def latexInlines (target : String → String) : List Inline → String
  | [] => ""
  | x :: xs => x.latex target ++ latexInlines target xs

end

/-- A table in LaTeX. -/
structure LatexTable where
  /-- Up to and including the rule at the top. -/
  head : String
  rows : List String
  /-- The rule at the bottom and the end of the environment. -/
  tail : String
  /-- Empty without notes. -/
  notes : String
  /-- The caption, if there is one, and the label. -/
  caption : String
deriving Repr, DecidableEq

namespace LatexTable

def body (t : LatexTable) : String :=
  t.head ++ String.join t.rows ++ t.tail ++ t.notes

/-- The table as a float of its own. -/
def float (t : LatexTable) : String :=
  Latex.environment "table" ("\n" ++ t.caption ++ "\n" ++ t.body ++ "\n")

/-- One table of a row of floats. -/
def floatBox (t : LatexTable) : String :=
  "\\ttabbox\x7b\n" ++ Latex.braced t.body ++ "\n\x7d\x7b" ++ t.caption ++ "\n\x7d\n"

/-- Tables side by side in one float. -/
def floatRow (tables : List LatexTable) : String :=
  Latex.environment "table"
    ("\n" ++ Latex.environment "floatrow" ("\n" ++ String.join (tables.map floatBox)) ++ "\n")

end LatexTable

namespace Layout

variable {α : Type} [Scalar α]

/-- The content of a cell with its font, turned if the cell is vertical. -/
def cellLatex (target : String → String) (cell : PlacedCell α) : String :=
  let text := Latex.headingFont cell.heading ++ latexInlines target cell.content
  if cell.vertical then "\\rotatebox\x7b90\x7d" ++ Latex.braced text else text

/-- What keeps a row away from the rows around it. -/
def struts (row : PlacedRow α) : String :=
  (if row.topSpace then "\\rule\x7b0pt\x7d\x7b2.6ex\x7d" else "") ++
    (if row.bottomSpace then "\\rule[-1.2ex]\x7b0pt\x7d\x7b0pt\x7d" else "")

/-- The entries of a row that a cell makes: an empty one for each level in front of it, and its
own. -/
def cellEntries (target : String → String) (extra : String) (cell : PlacedCell α) :
    List String :=
  let content := cellLatex target cell ++ extra
  let entry := match cell.group with
    | some group =>
        "\\multicolumn" ++ Latex.braced (toString cell.physicalSpan) ++
          Latex.braced group.latex ++ Latex.braced content
    | none => content
  List.replicate cell.indent "" ++ [entry]

/-- The entries of a row; the first cell holds the struts. -/
def rowEntries (target : String → String) (row : PlacedRow α) : List String :=
  match row.cells with
  | [] => []
  | cell :: cells =>
      cellEntries target (struts row) cell ++ cells.flatMap (cellEntries target "")

def rulesLatex (rules : List Rule) : String :=
  if rules.isEmpty then "" else String.join (rules.map Rule.latex) ++ "\n"

def rowLatex (target : String → String) (row : PlacedRow α) : String :=
  String.intercalate " & " (rowEntries target row) ++ " \\\\ \n" ++ rulesLatex row.rules

/-- The column types of a table, without padding at the edges unless it is kept. -/
def columnTypes (layout : Layout α) : String :=
  let types := String.join (layout.physicalColumns.map Specifier.latex)
  if layout.attributes.leaveTablePadding then types else "@\x7b\x7d" ++ types ++ "@\x7b\x7d"

def environmentHead (layout : Layout α) : String :=
  "\\begin" ++ Latex.braced layout.attributes.environment.name ++
    (match layout.attributes.environment with
      | .tabular => ""
      | .tabularx =>
          Latex.braced (Scalar.twoPlaces layout.attributes.width ++ "\\textwidth")) ++
    Latex.braced layout.columnTypes

def noteLatex (layout : Layout α) (style : NoteSymbols) (note : Note) : String :=
  let target := layout.noteLabel style
  "\\item[" ++ noteTerm style note.label ++ "] " ++ labelLatex (target note.label) ++ " " ++
    latexInlines target note.definition ++ "\n"

/-- The list of notes, and the end of what encloses a table with notes. -/
def notesLatex (layout : Layout α) (style : NoteSymbols) : String :=
  let options := match layout.attributes.tablenotesOptions with
    | some options => if options.isEmpty then "" else "[" ++ options ++ "]"
    | none => ""
  "\n\\vspace\x7b.5\\skip\\footins\x7d\n\\begin\x7btablenotes\x7d" ++ options ++ "\n" ++
    String.join (layout.notes.map (layout.noteLatex style)) ++
    "\\end\x7btablenotes\x7d\n\\end\x7bthreeparttable\x7d"

def captionLatex (layout : Layout α) (style : NoteSymbols) : String :=
  let text := latexInlines (layout.noteLabel style) layout.caption
  let title := match layout.attributes.captionTitle with
    | some title => "[" ++ Latex.escape title ++ "]"
    | none => ""
  (if layout.caption.isEmpty then "" else "\\caption" ++ title ++ Latex.braced text) ++
    labelLatex layout.label

def latex (layout : Layout α) (style : NoteSymbols) : LatexTable :=
  let hasNotes := !layout.notes.isEmpty
  { head :=
      (if hasNotes then "\\begin\x7bthreeparttable\x7d\n" else "") ++
        layout.environmentHead ++ "\n\\toprule\n"
    rows := layout.rows.map (rowLatex (layout.noteLabel style))
    tail := " \\bottomrule\n\\end" ++ Latex.braced layout.attributes.environment.name
    notes := if hasNotes then layout.notesLatex style else ""
    caption := layout.captionLatex style }

end Layout

/-- Lays out a table and writes it in LaTeX. -/
def renderLatex {α : Type} [Scalar α] (t : Table α) (s : Session α) :
    Except Failure LatexTable × Session α :=
  match compile t s with
  | (.error e, s) => (.error e, s)
  | (.ok layout, s) => (.ok (layout.latex s.options.noteSymbols), s)

/-- Renders tables in order, up to the first that fails. -/
def renderAllLatex {α : Type} [Scalar α] (s : Session α) :
    List (Table α) → Except Failure (List LatexTable) × Session α
  | [] => (.ok [], s)
  | t :: rest =>
      match renderLatex t s with
      | (.error e, s) => (.error e, s)
      | (.ok table, s) =>
          match renderAllLatex s rest with
          | (.error e, s) => (.error e, s)
          | (.ok tables, s) => (.ok (table :: tables), s)

/-- Tables side by side; the first that fails to compile fails the row. -/
def renderFloatRow {α : Type} [Scalar α] (tables : List (Table α)) (s : Session α) :
    Except Failure String × Session α :=
  let (rendered, s) := renderAllLatex s tables
  (rendered.map LatexTable.floatRow, s)

end Tabulation
