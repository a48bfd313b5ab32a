import Tabulation.Table.Layout
import Tabulation.Text.Letters
import Tabulation.Xml.Node

/-!
# OpenDocument output

A layout becomes a caption paragraph, a table and a paragraph for each note. How columns and cells
look is not written in the table: each column and each cell refers to an automatic style of its
own, named after the table, the letters of the column and the number of the row, and those styles
are collected for the head of the document.
-/

namespace Tabulation

open Xml (Node)

namespace Odt

def headingStyle : String := "Table_20_Heading"
def subheadingStyle : String := "Table_20_Subheading"
def contentsStyle : String := "Table_20_Contents"
def legendStyle : String := "Table_20_Legend"
def strongStyle : String := "Strong_20_Emphasis"
def superscriptStyle : String := "Superscript"
def verticalStyle : String := "Vertical"
def captionStyle : String := "Table"

/-- The paragraph style of a cell with a heading level. -/
def paragraphStyle (heading : Nat) : String :=
  match heading with
  | 1 => headingStyle
  | 2 => subheadingStyle
  | _ => contentsStyle

/-- The space around the content of a cell, in centimetres, as are the two below. -/
def cellPadding : Float := 0.10

/-- What a row that keeps away from the row above adds to that. -/
def rowSpacing : Float := 0.05

def indentWidth : Float := 0.25

def centimetres (x : Float) : String :=
  Decimal.fixedText 2 x ++ "cm"

/-- An element with one attribute that names its style. -/
def styled (name style : String) (children : List Node) : Node :=
  .element name [("text:style-name", style)] children

/-- The term of a note, raised. -/
def termNode (symbols : NoteSymbols) (label : String) : Node :=
  let term := String.ofList ((noteTerm symbols label).toList.dropWhile (· = '\\'))
  styled "text:span" superscriptStyle [.text term]

mutual

/-- The nodes of a piece of content; raw pieces for other formats have none. -/
def inlineNodes (symbols : NoteSymbols) : Inline → List Node
  | .word text => [.text text]
  | .space => [.text " "]
  | .strong inner => [styled "text:span" strongStyle (contentNodes symbols inner)]
  | .raw format text => if format = "opendocument" ∨ format = "odt" then [.raw text] else []
  | .note label => [termNode symbols label]

def contentNodes (symbols : NoteSymbols) : List Inline → List Node
  | [] => []
  | x :: xs => inlineNodes symbols x ++ contentNodes symbols xs

end

/-- The paragraph of a cell. -/
def cellParagraph (symbols : NoteSymbols) (cell : PlacedCell Float) : Node :=
  let style := paragraphStyle cell.heading
  if Inline.allBlank cell.content then .empty "text:p" [("text:style-name", style)]
  else
    let content := contentNodes symbols cell.content
    styled "text:p" style
      (if cell.vertical then [styled "text:span" verticalStyle content] else content)

/-- A cell and the columns that it covers. -/
def cellNodes (symbols : NoteSymbols) (style : String) (cell : PlacedCell Float) : List Node :=
  let spanned :=
    if 1 < cell.span then [("table:number-columns-spanned", toString cell.span)] else []
  .element "table:table-cell"
      ([("table:style-name", style), ("office:value-type", "string")] ++ spanned)
      [cellParagraph symbols cell] ::
    List.replicate (cell.span - 1) (.empty "table:covered-table-cell" [])

/-- The style of a cell: its padding, and a border if a rule runs below its first column. -/
def cellStyle (name : String) (paddingTop : Float) (indent : Nat) (underlined : Bool) : Node :=
  let padding := centimetres cellPadding
  let paddingLeft := centimetres (cellPadding + indentWidth * Float.ofNat indent)
  let border := if underlined then [("fo:border-bottom", "0.5pt solid #000000")] else []
  .element "style:style" [("style:name", name), ("style:family", "table-cell")]
    [.empty "style:table-cell-properties"
      ([("fo:padding-left", paddingLeft), ("fo:padding-right", padding),
        ("fo:padding-top", centimetres paddingTop), ("fo:padding-bottom", padding),
        ("style:vertical-align", "bottom")] ++ border)]

/-- The name of a table: its number with underscores for the points. -/
def tableName (number : String) : String :=
  "Table" ++ String.ofList (number.toList.map fun c => if c = '.' then '_' else c)

def columnStyleName (table : String) (column : Nat) : String :=
  table ++ "." ++ String.ofList (Text.columnLetters column)

def rowStyleName (table : String) (row : Nat) : String :=
  table ++ "." ++ toString (row + 1)

def cellStyleName (table : String) (column row : Nat) : String :=
  columnStyleName table column ++ toString (row + 1)

/-- A width as a whole number of thousandths. -/
def relativeWidth (width : Float) : String :=
  toString (width * 1000.0).toUInt64.toNat ++ "*"

def columnStyle (name : String) (width : Float) : Node :=
  .element "style:style" [("style:name", name), ("style:family", "table-column")]
    [.empty "style:table-column-properties" [("style:rel-column-width", relativeWidth width)]]

/-- The padding above a row, which the space that the row above asks for adds to. -/
def paddingTop (above : Option (PlacedRow Float)) (row : PlacedRow Float) : Float :=
  let spaces := row.topSpace.toNat + ((above.map PlacedRow.bottomSpace).getD false).toNat
  cellPadding + rowSpacing * Float.ofNat spaces

def rowNode (symbols : NoteSymbols) (table : String) (index : Nat) (row : PlacedRow Float) :
    Node :=
  .element "table:table-row" [("table:style-name", rowStyleName table index)]
    (row.cells.flatMap fun cell =>
      cellNodes symbols (cellStyleName table cell.column index) cell)

def rowStyles (table : String) (index : Nat) (above : Option (PlacedRow Float))
    (row : PlacedRow Float) : List Node :=
  row.cells.map fun cell =>
    cellStyle (cellStyleName table cell.column index) (paddingTop above row) cell.indent
      (row.underlined[cell.column]?.getD false)

/-- The styles of the cells of some rows, below another one. -/
def rowsStyles (table : String) (index : Nat) (above : Option (PlacedRow Float)) :
    List (PlacedRow Float) → List Node
  | [] => []
  | row :: rest => rowStyles table index above row ++ rowsStyles table (index + 1) (some row) rest

def captionNode (symbols : NoteSymbols) (table : String) (layout : Layout Float) : Node :=
  let sequence : Node := .element "text:sequence"
    [("text:ref-name", "ref" ++ table), ("text:name", "Table"),
      ("text:formula", "ooow:Table+1"), ("style:num-format", "1")]
    [.text layout.number]
  let colon := if layout.caption.isEmpty then [] else [.text ": "]
  styled "text:p" captionStyle
    (styled "text:span" strongStyle ([.text "Table ", sequence] ++ colon) ::
      contentNodes symbols layout.caption)

def noteNode (symbols : NoteSymbols) (note : Note) : Node :=
  let definition :=
    if note.definition.isEmpty then []
    else .text " " :: contentNodes symbols note.definition
  styled "text:p" legendStyle (termNode symbols note.label :: definition)

def tableNode (symbols : NoteSymbols) (table : String) (layout : Layout Float) : Node :=
  let columns := (List.range layout.columns.length).map fun column =>
    .empty "table:table-column" [("table:style-name", columnStyleName table column)]
  let rows := layout.rows.mapIdx (rowNode symbols table)
  .element "table:table"
    [("table:name", table), ("table:style-name", table),
      ("table:template-name", "Default Style")]
    (columns ++ rows)

/-- The body of a table. -/
def body (symbols : NoteSymbols) (layout : Layout Float) : List Node :=
  let table := tableName layout.number
  [captionNode symbols table layout, tableNode symbols table layout] ++
    layout.notes.map (noteNode symbols)

/-- The automatic styles that a table refers to. -/
def styles (layout : Layout Float) : List Node :=
  let table := tableName layout.number
  layout.widths.mapIdx (fun column width => columnStyle (columnStyleName table column) width) ++
    rowsStyles table 0 none layout.rows

/-- The styles that every document with tables needs. -/
def sharedStyles : List Node :=
  [ .element "style:style"
      [("style:name", "Keep_20_Caption_With_Next"), ("style:family", "paragraph"),
        ("style:parent-style-name", "Caption")]
      [.empty "style:paragraph-properties" [("fo:keep-together", "always")]],
    .element "style:style" [("style:name", verticalStyle), ("style:family", "text")]
      [.empty "style:text-properties"
        [("style:text-rotation-angle", "90"), ("style:text-rotation-scale", "line-height")]],
    .element "style:style"
      [("style:name", legendStyle), ("style:family", "paragraph"),
        ("style:parent-style-name", "Standard")]
      [.empty "style:paragraph-properties"
        [("fo:margin-left", "0.1799in"), ("fo:margin-right", "0in"),
          ("fo:margin-top", "0.1598in"), ("fo:margin-bottom", "0.2in"),
          ("loext:contextual-spacing", "true"), ("fo:text-indent", "0in")]]]

/-- The declarations of the sequences that captions count in. -/
def sequenceDeclarations (outlineLevel : Nat) : Node :=
  .element "text:sequence-decls" []
    (["Illustration", "Table", "Text", "Drawing"].map fun name =>
      .empty "text:sequence-decl"
        [("text:display-outline-level", toString outlineLevel), ("text:name", name),
          ("text:separation-character", ".")])

def namespaces : Xml.Attributes :=
  [("xmlns:office", "urn:oasis:names:tc:opendocument:xmlns:office:1.0"),
    ("xmlns:style", "urn:oasis:names:tc:opendocument:xmlns:style:1.0"),
    ("xmlns:text", "urn:oasis:names:tc:opendocument:xmlns:text:1.0"),
    ("xmlns:table", "urn:oasis:names:tc:opendocument:xmlns:table:1.0"),
    ("xmlns:fo", "urn:oasis:names:tc:opendocument:xmlns:xsl-fo-compatible:1.0"),
    ("xmlns:loext", "urn:org:documentfoundation:names:experimental:office:xmlns:loext:1.0")]

/-- A whole document around rendered tables and the styles collected for them. -/
def document (outlineLevel : Nat) (styles : List String) (body : String) : Node :=
  .element "office:document-content" (namespaces ++ [("office:version", "1.2")])
    [ .element "office:automatic-styles" [] (sharedStyles ++ styles.map .raw),
      .element "office:body" []
        [.element "office:text" [] [sequenceDeclarations outlineLevel, .raw body]]]

end Odt

/-- Lays out a table and writes it in OpenDocument; its styles are added to the session. -/
def renderOdt (t : Table Float) (s : Session Float) :
    Except Failure String × Session Float :=
  match compile t s with
  | (.error e, s) => (.error e, s)
  | (.ok layout, s) =>
      (.ok (Xml.renderNodes (Odt.body s.options.noteSymbols layout)),
        s.addStyle (Xml.renderNodes (Odt.styles layout)))

/-- Renders tables in order, up to the first that fails, and joins them. -/
def renderAllOdt (s : Session Float) :
    List (Table Float) → Except Failure String × Session Float
  | [] => (.ok "", s)
  | t :: rest =>
      match renderOdt t s with
      | (.error e, s) => (.error e, s)
      | (.ok first, s) =>
          match renderAllOdt s rest with
          | (.error e, s) => (.error e, s)
          | (.ok more, s) => (.ok (first ++ more), s)

end Tabulation
