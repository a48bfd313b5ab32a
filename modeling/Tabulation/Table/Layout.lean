import Tabulation.Column.Alignment
import Tabulation.Column.Indentation
import Tabulation.Content.Directive
import Tabulation.Session
import Tabulation.Table.Basic

/-!
# Layout

Compiling a table places its cells on a grid of physical columns: each logical column has one
physical column for every level of indentation that some cell of it uses, and one for the content.
A first pass takes the directives out of all cells and measures the indentation; a second one
places the cells of each row. Everything that a table shares with the document happens at fixed
points: the table is counted and its name registered before anything can fail, warnings are kept
as soon as the step that gave them is over, and notes are registered when nothing can fail any
more.
-/

namespace Tabulation

open Column

/-- A horizontal rule below a row. -/
inductive Rule where
  | full
  /-- Over physical columns, counted from one, trimmed where the rule does not touch the edge of
  the table. -/
  | partly (first last : Nat) (trimLeft trimRight : Bool)
deriving Repr, DecidableEq

namespace Rule

/-- The rule over a range of physical columns of a table. -/
def spanning (first last total : Nat) : Rule :=
  if first = 1 ∧ last = total then .full
  else .partly first last (first ≠ 1) (last ≠ total)

/-- The sides on which a rule is trimmed. -/
def trim : Rule → String
  | .full => ""
  | .partly _ _ left right => (if left then "l" else "") ++ (if right then "r" else "")

end Rule

/-- A cell on the grid. -/
structure PlacedCell (α : Type) where
  /-- The logical column, counted from zero. -/
  column : Nat
  span : Nat
  indent : Nat
  /-- The physical column in which the content starts, counted from one. -/
  first : Nat
  physicalSpan : Nat
  /-- What the cell is set as, if it is set as a group. -/
  group : Option (Specifier α)
  content : List Inline
  heading : Nat
  vertical : Bool
  /-- The fraction of the text width that the cell covers, its indentation excluded. -/
  width : α

structure PlacedRow (α : Type) where
  cells : List (PlacedCell α)
  rules : List Rule
  /-- For each logical column, whether a rule runs below it. -/
  underlined : List Bool
  header : Bool
  topSpace : Bool
  bottomSpace : Bool

structure Layout (α : Type) where
  /-- The label of the table, or its number. -/
  name : String
  number : String
  /-- The link target of the table. -/
  label : String
  /-- What the link targets of its notes begin with. -/
  notePrefix : String
  /-- The levels of indentation of each logical column. -/
  depths : List Nat
  columns : List (Specifier α)
  physicalColumns : List (Specifier α)
  widths : List α
  rows : List (PlacedRow α)
  caption : List Inline
  notes : List Note
  attributes : Attributes α

/-- Which physical columns belong to which logical one. -/
structure Grid where
  depths : List Nat

namespace Grid

/-- The physical columns of logical columns with the given depths. -/
def columnsOf (depths : List Nat) : Nat :=
  depths.foldr (fun depth columns => depth + 1 + columns) 0

/-- The physical columns in front of a logical column. -/
def offset (g : Grid) (column : Nat) : Nat :=
  columnsOf (g.depths.take column)

def total (g : Grid) : Nat :=
  columnsOf g.depths

/-- The physical columns from a level of a logical column to the end of a span. -/
def physicalSpan (g : Grid) (column span indent : Nat) : Nat :=
  columnsOf ((g.depths.drop column).take span) - indent

end Grid

variable {α : Type} [Scalar α]

/-- Drops the padding of a group at the edges of the table that it touches. -/
def flushEdges (total first physicalSpan : Nat) (leavePadding : Bool) (group : Specifier α) :
    Specifier α :=
  if leavePadding then group
  else
    let group := if first = 1 then group.withoutLeftPadding else group
    if first - 1 + physicalSpan = total then group.withoutRightPadding else group

/-- The part of a width that the first levels of an indented column take. -/
def indentedShare (column : Specifier α) (indent : Nat) (width : α) : α :=
  let total := Scalar.sum column.indentWidths
  if indent = 0 ∨ total ≤ 0.0 then 0.0
  else width * Scalar.sum (column.indentWidths.take indent) / total

/-- The columns of a table and their widths. The warnings count even if the widths are refused. -/
def layoutColumns (attributes : Attributes α) (count : Nat) (total : α) (lenient : Bool) :
    List Warning × Except Error (List (Specifier α) × List α) :=
  if attributes.widths.isEmpty then
    match tableColumns attributes.alignment count lenient with
    | .error e => ([], .error e)
    | .ok (columns, warnings) =>
        let raw := columns.map fun c => c.fractionWidth?.getD 0.0
        (warnings, (shareWidths raw total false).map fun widths => (columns, widths))
  else if attributes.widths.length ≠ count then
    ([], .error (.width (widthsText attributes.widths) (.count count)))
  else
    match shareWidths attributes.widths total true with
    | .error e => ([], .error e)
    | .ok widths =>
        if (Text.trim attributes.alignment).isEmpty then
          let columns := widths.mapM fun w => Specifier.ofValues 'p' [.number w] []
          ([], columns.map fun columns => (columns, widths))
        else
          match tableColumns attributes.alignment count lenient with
          | .error e => ([], .error e)
          | .ok (columns, warnings) => (warnings, .ok (columns, widths))

/-- A cell with its directives taken out of its content. -/
structure MeasuredCell (α : Type) where
  cell : Cell
  directive : Directive α
  content : List Inline

/-- Takes the directives out of a slot, which a covered one has none of. -/
def measureSlot (lenient : Bool) :
    Slot → Except Error (Option (MeasuredCell α) × List Warning)
  | .covered => .ok (none, [])
  | .cell cell => do
      let (directive, content, warnings) ← Directive.extract cell.content lenient
      return (some { cell, directive, content }, warnings)

def measureSlots (lenient : Bool) :
    List Slot → Except Error (List (Option (MeasuredCell α)) × List Warning)
  | [] => .ok ([], [])
  | slot :: rest => do
      let (cell, warnings) ← measureSlot lenient slot
      let (cells, more) ← measureSlots lenient rest
      return (cell :: cells, warnings ++ more)

def measureRows (lenient : Bool) :
    List Row → Except Error (List (List (Option (MeasuredCell α))) × List Warning)
  | [] => .ok ([], [])
  | row :: rest => do
      let (cells, warnings) ← measureSlots lenient row.slots
      let (rows, more) ← measureRows lenient rest
      return (cells :: rows, warnings ++ more)

/-- The indentation of a measured slot. -/
def slotIndent : Option (MeasuredCell α) → Nat
  | some c => c.directive.indent
  | none => 0

/-- The deepest indentation in each column of some rows. -/
def measureDepths (count : Nat) (rows : List (List (Option (MeasuredCell α)))) : List Nat :=
  rows.foldl (fun depths row => depths.zipWith max (row.map slotIndent))
    (List.replicate count 0)

/-- What the cells of a table are placed against. -/
structure Frame (α : Type) where
  grid : Grid
  columns : List (Specifier α)
  physicalColumns : List (Specifier α)
  widths : List α
  leavePadding : Bool

namespace Frame

def columnCount (f : Frame α) : Nat := f.columns.length

/-- The specifier of a group without an explicit one: what the physical column it begins in says,
and if that column says nothing, a column as wide as all that are covered. -/
def anchorGroup (f : Frame α) (column span indent : Nat) : Except Error (Specifier α) := do
  let anchor := (f.physicalColumns[f.grid.offset column + indent]?).getD .plainLeft
  let group ← anchor.group indent
  match anchor.override with
  | .itself =>
      let covered := ((f.columns.drop (column + 1)).take (span - 1))
      let extra := Scalar.sum (covered.filterMap Specifier.fractionWidth?)
      if 1 < span ∧ group.fractionWidth?.isSome ∧ 0.0 < extra then return group.widened extra
      else return group
  | _ => return group

/-- What a cell is set as: nothing of its own if it takes one physical column and does not ask
for a group. -/
def group? (f : Frame α) (d : Directive α) (column span : Nat) :
    Except Error (Option (Specifier α)) := do
  let first := f.grid.offset column + d.indent + 1
  let physicalSpan := f.grid.physicalSpan column span d.indent
  if 1 < physicalSpan || d.force then
    let group ← match d.specifier with
      | some c => pure c
      | none => f.anchorGroup column span d.indent
    return some (flushEdges f.grid.total first physicalSpan f.leavePadding group)
  else return none

/-- The fraction of the text width that a cell covers. -/
def cellWidth (f : Frame α) (column span indent : Nat) : α :=
  let anchor := (f.physicalColumns[f.grid.offset column]?).getD .plainLeft
  let own := (f.widths[column]?).getD 0.0
  Scalar.sum ((f.widths.drop column).take span) - indentedShare anchor indent own

/-- The column behind the rule below a cell, and behind the cell if the rule says nothing of its
own about that. -/
def ruleEnd (column span : Nat) : Option Underline → Nat
  | some (.columns width) => column + max width span
  | _ => column + span

/-- The rule below a cell and the logical columns it underlines, the first one of them and the one
behind the last. A rule that would leave the table ends at its edge, which is seen from the column
behind it and so only if that is a word. -/
def cellRule (f : Frame α) (column span indent : Nat) : Underline → Rule × Nat × Nat
  | .midrule => (.full, 0, f.columnCount)
  | .columns width =>
      let stop := min (column + max width span) f.columnCount
      let first := f.grid.offset column + indent + 1
      (.spanning first (f.grid.offset stop) f.grid.total, column, stop)

end Frame

/-- Marks the columns from `start` up to `stop`. -/
def markRange (start stop : Nat) (flags : List Bool) : List Bool :=
  flags.mapIdx fun i flag => flag || (start ≤ i && i < stop)

/-- What has been placed of a row. -/
structure Placing (α : Type) where
  cells : List (PlacedCell α)
  rules : List Rule
  underlined : List Bool

/-- Places the slots of a row from a column on. `skip` slots are covered by the cell before, even
if they hold cells of their own. The column behind a cell is compared with the edge of the table,
and that behind its rule is cut off there; neither can be found if it is no word. -/
def placeSlots (f : Frame α) (row : Nat) (column skip : Nat) (placed : Placing α) :
    List (Option (MeasuredCell α)) → Except Failure (Placing α)
  | [] => .ok placed
  | slot :: rest =>
      match skip, slot with
      | skip + 1, _ => placeSlots f row (column + 1) skip placed rest
      | 0, none => placeSlots f row (column + 1) 0 placed rest
      | 0, some ⟨cell, directive, content⟩ =>
          let span := directive.span cell.span
          if Decimal.wordLimit ≤ column + span then .error .overflow
          else if f.columnCount < column + span then
            .error (.refused (.columnCount row f.columnCount (column + span)))
          else
            match f.group? directive column span with
            | .error e => .error (.refused e)
            | .ok group =>
                if Decimal.wordLimit ≤ Frame.ruleEnd column span directive.underline then
                  .error .overflow
                else
                  let indent := directive.indent
                  let (rules, underlined) := match directive.underline with
                    | none => (placed.rules, placed.underlined)
                    | some underline =>
                        let (rule, start, stop) := f.cellRule column span indent underline
                        (placed.rules ++ [rule], markRange start stop placed.underlined)
                  let placedCell : PlacedCell α :=
                    { column, span, indent, group, content
                      first := f.grid.offset column + indent + 1
                      physicalSpan := f.grid.physicalSpan column span indent
                      heading := cell.heading
                      vertical := cell.vertical
                      width := f.cellWidth column span indent }
                  placeSlots f row (column + 1) (span - 1)
                    { cells := placed.cells ++ [placedCell], rules, underlined } rest

/-- Adds the rules that a row asks for as a whole. -/
def placeUnderlines (f : Frame α) (row : Nat) (placed : Placing α) :
    List (Nat × Nat) → Except Error (Placing α)
  | [] => .ok placed
  | (first, last) :: rest =>
      if first < 1 ∨ last < first ∨ f.columnCount < last then
        .error (.ruleOutside row first last f.columnCount)
      else
        let rule := Rule.spanning (f.grid.offset (first - 1) + 1) (f.grid.offset last) f.grid.total
        placeUnderlines f row
          { placed with
            rules := placed.rules ++ [rule]
            underlined := markRange (first - 1) last placed.underlined } rest

def placeRow (f : Frame α) (index : Nat) (row : Row) (slots : List (Option (MeasuredCell α))) :
    Except Failure (PlacedRow α) := do
  let start : Placing α :=
    { cells := [], rules := [], underlined := List.replicate f.columnCount false }
  let placed ← placeSlots f index 0 0 start slots
  let placed ← (placeUnderlines f index placed row.underlines).mapError .refused
  return {
    cells := placed.cells
    rules := placed.rules
    underlined := placed.underlined
    header := row.header
    topSpace := row.topSpace
    bottomSpace := row.bottomSpace }

def placeRows (f : Frame α) (index : Nat) :
    List (Row × List (Option (MeasuredCell α))) → Except Failure (List (PlacedRow α))
  | [] => .ok []
  | (row, slots) :: rest => do
      let placed ← placeRow f index row slots
      return placed :: (← placeRows f (index + 1) rest)

/-- A rule across the table below a row. -/
def PlacedRow.withFullRule (row : PlacedRow α) : PlacedRow α :=
  { row with
    rules := row.rules ++ [.full]
    underlined := row.underlined.map fun _ => true }

/-- Puts a rule below the last header row if nothing else stands there. The rows are given
backwards. -/
def ruleHeader : List (PlacedRow α) → List (PlacedRow α)
  | [] => []
  | row :: above =>
      if row.header then
        (if row.rules.isEmpty then row.withFullRule else row) :: above
      else row :: ruleHeader above

/-- The name of a table and its links. -/
structure TableNames where
  number : String
  name : String
  label : String
  notePrefix : String

/-- Counts a table and registers its name, which is its number unless it has a label. -/
def enterTable (label : Option String) (s : Session α) : TableNames × Session α :=
  let (number, s) := s.nextTableNumber
  let name := match label with
    | some l => if (Text.trim l).isEmpty then number else l
    | none => number
  let (label, s) := s.registerTable name
  let notePrefix := "tn:" ++ name
  ({ number, name, label, notePrefix }, s.addTarget notePrefix)

/-- Registers the notes of a table under its prefix. -/
def registerNotes (notePrefix : String) (notes : List Note) (s : Session α) : Session α :=
  notes.foldl
    (fun s note => (s.registerNote notePrefix (noteTarget s.options.noteSymbols note.label)).2) s

/-- Lays out a table. The session is the one after the attempt, however it ends. -/
def compile (t : Table α) (s : Session α) : Except Failure (Layout α) × Session α :=
  let lenient := s.options.lenient
  let total := t.attributes.totalWidth.getD s.options.totalWidth
  let (names, s) := enterTable t.attributes.label s
  match t.validate with
  | .error e => (.error (.refused e), s)
  | .ok count =>
      let (warnings, resolved) := layoutColumns t.attributes count total lenient
      let s := s.warn warnings
      match resolved with
      | .error e => (.error (.refused e), s)
      | .ok (columns, widths) =>
          match measureRows lenient t.rows with
          | .error e => (.error (.refused e), s)
          | .ok (measured, warnings) =>
              let s := s.warn warnings
              let depths := measureDepths count measured
              let physicalColumns := (columns.zipWith Specifier.indent depths).flatten
              let frame : Frame α :=
                { grid := ⟨depths⟩, columns, physicalColumns, widths
                  leavePadding := t.attributes.leaveTablePadding }
              match placeRows frame 0 (t.rows.zip measured) with
              | .error e => (.error e, s)
              | .ok rows =>
                  let layout : Layout α :=
                    { name := names.name
                      number := names.number
                      label := names.label
                      notePrefix := names.notePrefix
                      depths, columns, physicalColumns, widths
                      rows := (ruleHeader rows.reverse).reverse
                      caption := t.caption
                      notes := t.notes
                      attributes := t.attributes }
                  (.ok layout, registerNotes names.notePrefix t.notes s)

/-- The link target of a note of a table. -/
def Layout.noteLabel (layout : Layout α) (style : NoteSymbols) (label : String) : String :=
  layout.notePrefix ++ ":" ++ noteTarget style label

end Tabulation
