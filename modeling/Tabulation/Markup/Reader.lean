import Tabulation.Content.Reader
import Tabulation.Markup.Value
import Tabulation.Xml.Stream

/-!
# Tables and documents from markup

A document is headings, tables and rows of tables set side by side, perhaps inside a `document`
element. A table holds options, a caption, rows of cells and lists of notes, in any order. Each
reader below takes the events from behind a start tag up to and including the matching end tag,
and refuses elements that do not belong there. Tables of a document are not checked against each
other or in themselves: the compiler does that, one table at a time.
-/

namespace Tabulation.Markup

open Xml (Event Stream Tag)

/-- One part of a document. -/
inductive Block (α : Type) where
  | heading (level : Nat)
  | table (table : Table α)
  | floatRow (tables : List (Table α))

/-- What was read, where reading stopped, and the events behind it. -/
structure Read (β : Type) where
  value : β
  position : Nat
  rest : Stream

/-- The number of events in a stream. -/
def size : Stream → Nat
  | .next _ _ rest => size rest + 1
  | _ => 0

def refuse {β : Type} (fault : Fault) (position : Nat) : Except Error β :=
  .error (.markup fault (some position))

/-- Attributes that are read for their own sake. -/
def tagAttributes (tag : Tag) : Except Error (Entries String) :=
  tag.attributes.mapError .xml

/-- Reads values out of attributes; what is wrong with one is reported at a position. -/
def located {β : Type} (position : Nat) (value : Except AttributeFault β) : Except Error β :=
  value.mapError fun fault => .markup (.attribute fault) (some position)

/-- Pieces of text are joined by a space. -/
def appendText (text piece : String) : String :=
  if text.isEmpty then piece else text ++ " " ++ piece

/-- The text of an element up to its end tag. -/
def takeText (name text : String) : Stream → Except Error (Read String)
  | .fault fault => .error (.xml fault)
  | .finish position => refuse (.unclosed name) position
  | .next (.text escaped) _ rest =>
      match Xml.unescape escaped with
      | .error fault => .error (.xml (.reference fault))
      | .ok piece => takeText name (appendText text piece) rest
  | .next (.cdata piece) _ rest => takeText name (appendText text piece) rest
  | .next (.finish closed) position rest =>
      if closed = name then .ok ⟨text, position, rest⟩ else takeText name text rest
  | .next (.start tag) position _ => refuse (.unexpectedIn tag.name ("<" ++ name ++ ">")) position
  | .next (.empty tag) position _ => refuse (.unexpectedIn tag.name ("<" ++ name ++ ">")) position
  | .next .other _ rest => takeText name text rest

theorem takeText_size {name text : String} {s : Stream} {r : Read String}
    (h : takeText name text s = .ok r) : size r.rest < size s := by
  fun_induction takeText name text s with
  | case1 => simp at h
  | case2 => simp [refuse] at h
  | case3 => simp at h
  | case4 _ _ _ rest _ _ ih => have := ih h; simp only [size]; omega
  | case5 _ _ _ rest ih => have := ih h; simp only [size]; omega
  | case6 =>
      simp only [Except.ok.injEq] at h
      rw [← h]
      simp [size]
  | case7 _ _ _ rest _ ih => have := ih h; simp only [size]; omega
  | case8 => simp [refuse] at h
  | case9 => simp [refuse] at h
  | case10 _ _ rest ih => have := ih h; simp only [size]; omega

/-- The cells that one element stands for. -/
def cellsOf (position : Nat) (attributes : Entries String) (text : String) :
    Except Error (List Cell) := do
  let cell : Cell := { content := Inline.ofText text }
  let c ← located position (setCellAttributes { cell } attributes)
  return List.replicate c.times c.cell

/-- A row of cells with the attributes of its tag. -/
def rowOf (position : Nat) (tag : Tag) (cells : List Cell) : Except Error Row :=
  match tag.attributes with
  | .error fault => refuse (.unreadable fault) position
  | .ok attributes =>
      located position (setRowAttributes (.spanned (cells.map .cell)) attributes)

/-- The cells of a row up to its end tag. -/
def takeCells (cells : List Cell) (s : Stream) : Except Error (Read (List Cell)) :=
  match s with
  | .fault fault => .error (.xml fault)
  | .finish position => refuse (.unclosed "row") position
  | .next (.start tag) position rest =>
      if tag.name = "cell" then
        match tagAttributes tag with
        | .error e => .error e
        | .ok attributes =>
            match h : takeText "cell" "" rest with
            | .error e => .error e
            | .ok r =>
                have := takeText_size h
                match cellsOf r.position attributes r.value with
                | .error e => .error e
                | .ok more => takeCells (cells ++ more) r.rest
      else refuse (.unexpectedIn tag.name "row") position
  | .next (.empty tag) position rest =>
      if tag.name = "cell" then
        match tagAttributes tag with
        | .error e => .error e
        | .ok attributes =>
            match cellsOf position attributes "" with
            | .error e => .error e
            | .ok more => takeCells (cells ++ more) rest
      else refuse (.unexpectedIn tag.name "row") position
  | .next (.finish closed) position rest =>
      if closed = "row" then .ok ⟨cells, position, rest⟩ else takeCells cells rest
  | .next _ _ rest => takeCells cells rest
termination_by size s
decreasing_by all_goals simp_all [size] <;> omega

/-- The label of a note. -/
def noteLabelOf (position : Nat) (tag : Tag) : Except Error String :=
  match tag.attributes with
  | .error fault => refuse (.unreadable fault) position
  | .ok attributes =>
      match (attributes.get? "label").bind nonBlank? with
      | some label => .ok label
      | none => refuse .noteWithoutLabel position

/-- The notes of a list up to its end tag. -/
def takeNotes (notes : List Note) (s : Stream) : Except Error (Read (List Note)) :=
  match s with
  | .fault fault => .error (.xml fault)
  | .finish position => refuse (.unclosed "footnotes") position
  | .next (.start tag) position rest =>
      if tag.name = "note" then
        match noteLabelOf position tag with
        | .error e => .error e
        | .ok label =>
            match h : takeText "note" "" rest with
            | .error e => .error e
            | .ok r =>
                have := takeText_size h
                takeNotes (notes ++ [⟨label, Inline.ofText r.value⟩]) r.rest
      else refuse (.unexpectedIn tag.name "footnotes") position
  | .next (.empty tag) position rest =>
      if tag.name = "note" then
        match noteLabelOf position tag with
        | .error e => .error e
        | .ok label => takeNotes (notes ++ [⟨label, []⟩]) rest
      else refuse (.unexpectedIn tag.name "footnotes") position
  | .next (.finish closed) position rest =>
      if closed = "footnotes" then .ok ⟨notes, position, rest⟩ else takeNotes notes rest
  | .next _ _ rest => takeNotes notes rest
termination_by size s
decreasing_by all_goals simp_all [size] <;> omega

theorem takeCells_size {cells : List Cell} {s : Stream} {r : Read (List Cell)}
    (h : takeCells cells s = .ok r) : size r.rest < size s := by
  fun_induction takeCells cells s
  all_goals first
    | (simp [refuse] at h; done)
    | (simp only [Except.ok.injEq] at h; rw [← h]; simp [size])
    | (rename_i ih; have := ih h; simp only [size]; omega)

theorem takeNotes_size {notes : List Note} {s : Stream} {r : Read (List Note)}
    (h : takeNotes notes s = .ok r) : size r.rest < size s := by
  fun_induction takeNotes notes s
  all_goals first
    | (simp [refuse] at h; done)
    | (simp only [Except.ok.injEq] at h; rw [← h]; simp [size])
    | (rename_i ih; have := ih h; simp only [size]; omega)

/-- A row up to its end tag. -/
def takeRow (tag : Tag) (s : Stream) : Except Error (Read Row) :=
  match takeCells [] s with
  | .error e => .error e
  | .ok r => (rowOf r.position tag r.value).map fun row => ⟨row, r.position, r.rest⟩

theorem takeRow_size {tag : Tag} {s : Stream} {r : Read Row} (h : takeRow tag s = .ok r) :
    size r.rest < size s := by
  simp only [takeRow] at h
  split at h
  · simp at h
  · next hc =>
      have := takeCells_size hc
      cases ht : rowOf _ tag _ with
      | error => rw [ht] at h; simp [Except.map] at h
      | ok =>
          rw [ht] at h
          simp only [Except.map, Except.ok.injEq] at h
          rw [← h]
          exact this

/-- What has been read of a table. -/
structure Draft (α : Type) where
  table : Table α
  hasOptions : Bool := false
  hasCaption : Bool := false

namespace Draft

variable {α : Type} [Scalar α]

def addRow (d : Draft α) (row : Row) : Draft α :=
  { d with table := { d.table with rows := d.table.rows ++ [row] } }

def addNotes (d : Draft α) (notes : List Note) : Draft α :=
  { d with table := { d.table with notes := d.table.notes ++ notes } }

/-- Sets the options of a table, which may be given once. -/
def addOptions (d : Draft α) (position : Nat) (tag : Tag) : Except Error (Draft α) := do
  if d.hasOptions then refuse .secondOptions position
  else
    let attributes ← located position (setOptions d.table.attributes (← tagAttributes tag))
    return { d with table := { d.table with attributes }, hasOptions := true }

def addCaption (d : Draft α) (text : String) : Draft α :=
  { d with table := { d.table with caption := Inline.ofText text }, hasCaption := true }

end Draft

/-- Text outside of cells means nothing, but its references must be sound. -/
def checkText (escaped : String) : Except Error Unit :=
  match Xml.unescape escaped with
  | .error fault => .error (.xml (.reference fault))
  | .ok _ => .ok ()

section

variable {α : Type} [Scalar α]

/-- A table up to its end tag. -/
def takeTable (d : Draft α) (s : Stream) : Except Error (Read (Table α)) :=
  match s with
  | .fault fault => .error (.xml fault)
  | .finish position => refuse (.unclosed "table") position
  | .next (.start tag) position rest =>
      if tag.name = "options" then
        match d.addOptions position tag with
        | .error e => .error e
        | .ok d => takeTable d rest
      else if tag.name = "caption" then
        if d.hasCaption then refuse .secondCaption position
        else
          match h : takeText "caption" "" rest with
          | .error e => .error e
          | .ok r =>
              have := takeText_size h
              takeTable (d.addCaption r.value) r.rest
      else if tag.name = "row" then
        match h : takeRow tag rest with
        | .error e => .error e
        | .ok r =>
            have := takeRow_size h
            takeTable (d.addRow r.value) r.rest
      else if tag.name = "footnotes" then
        match h : takeNotes [] rest with
        | .error e => .error e
        | .ok r =>
            have := takeNotes_size h
            takeTable (d.addNotes r.value) r.rest
      else refuse (.unexpectedIn tag.name "table") position
  | .next (.empty tag) position rest =>
      if tag.name = "options" then
        match d.addOptions position tag with
        | .error e => .error e
        | .ok d => takeTable d rest
      else if tag.name = "row" then
        match rowOf position tag [] with
        | .error e => .error e
        | .ok row => takeTable (d.addRow row) rest
      else if tag.name = "caption" ∨ tag.name = "footnotes" then takeTable d rest
      else refuse (.unexpectedEmptyIn tag.name "table") position
  | .next (.finish closed) position rest =>
      if closed = "table" then .ok ⟨d.table, position, rest⟩ else takeTable d rest
  | .next (.text escaped) _ rest =>
      match checkText escaped with
      | .error e => .error e
      | .ok () => takeTable d rest
  | .next _ _ rest => takeTable d rest
termination_by size s
decreasing_by all_goals simp_all [size] <;> omega

theorem takeTable_size {d : Draft α} {s : Stream} {r : Read (Table α)}
    (h : takeTable d s = .ok r) : size r.rest < size s := by
  fun_induction takeTable d s
  all_goals first
    | (simp [refuse] at h; done)
    | (simp only [Except.ok.injEq] at h; rw [← h]; simp [size])
    | (rename_i ih; have := ih h; simp only [size]; omega)

/-- A table of which nothing has been read. -/
def emptyDraft : Draft α := { table := { rows := [], attributes := .default } }

/-- The tables of a float row up to its end tag; there must be one. -/
def takeFloatRow (tables : List (Table α)) (s : Stream) :
    Except Error (Read (List (Table α))) :=
  match s with
  | .fault fault => .error (.xml fault)
  | .finish position => refuse (.unclosed "floatrow") position
  | .next (.start tag) position rest =>
      if tag.name = "table" then
        match h : takeTable (α := α) emptyDraft rest with
        | .error e => .error e
        | .ok r =>
            have := takeTable_size h
            takeFloatRow (tables ++ [r.value]) r.rest
      else refuse (.unexpectedIn tag.name "floatrow") position
  | .next (.empty tag) position _ => refuse (.unexpectedIn tag.name "floatrow") position
  | .next (.finish closed) position rest =>
      if closed = "floatrow" then
        if tables.isEmpty then refuse .emptyFloatRow position else .ok ⟨tables, position, rest⟩
      else takeFloatRow tables rest
  | .next _ _ rest => takeFloatRow tables rest
termination_by size s
decreasing_by all_goals simp_all [size] <;> omega

theorem takeFloatRow_size {tables : List (Table α)} {s : Stream} {r : Read (List (Table α))}
    (h : takeFloatRow tables s = .ok r) : size r.rest < size s := by
  fun_induction takeFloatRow tables s
  all_goals first
    | (simp [refuse] at h; done)
    | (simp only [Except.ok.injEq] at h; rw [← h]; simp [size])
    | (rename_i ih; have := ih h; simp only [size]; omega)

/-- Skips the content of an element, in which elements of its name may be nested. -/
def skipElement (name : String) (depth : Nat) : Stream → Except Error Stream
  | .fault fault => .error (.xml fault)
  | .finish _ => .error (.xml (.unexpectedEnd (.element name)))
  | .next (.start tag) _ rest =>
      skipElement name (if tag.name = name then depth + 1 else depth) rest
  | .next (.finish closed) _ rest =>
      if closed = name then
        match depth with
        | 0 => .ok rest
        | depth + 1 => skipElement name depth rest
      else skipElement name depth rest
  | .next _ _ rest => skipElement name depth rest

theorem skipElement_size {name : String} {depth : Nat} {s rest : Stream}
    (h : skipElement name depth s = .ok rest) : size rest < size s := by
  fun_induction skipElement name depth s
  all_goals first
    | (simp at h; done)
    | (simp only [Except.ok.injEq] at h; rw [← h]; simp [size])
    | (rename_i ih; have := ih h; simp only [size]; omega)

/-- The level of a heading, one if it has none. -/
def levelOf (tag : Tag) : Except Error Nat := do
  match (← tagAttributes tag).get? "level" with
  | some value =>
      (countOf "level" value).mapError fun fault => .markup (.attribute fault) none
  | none => return 1

/-- The blocks of a document from some event on. -/
def takeBlocks (s : Stream) : Except Error (List (Block α)) :=
  match s with
  | .fault fault => .error (.xml fault)
  | .finish _ => .ok []
  | .next (.start tag) position rest =>
      if tag.name = "document" then takeBlocks rest
      else if tag.name = "table" then
        match h : takeTable (α := α) emptyDraft rest with
        | .error e => .error e
        | .ok r =>
            have := takeTable_size h
            (takeBlocks r.rest).map (.table r.value :: ·)
      else if tag.name = "floatrow" then
        match h : takeFloatRow (α := α) [] rest with
        | .error e => .error e
        | .ok r =>
            have := takeFloatRow_size h
            (takeBlocks r.rest).map (.floatRow r.value :: ·)
      else if tag.name = "heading" then
        match levelOf tag with
        | .error e => .error e
        | .ok level =>
            match h : skipElement "heading" 0 rest with
            | .error e => .error e
            | .ok rest =>
                have := skipElement_size h
                (takeBlocks rest).map (.heading level :: ·)
      else refuse (.unexpected tag.name) position
  | .next (.empty tag) position rest =>
      if tag.name = "document" then takeBlocks rest
      else if tag.name = "heading" then
        match levelOf tag with
        | .error e => .error e
        | .ok level => (takeBlocks rest).map (.heading level :: ·)
      else refuse (.unexpectedEmpty tag.name) position
  | .next (.text escaped) _ rest =>
      match checkText escaped with
      | .error e => .error e
      | .ok () => takeBlocks rest
  | .next _ _ rest => takeBlocks rest
termination_by size s
decreasing_by all_goals simp_all [size] <;> omega

/-- The blocks of a document. -/
def parseDocument (markup : String) : Except Error (List (Block α)) :=
  takeBlocks (.ofText markup)

/-- Goes to the first table and reads it. -/
def findTable : Stream → Except Error (Table α)
  | .fault fault => .error (.xml fault)
  | .finish position => refuse .noTable position
  | .next (.start tag) position rest =>
      if tag.name = "table" then (takeTable emptyDraft rest).map Read.value
      else refuse (.unexpected tag.name) position
  | .next (.empty tag) position _ =>
      if tag.name = "table" then refuse .noRows position
      else refuse (.unexpected tag.name) position
  | .next _ _ rest => findTable rest

/-- A table that stands by itself, and whose rows agree. -/
def parseTable (markup : String) : Except Error (Table α) := do
  let table ← findTable (.ofText markup)
  let _ ← table.validate
  return table

end

end Tabulation.Markup
