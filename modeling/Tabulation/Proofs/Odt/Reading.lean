import Mathlib
import Tabulation.Proofs.Leniency.Session
import Tabulation.Proofs.Odt.Legible
import Tabulation.Proofs.Odt.Text

/-!
# Reading a table

The two texts that are written for a table are read back, and what was read is
held against the layout: all tags match, each row has the elements that its
cells ask for, and each paragraph shows its text.
-/

namespace Tabulation

open Xml

namespace Odt

/-- The elements in a row: each cell, and behind it one for each column that it
covers besides its own. -/
def rowElements (row : PlacedRow Float) : List String :=
  row.cells.flatMap fun cell =>
    "table:table-cell" ::
      List.replicate (cell.span - 1) "table:covered-table-cell"

theorem name?_cellNodes (symbols : NoteSymbols) (style : String)
    (cell : PlacedCell Float) :
    (cellNodes symbols style cell).map Node.name? =
      ("table:table-cell" ::
        List.replicate (cell.span - 1) "table:covered-table-cell").map
          some := by
  simp [cellNodes, Node.name?]

theorem name?_rowNode (symbols : NoteSymbols) (table : String) (index : Nat)
    (row : PlacedRow Float) :
    (row.cells.flatMap fun cell =>
      cellNodes symbols (cellStyleName table cell.column index) cell).map
        Node.name? = (rowElements row).map some := by
  rw [rowElements, List.map_flatMap, List.map_flatMap]
  simp only [name?_cellNodes]

theorem length_rowElements {row : PlacedRow Float}
    (h : ∀ cell ∈ row.cells, 1 ≤ cell.span) :
    (rowElements row).length = (row.cells.map PlacedCell.span).sum := by
  rw [rowElements, List.length_flatMap]
  refine congrArg List.sum (List.map_congr_left fun cell hcell => ?_)
  have hspan := h cell hcell
  rw [List.length_cons, List.length_replicate]
  omega

theorem name?_body (symbols : NoteSymbols) (layout : Layout Float) :
    ∀ n ∈ body symbols layout, n.name? ≠ none := by
  intro n hn
  rcases List.mem_append.mp hn with hn | hn
  · rcases List.mem_cons.mp hn with rfl | hn
    · exact Option.some_ne_none _
    · rw [List.mem_singleton.mp hn]
      exact Option.some_ne_none _
  · obtain ⟨note, _, rfl⟩ := List.mem_map.mp hn
    exact Option.some_ne_none _

/-- The elements of the rows in a tree are those of the rows of a layout. -/
def SameRows (layout : Layout Float) (tree : List Node) : Prop :=
  (elementsOf "table:table-row" tree).map (·.children.map Node.name?) =
    layout.rows.map fun row => (rowElements row).map some

theorem sameRows_body (symbols : NoteSymbols) (layout : Layout Float) :
    SameRows layout (body symbols layout) := by
  have h := congrArg (List.map (List.map Node.name?))
    (elementsOf_tableRow symbols layout)
  rw [List.map_map, List.mapIdx_eq_zipIdx_map, List.map_map] at h
  simp only [Function.comp_def, name?_rowNode] at h
  refine h.trans ?_
  rw [← List.zipIdx_map_fst 0 layout.rows, List.map_map]
  simp [Function.comp_def]

namespace SameRows

variable {layout : Layout Float} {tree : List Node}

theorem spans (h : SameRows layout tree)
    (hspan : ∀ row ∈ layout.rows, ∀ cell ∈ row.cells, 1 ≤ cell.span) :
    (elementsOf "table:table-row" tree).map (·.children.length) =
      layout.rows.map fun row => (row.cells.map PlacedCell.span).sum := by
  have hlength := congrArg (List.map List.length) h
  simp only [List.map_map, Function.comp_def, List.length_map] at hlength
  rw [hlength]
  exact List.map_congr_left fun row hrow => length_rowElements (hspan row hrow)

theorem spelled (h : SameRows layout tree) :
    SameRows layout (Xml.spelled tree) := by
  rw [SameRows, elementsOf_spelled, List.map_map, ← h]
  -- What stands in a row has a name, so none of it is a text to take apart.
  refine List.map_congr_left fun e he => name?_spelled fun n hn hnone => ?_
  have hmem : e.children.map Node.name? ∈
      layout.rows.map fun row => (rowElements row).map some :=
    h ▸ List.mem_map_of_mem (f := fun e => e.children.map Node.name?) he
  obtain ⟨row, _, hrow⟩ := List.mem_map.mp hmem
  have hname := List.mem_map_of_mem (f := Node.name?) hn
  rw [← hrow, hnone] at hname
  obtain ⟨name, _, hname⟩ := List.mem_map.mp hname
  cases hname

end SameRows

/-- A tree that shows a layout, with something between terms and definitions of
notes. -/
structure Shows (symbols : NoteSymbols) (between : String)
    (layout : Layout Float) (tree : List Node) : Prop where
  /-- There is no text between the elements of a body. -/
  elements : ∀ n ∈ tree, n.name? ≠ none
  rows : SameRows layout tree
  spans : (elementsOf "table:table-row" tree).map (·.children.length) =
    layout.rows.map fun row => (row.cells.map PlacedCell.span).sum
  paragraphs : paragraphsOf tree = paragraphs symbols between layout
  text : shown tree = String.join (Odt.paragraphs symbols between layout)

theorem paragraphsOf_spelled (tree : List Node) :
    paragraphsOf (Xml.spelled tree) = paragraphsOf tree := by
  rw [paragraphsOf, elementsOf_spelled, List.map_map]
  exact List.map_congr_left fun e _ => shown_spelled e.children

/-- Reading what is written for a layout shows it. -/
theorem spelled_shows (symbols : NoteSymbols) {layout : Layout Float}
    (h : ∀ row ∈ layout.rows, ∀ cell ∈ row.cells, 1 ≤ cell.span) :
    Shows symbols " " layout (Xml.spelled (body symbols layout)) where
  elements := name?_spelled_ne (name?_body symbols layout)
  rows := (sameRows_body symbols layout).spelled
  spans := (sameRows_body symbols layout).spelled.spans h
  paragraphs := by rw [paragraphsOf_spelled, paragraphsOf_body]
  text := by rw [shown_spelled, typeset_body, paragraphsOf_body]

theorem name?_styles (layout : Layout Float) :
    ∀ n ∈ styles layout, n.name? ≠ none := by
  intro n hn
  rcases mem_styles hn with ⟨name, width, rfl⟩ | ⟨name, top, indent, line, rfl⟩
  · exact Option.some_ne_none _
  · exact Option.some_ne_none _

theorem shown_styles (layout : Layout Float) : shown (styles layout) = "" := by
  refine shown_eq_empty fun n hn => ?_
  rcases mem_styles hn with ⟨name, width, rfl⟩ | ⟨name, top, indent, line, rfl⟩
  · rfl
  · rfl

end Odt

open Odt

theorem Compilation.one_le_span {t : Table Float} {s : Session Float}
    (c : Compilation t s) :
    ∀ row ∈ c.layout.rows, ∀ cell ∈ row.cells, 1 ≤ cell.span := by
  intro row hrow cell hcell
  obtain ⟨i, _, slots, placed, _, hslots, hplace, hfinish⟩ := c.row_source hrow
  rw [hfinish.cells] at hcell
  obtain ⟨m, group, heq, _⟩ := (placeRow_places hplace).mem hcell
  rw [heq]
  exact m.one_le_span

theorem renderOdt_of_compile {t : Table Float} {s s' : Session Float}
    {layout : Layout Float} (h : compile t s = (.ok layout, s')) :
    renderOdt t s =
      (.ok (renderNodes (body s.options.noteSymbols layout)),
        s'.addStyle (renderNodes (Odt.styles layout))) := by
  have hoptions := (compile_continues t s).options
  rw [h] at hoptions
  rw [renderOdt, h, ← hoptions]

/-- What reading the two texts gives that are written for a layout. -/
theorem Compilation.reads {t : Table Float} {s : Session Float}
    (c : Compilation t s) (hfree : t.Free rawFormats) (symbols : NoteSymbols) :
    ∃ tree styles, read (renderNodes (body symbols c.layout)) = some tree ∧
      Shows symbols " " c.layout tree ∧
      read (renderNodes (Odt.styles c.layout)) = some styles ∧
      (∀ n ∈ styles, n.name? ≠ none) ∧ shown styles = "" :=
  ⟨_, _,
    read_renderNodes (legible_body symbols hfree.caption (c.free_cells hfree)
      hfree.notes),
    spelled_shows symbols c.one_le_span,
    read_renderNodes (legible_styles c.layout),
    name?_spelled_ne (name?_styles c.layout),
    (shown_spelled _).trans (shown_styles c.layout)⟩

/-- A table that compiles and has no raw text for this format is written as two
texts that are properly nested. In the body, each row has a cell for each cell
of the layout and an empty one for each column that this covers besides its
own, so as many as the spans add up to. And what is shown there, paragraph by
paragraph, is the caption behind the number of the table, the contents of the
cells, and the notes with a blank between a term and a definition. -/
theorem renderOdt_reads {t : Table Float} {s s' : Session Float}
    {layout : Layout Float} (h : compile t s = (.ok layout, s'))
    (hfree : t.Free rawFormats) : ∃ text style tree styles,
      renderOdt t s = (.ok text, s'.addStyle style) ∧
      read text = some tree ∧ Shows s.options.noteSymbols " " layout tree ∧
      read style = some styles ∧ (∀ n ∈ styles, n.name? ≠ none) ∧
      shown styles = "" := by
  obtain ⟨c, rfl, _⟩ := compile_eq_ok_iff.mp h
  obtain ⟨tree, styles, hread⟩ := c.reads hfree s.options.noteSymbols
  exact ⟨_, _, tree, styles, renderOdt_of_compile h, hread⟩

/-- A cell over two columns with a mark in it, and a note with a definition. -/
def notedTable : Table Float where
  rows := [Row.spanned
    [.cell { content := [.word "a<b", .note "*2"], span := 2 }]]
  attributes := Attributes.default
  notes := [⟨"*2", [.word "see", .space, .strong [.word "b"]]⟩]

theorem notedTable_free : notedTable.Free rawFormats :=
  ⟨by decide, by decide, by decide⟩

theorem compile_notedTable : ∃ layout s',
    compile notedTable { options := Options.default } = (.ok layout, s') ∧
      String.join (paragraphs .lion " " layout) = "Table 0.1a<b†† see b" ∧
      String.join (paragraphs .lion "" layout) = "Table 0.1a<b††see b" := by
  have htexts : (compile notedTable
      { options := Options.default }).1.toOption.map (fun layout =>
        (String.join (paragraphs .lion " " layout),
          String.join (paragraphs .lion "" layout))) =
      some ("Table 0.1a<b†† see b", "Table 0.1a<b††see b") := by decide +kernel
  generalize compile notedTable { options := Options.default } = run at htexts
  obtain ⟨answer, s'⟩ := run
  cases answer with
  | error e => cases htexts
  | ok layout =>
      obtain ⟨hblank, hclose⟩ := Prod.mk.inj (Option.some.inj htexts)
      exact ⟨layout, s', rfl, hblank, hclose⟩

theorem renderOdt_notedTable : ∃ text s' tree,
    renderOdt notedTable { options := Options.default } = (.ok text, s') ∧
      read text = some tree ∧ shown tree = "Table 0.1a<b†† see b" := by
  obtain ⟨layout, s', hrun, htext, _⟩ := compile_notedTable
  obtain ⟨text, style, tree, _, hrender, hread, hshows, _⟩ :=
    renderOdt_reads hrun notedTable_free
  exact ⟨text, _, tree, hrender, hread, hshows.text.trans htext⟩

/-- The blank between a term and a definition is in neither of them. -/
theorem renderOdt_blank : ∃ layout s' text style tree,
    compile notedTable { options := Options.default } = (.ok layout, s') ∧
      renderOdt notedTable { options := Options.default } =
        (.ok text, s'.addStyle style) ∧
      read text = some tree ∧ ¬ Shows .lion "" layout tree := by
  obtain ⟨layout, s', hrun, hblank, hclose⟩ := compile_notedTable
  obtain ⟨c, rfl, rfl⟩ := compile_eq_ok_iff.mp hrun
  obtain ⟨tree, styles, hread, hshows, _⟩ := c.reads notedTable_free .lion
  refine ⟨_, _, _, _, tree, hrun, renderOdt_of_compile hrun, hread, ?_⟩
  intro hnot
  have htext := hshows.text.symm.trans hnot.text
  rw [hblank, hclose] at htext
  exact absurd htext (by decide)

end Tabulation
