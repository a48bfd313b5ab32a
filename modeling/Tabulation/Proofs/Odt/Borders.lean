import Mathlib
import Tabulation.Proofs.Layout.Runs
import Tabulation.Proofs.Styles.Table

/-!
# Which rules reach OpenDocument

LaTeX draws the rules of a row itself. OpenDocument has only the border of a
cell, and a cell has one exactly if its first column is underlined. So a rule
below some columns is kept if they are under cells whose first columns the rule
also runs below. A range of the row that begins in the middle of a cell is
lost, unless something else underlines the first column of that cell; and
nothing but such a range, or a column that no cell stands over, makes a
difference between what LaTeX draws and what OpenDocument shows.
-/

namespace Tabulation

open Xml

namespace Odt

/-! ## Borders -/

/-- Whether the properties of a style give cells a border at the bottom. -/
def hasBottomBorder (style : Element) : Bool :=
  (elementsOf "style:table-cell-properties" style.children).any fun e =>
    (e.attributes.lookup "fo:border-bottom").isSome

/-- The element of a cell in the body of a table, by its row and by its place
among the cells of the row. -/
def cellElement? (symbols : NoteSymbols) (layout : Layout Float)
    (index place : Nat) : Option Element :=
  (elementsOf "table:table-row" (body symbols layout))[index]?.bind fun row =>
    (elementsOf "table:table-cell" row.children)[place]?

/-- The element of a cell refers to a style of cells with a border. -/
def Bordered (symbols : NoteSymbols) (layout : Layout Float)
    (index place : Nat) : Prop :=
  ∃ e, cellElement? symbols layout index place = some e ∧
    ∃ style ∈ elementsOf "style:style" (styles layout),
      familyAndName style = (some "table-cell", styleRef e) ∧
        hasBottomBorder style = true

/-- What a style says of itself: what it is for, its name and the border. -/
def profile (style : Element) : (Option String × Option String) × Bool :=
  (familyAndName style, hasBottomBorder style)

theorem profile_cellStyle (name : String) (paddingTop : Float) (indent : Nat)
    (underlined : Bool) :
    (elementsOf "style:style" [cellStyle name paddingTop indent underlined]).map
      profile = [((some "table-cell", some name), underlined)] := by
  cases underlined <;>
    simp [cellStyle, profile, familyAndName, hasBottomBorder, List.lookup]

theorem styleRef_cellElement? (symbols : NoteSymbols) {layout : Layout Float}
    {index : Nat} {row : PlacedRow Float} (h : layout.rows[index]? = some row)
    (place : Nat) :
    (cellElement? symbols layout index place).map styleRef =
      row.cells[place]?.map fun cell =>
        some (styleName layout.number cell.column (some index)) := by
  have hrows := congrArg (·[index]?) (elementsOf_tableRow symbols layout)
  simp only [List.getElem?_map, List.getElem?_mapIdx, h,
    Option.map_some] at hrows
  obtain ⟨found, hfound, hchildren⟩ := Option.map_eq_some_iff.mp hrows
  rw [cellElement?, hfound, Option.bind_some, hchildren, ← List.getElem?_map,
    styleRef_cells, rowNames, List.map_map, List.getElem?_map]
  rfl

theorem mem_profile_rowsStyles {number name : String}
    {rows : List (PlacedRow Float)} :
    ((some "table-cell", some name), true) ∈
        (elementsOf "style:style"
          (rowsStyles (tableName number) 0 none rows)).map profile ↔
      ∃ index row, rows[index]? = some row ∧ ∃ cell ∈ row.cells,
        name = styleName number cell.column (some index) ∧
          row.underlined[cell.column]? = some true := by
  rw [map_rowsStyles (g := fun name underlined =>
    ((some "table-cell", some name), underlined)) profile_cellStyle]
  constructor
  · intro h
    obtain ⟨⟨row, index⟩, hrow, h⟩ := List.mem_flatMap.mp h
    obtain ⟨cell, hcell, heq⟩ := List.mem_map.mp h
    obtain ⟨hnames, hmarked⟩ := Prod.mk.inj heq
    refine ⟨index, row, List.mem_zipIdx_iff_getElem?.mp hrow, cell, hcell,
      (Option.some.inj (Prod.mk.inj hnames).2).symm, ?_⟩
    cases hflag : row.underlined[cell.column]? with
    | none =>
        rw [hflag] at hmarked
        cases hmarked
    | some flag =>
        rw [hflag] at hmarked
        exact congrArg some hmarked
  · rintro ⟨index, row, hrow, cell, hcell, rfl, hmarked⟩
    refine List.mem_flatMap.mpr ⟨(row, index),
      List.mem_zipIdx_iff_getElem?.mpr hrow,
      List.mem_map.mpr ⟨cell, hcell, ?_⟩⟩
    rw [hmarked]
    rfl

/-- Whether a style of cells has a border, by the name of the style. -/
theorem bordered_style_iff {layout : Layout Float} {name : String} :
    (∃ style ∈ elementsOf "style:style" (styles layout),
      familyAndName style = (some "table-cell", some name) ∧
        hasBottomBorder style = true) ↔
    ∃ index row, layout.rows[index]? = some row ∧ ∃ cell ∈ row.cells,
      name = styleName layout.number cell.column (some index) ∧
        row.underlined[cell.column]? = some true := by
  rw [← mem_profile_rowsStyles, List.mem_map]
  constructor
  · rintro ⟨style, hstyle, hname, hborder⟩
    rw [styles, elementsOf_append, List.mem_append] at hstyle
    rcases hstyle with hcolumn | hcell
    · -- The styles in front are those of columns.
      have hfound := List.mem_map_of_mem (f := familyAndName) hcolumn
      rw [named_columnStyles, hname] at hfound
      obtain ⟨column, _, hfamily⟩ := List.mem_map.mp hfound
      exact absurd (Prod.mk.inj hfamily).1 (by decide)
    · exact ⟨style, hcell, Prod.ext hname hborder⟩
  · rintro ⟨style, hcell, hprofile⟩
    obtain ⟨hname, hborder⟩ := Prod.mk.inj hprofile
    refine ⟨style, ?_, hname, hborder⟩
    rw [styles, elementsOf_append]
    exact List.mem_append_right _ hcell

/-- A cell has a border exactly if its first column is underlined. -/
theorem bordered_iff (symbols : NoteSymbols) {layout : Layout Float}
    {index place : Nat} {row : PlacedRow Float} {cell : PlacedCell Float}
    (hrow : layout.rows[index]? = some row)
    (hcell : row.cells[place]? = some cell) :
    Bordered symbols layout index place ↔
      row.underlined[cell.column]? = some true := by
  have href := styleRef_cellElement? symbols hrow place
  rw [hcell, Option.map_some] at href
  obtain ⟨e, he, hname⟩ := Option.map_eq_some_iff.mp href
  simp only [Bordered, he, Option.some_inj, exists_eq_left', hname,
    bordered_style_iff]
  constructor
  · rintro ⟨index', row', hrow', cell', _, heq, hmarked⟩
    obtain ⟨_, hcolumn, hindex⟩ := styleName_inj heq
    rw [← Option.some.inj hindex, hrow] at hrow'
    rw [Option.some.inj hrow', hcolumn]
    exact hmarked
  · intro hmarked
    exact ⟨index, row, hrow, cell, List.mem_of_getElem? hcell, rfl, hmarked⟩

/-- A cell with a border stands over a column. -/
def ShowsRule (symbols : NoteSymbols) (layout : Layout Float) (index : Nat)
    (row : PlacedRow Float) (column : Nat) : Prop :=
  ∃ place cell, row.cells[place]? = some cell ∧ cell.Over column ∧
    Bordered symbols layout index place

theorem showsRule_iff (symbols : NoteSymbols) {layout : Layout Float}
    {index : Nat} {row : PlacedRow Float}
    (hrow : layout.rows[index]? = some row) {column : Nat} :
    ShowsRule symbols layout index row column ↔
      ∃ cell ∈ row.cells, cell.Over column ∧
        row.underlined[cell.column]? = some true := by
  constructor
  · rintro ⟨place, cell, hplace, hover, hborder⟩
    exact ⟨cell, List.mem_of_getElem? hplace, hover,
      (bordered_iff symbols hrow hplace).mp hborder⟩
  · rintro ⟨cell, hcell, hover, hmarked⟩
    obtain ⟨place, hplace⟩ := List.getElem?_of_mem hcell
    exact ⟨place, cell, hplace, hover,
      (bordered_iff symbols hrow hplace).mpr hmarked⟩

end Odt

/-! ## Rows -/

/-- What OpenDocument shows of the rules below a row: all of them, exactly if
the columns that they run below are under cells, and no range that the row asks
for begins over a cell without the first column of the cell being underlined.
Where the cells tile the row, it depends on the ranges alone. -/
structure PlacedRow.Bordered (symbols : NoteSymbols) (layout : Layout Float)
    (source : Row) (index : Nat) (row : PlacedRow Float) : Prop where
  cells : ∀ place cell, row.cells[place]? = some cell →
    (Odt.Bordered symbols layout index place ↔
      row.underlined[cell.column]? = some true)
  shown_iff :
    (∀ column, row.underlined[column]? = some true →
      Odt.ShowsRule symbols layout index row column) ↔
    (∀ column, row.underlined[column]? = some true →
      ∃ cell ∈ row.cells, cell.Over column) ∧
    ∀ range ∈ source.underlines, ∀ cell ∈ row.cells,
      cell.Over (range.1 - 1) → row.underlined[cell.column]? = some true
  tiled : Tiles layout.columns.length 0 row.cells →
    ((∀ column, row.underlined[column]? = some true →
      Odt.ShowsRule symbols layout index row column) ↔
    ∀ range ∈ source.underlines, ∀ cell ∈ row.cells,
      cell.Over (range.1 - 1) → row.underlined[cell.column]? = some true)

theorem Compilation.row_bordered {t : Table Float} {s : Session Float}
    (c : Compilation t s) (symbols : NoteSymbols) {index : Nat} {source : Row}
    {row : PlacedRow Float} (hsource : t.rows[index]? = some source)
    (hrow : c.layout.rows[index]? = some row) :
    row.Bordered symbols c.layout source index := by
  obtain ⟨slots, _, placed, _, _, hplace, hfinish⟩ := c.row_at hsource hrow
  obtain ⟨found, hplaces, hlength, _⟩ := c.row_places hsource hrow
  have hruns := hfinish.runs (placeRow_runs hplace)
  have hshown := hruns.first_underlined_iff
    (hplaces.apart (by omega) (Nat.zero_le _))
    fun range hrange => hfinish.marked (placeRow_marks hplace range hrange)
  simp only [← Odt.showsRule_iff symbols hrow, PlacedRow.placing] at hshown
  refine ⟨fun place cell => Odt.bordered_iff symbols hrow, hshown, ?_⟩
  intro htiles
  rw [hshown, and_iff_right]
  intro column hcolumn
  have hlt := (List.getElem?_eq_some_iff.mp hcolumn).1
  rw [hfinish.length_underlined, placeRow_length hplace] at hlt
  exact htiles.over (Nat.zero_le _) hlt

/-- What compiles is written with these borders. -/
theorem compile_bordered {t : Table Float} {s s' : Session Float}
    {layout : Layout Float} (h : compile t s = (.ok layout, s')) :
    renderOdt t s =
        (.ok (renderNodes (Odt.body s'.options.noteSymbols layout)),
          s'.addStyle (renderNodes (Odt.styles layout))) ∧
      ∀ (index : Nat) (source : Row) (row : PlacedRow Float),
        t.rows[index]? = some source → layout.rows[index]? = some row →
          row.Bordered s'.options.noteSymbols layout source index := by
  refine ⟨by rw [renderOdt, h], ?_⟩
  obtain ⟨c, rfl, rfl⟩ := compile_eq_ok_iff.mp h
  intro index source row hsource hrow
  exact c.row_bordered _ hsource hrow

/-- A range over both columns of one cell and half of another. -/
def reachedSpan : Table Float where
  rows :=
    [{ slots := [.cell { content := [.word "a"], span := 2 }, .covered,
          .cell { content := [.word "b"], span := 2 }, .covered]
       underlines := [(1, 3)] }]
  attributes := Attributes.default

theorem compile_reachedSpan : ∃ layout s' row,
    compile reachedSpan { options := Options.default } = (.ok layout, s') ∧
      layout.rows[0]? = some row ∧
      row.underlined = [true, true, true, false] ∧
      ∀ column, row.underlined[column]? = some true →
        Odt.ShowsRule s'.options.noteSymbols layout 0 row column := by
  refine ⟨_, _, _, rfl, rfl, by decide +kernel, ?_⟩
  have h := (compile_bordered (t := reachedSpan)
    (s := { options := Options.default }) rfl).2 0 _ _ rfl rfl
  exact (h.tiled (by decide +kernel)).mpr (by decide +kernel)

/-- A range over the second column of a cell. -/
def splitSpan : Table Float where
  rows :=
    [{ slots := [.cell { content := [.word "a"], span := 2 }, .covered]
       underlines := [(2, 2)] }]
  attributes := Attributes.default

theorem compile_splitSpan : ∃ layout s' row,
    compile splitSpan { options := Options.default } = (.ok layout, s') ∧
      layout.rows[0]? = some row ∧ row.underlined[1]? = some true ∧
      ¬ Odt.ShowsRule s'.options.noteSymbols layout 0 row 1 := by
  refine ⟨_, _, _, rfl, rfl, by decide +kernel, ?_⟩
  rw [Odt.showsRule_iff _ rfl]
  decide +kernel

end Tabulation
