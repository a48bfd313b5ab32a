import Mathlib
import Tabulation.Proofs.Layout.Grid
import Tabulation.Proofs.Layout.Tiling
import Tabulation.Proofs.Odt.Body
import Tabulation.Proofs.Styles.Names

/-!
# The styles of a table

A table is written as a body and as styles, and the two are written apart. The
columns and the cells of the body refer to styles by name, in the order in
which these are written, so each refers to the style that is there for it. The
styles of one table all have names of their own because the cells of a row
stand in columns that grow, and no other table has a name that is taken.
-/

namespace Tabulation

open Xml

namespace Odt

/-- The names of the styles of columns. -/
def columnNames (layout : Layout Float) : List String :=
  (List.range layout.columns.length).map fun column =>
    styleName layout.number column none

/-- The names of the styles of the cells in a row. -/
def rowNames (number : String) (row : PlacedRow Float) (index : Nat) :
    List String :=
  row.cells.map fun cell => styleName number cell.column (some index)

def cellNames (layout : Layout Float) : List String :=
  layout.rows.zipIdx.flatMap fun row => rowNames layout.number row.1 row.2

/-- The names of the styles of a table, those of its columns first. -/
def styleNames (layout : Layout Float) : List String :=
  columnNames layout ++ cellNames layout

/-- The name of the style that an element refers to. -/
def styleRef (e : Element) : Option String :=
  e.attributes.lookup "table:style-name"

/-- The family and the name that the tag of a style gives. -/
def familyAndName (e : Element) : Option String × Option String :=
  (e.attributes.lookup "style:family", e.attributes.lookup "style:name")

/-- The columns and the cells in the body of a table refer to the styles that
are written for it, one by one. -/
structure Refers (symbols : NoteSymbols) (layout : Layout Float) : Prop where
  columns : (elementsOf "table:table-column" (body symbols layout)).map
    styleRef = (columnNames layout).map some
  cells : (elementsOf "table:table-cell" (body symbols layout)).map
    styleRef = (cellNames layout).map some
  styles : (elementsOf "style:style" (styles layout)).map familyAndName =
      (columnNames layout).map (fun name => (some "table-column", some name)) ++
        (cellNames layout).map fun name => (some "table-cell", some name)

/-! ## The body -/

theorem styleRef_cellNodes (symbols : NoteSymbols) (style : String)
    (cell : PlacedCell Float) :
    (elementsOf "table:table-cell" (cellNodes symbols style cell)).map
      styleRef = [some style] := by
  have hparagraph := @elementsOf_cellParagraph "table:table-cell"
    ⟨by decide, by decide, by decide⟩ symbols cell
  simp [cellNodes, elementsOf_replicate, hparagraph, styleRef]

theorem styleRef_cells (symbols : NoteSymbols) (number : String)
    (row : PlacedRow Float) (index : Nat) :
    (elementsOf "table:table-cell" (row.cells.flatMap fun cell =>
      cellNodes symbols (cellStyleName (tableName number) cell.column index)
        cell)).map styleRef = (rowNames number row index).map some := by
  rw [elementsOf_flatMap, List.map_flatMap, rowNames, List.map_map,
    List.map_eq_flatMap]
  exact congrArg (List.flatMap · row.cells)
    (funext fun cell => styleRef_cellNodes symbols _ cell)

theorem styleRef_rowNode (symbols : NoteSymbols) (number : String)
    (row : PlacedRow Float) (index : Nat) :
    (elementsOf "table:table-cell"
      [rowNode symbols (tableName number) index row]).map styleRef =
      (rowNames number row index).map some := by
  rw [← styleRef_cells symbols number row index]
  simp [rowNode]

theorem styleRef_rows (symbols : NoteSymbols) (layout : Layout Float) :
    (elementsOf "table:table-cell" (layout.rows.mapIdx
      (rowNode symbols (tableName layout.number)))).map
        styleRef = (cellNames layout).map some := by
  rw [List.mapIdx_eq_zipIdx_map, elementsOf_map, List.map_flatMap, cellNames,
    List.map_flatMap]
  exact congrArg (List.flatMap · layout.rows.zipIdx)
    (funext fun row => styleRef_rowNode symbols layout.number row.1 row.2)

theorem styleRef_columns (layout : Layout Float) :
    (elementsOf "table:table-column"
      ((List.range layout.columns.length).map fun column =>
        .empty "table:table-column" [("table:style-name",
          columnStyleName (tableName layout.number) column)])).map styleRef =
      (columnNames layout).map some := by
  rw [elementsOf_map, columnNames, List.map_map, List.map_flatMap,
    List.map_eq_flatMap]
  rfl

theorem body_refers (symbols : NoteSymbols) (layout : Layout Float) :
    (elementsOf "table:table-column" (body symbols layout)).map
        styleRef = (columnNames layout).map some ∧
      (elementsOf "table:table-cell" (body symbols layout)).map
        styleRef = (cellNames layout).map some := by
  constructor
  · have hrows : elementsOf "table:table-column" (layout.rows.mapIdx
        (rowNode symbols (tableName layout.number))) = [] := by
      have hparagraph := @elementsOf_cellParagraph "table:table-column"
        ⟨by decide, by decide, by decide⟩ symbols
      rw [List.mapIdx_eq_zipIdx_map, elementsOf_map, List.flatMap_eq_nil_iff]
      intro row _
      simp [rowNode, elementsOf_flatMap, cellNodes, elementsOf_replicate,
        hparagraph]
    rw [elementsOf_body ⟨by decide, by decide, by decide⟩, tableNode]
    simp [hrows, styleRef_columns]
  · have hcolumns := @elementsOf_columns "table:table-cell" (by decide)
      (tableName layout.number) layout.columns.length
    rw [elementsOf_body ⟨by decide, by decide, by decide⟩, tableNode]
    simp [hcolumns, styleRef_rows]

/-! ## The styles -/

theorem named_columnStyle (name : String) (width : Float) :
    (elementsOf "style:style" [columnStyle name width]).map familyAndName =
      [(some "table-column", some name)] := by
  simp [columnStyle, familyAndName, List.lookup]

theorem named_cellStyle (name : String) (paddingTop : Float)
    (indent : Nat) (underlined : Bool) :
    (elementsOf "style:style"
      [cellStyle name paddingTop indent underlined]).map familyAndName =
      [(some "table-cell", some name)] := by
  simp [cellStyle, familyAndName, List.lookup]

/-- What the styles of cells say, if each says it by its name and by whether a
rule runs below the first column of its cell. -/
theorem map_rowsStyles {β : Type} {f : Element → β} {g : String → Bool → β}
    (h : ∀ name paddingTop indent underlined,
      (elementsOf "style:style"
        [cellStyle name paddingTop indent underlined]).map f =
          [g name underlined])
    (number : String) (index : Nat) (above : Option (PlacedRow Float))
    (rows : List (PlacedRow Float)) :
    (elementsOf "style:style"
      (rowsStyles (tableName number) index above rows)).map f =
      (rows.zipIdx index).flatMap fun row => row.1.cells.map fun cell =>
        g (styleName number cell.column (some row.2))
          (row.1.underlined[cell.column]?.getD false) := by
  induction rows generalizing index above with
  | nil => rfl
  | cons row rest ih =>
      rw [rowsStyles, elementsOf_append, List.map_append, ih,
        List.zipIdx_cons, List.flatMap_cons, rowStyles, elementsOf_map,
        List.map_flatMap, List.map_eq_flatMap]
      simp only [h]
      rfl

theorem named_rowsStyles (number : String) (index : Nat)
    (above : Option (PlacedRow Float)) (rows : List (PlacedRow Float)) :
    (elementsOf "style:style"
      (rowsStyles (tableName number) index above rows)).map familyAndName =
      ((rows.zipIdx index).flatMap fun row => rowNames number row.1 row.2).map
        fun name => (some "table-cell", some name) := by
  rw [map_rowsStyles (g := fun name _ => (some "table-cell", some name))
    named_cellStyle, List.map_flatMap]
  simp only [rowNames, List.map_map]
  rfl

theorem named_columnStyles (number : String) (widths : List Float) :
    (elementsOf "style:style" (widths.mapIdx fun column width =>
      columnStyle (columnStyleName (tableName number) column) width)).map
        familyAndName =
      (List.range widths.length).map fun column =>
        (some "table-column", some (styleName number column none)) := by
  rw [List.mapIdx_eq_zipIdx_map, elementsOf_map, List.map_flatMap]
  simp only [named_columnStyle]
  rw [List.range_eq_range', ← List.zipIdx_map_snd, List.map_map,
    List.map_eq_flatMap]
  rfl

/-- There is a width for each column, so there is a style for each. -/
theorem styles_named {layout : Layout Float}
    (h : layout.widths.length = layout.columns.length) :
    (elementsOf "style:style" (styles layout)).map familyAndName =
      (columnNames layout).map (fun name => (some "table-column", some name)) ++
        (cellNames layout).map fun name => (some "table-cell", some name) := by
  rw [styles, elementsOf_append, List.map_append, named_columnStyles,
    named_rowsStyles, columnNames, List.map_map, h]
  rfl

/-! ## Distinct names -/

theorem rowNames_nodup {row : PlacedRow Float}
    (h : row.cells.Pairwise (·.column < ·.column)) (number : String)
    (index : Nat) : (rowNames number row index).Nodup := by
  rw [rowNames, List.Nodup, List.pairwise_map]
  refine h.imp fun {c d} hlt heq => ?_
  have hcolumn := (styleName_inj heq).2.1
  omega

theorem cellNames_nodup {layout : Layout Float}
    (h : ∀ row ∈ layout.rows, row.cells.Pairwise (·.column < ·.column)) :
    (cellNames layout).Nodup := by
  rw [cellNames, List.nodup_flatMap]
  constructor
  · intro row hrow
    exact rowNames_nodup (h _ (List.fst_mem_of_mem_zipIdx hrow)) _ _
  · have hindex : (layout.rows.zipIdx.map Prod.snd).Nodup := by
      rw [List.zipIdx_map_snd]
      exact List.nodup_range'
    rw [List.Nodup, List.pairwise_map] at hindex
    refine hindex.imp fun {row row'} hne name hname hname' => ?_
    obtain ⟨cell, _, rfl⟩ := List.mem_map.mp hname
    obtain ⟨cell', _, heq⟩ := List.mem_map.mp hname'
    exact hne (Option.some.inj (styleName_inj heq.symm).2.2)

theorem styleNames_nodup {layout : Layout Float}
    (h : ∀ row ∈ layout.rows, row.cells.Pairwise (·.column < ·.column)) :
    (styleNames layout).Nodup := by
  rw [styleNames, List.nodup_append]
  refine ⟨?_, cellNames_nodup h, ?_⟩
  · refine List.nodup_range.map_on ?_
    intro column _ column' _ heq
    exact (styleName_inj heq).2.1
  · rintro name hname _ hname' rfl
    obtain ⟨column, _, rfl⟩ := List.mem_map.mp hname
    obtain ⟨row, _, hrow⟩ := List.mem_flatMap.mp hname'
    obtain ⟨cell, _, heq⟩ := List.mem_map.mp hrow
    cases (styleName_inj heq).2.2

theorem mem_styleNames {layout : Layout Float} {name : String}
    (h : name ∈ styleNames layout) :
    ∃ column row, name = styleName layout.number column row := by
  rcases List.mem_append.mp h with h | h
  · obtain ⟨column, _, rfl⟩ := List.mem_map.mp h
    exact ⟨column, none, rfl⟩
  · obtain ⟨row, _, hrow⟩ := List.mem_flatMap.mp h
    obtain ⟨cell, _, rfl⟩ := List.mem_map.mp hrow
    exact ⟨cell.column, some row.2, rfl⟩

/-- Tables with different names share no style. -/
theorem styleNames_disjoint {layout layout' : Layout Float}
    (h : tableName layout.number ≠ tableName layout'.number) :
    (styleNames layout).Disjoint (styleNames layout') := by
  intro name hname hname'
  obtain ⟨column, row, rfl⟩ := mem_styleNames hname
  obtain ⟨column', row', heq⟩ := mem_styleNames hname'
  exact h (styleName_inj heq).1

end Odt

/-! ## Layouts -/

theorem Places.pairwise_column {α : Type} [Scalar α] {f : Frame α}
    {column skip : Nat} {slots : List (Option (MeasuredCell α))}
    {cells : List (PlacedCell α)} (h : Places f column skip slots cells) :
    cells.Pairwise (·.column < ·.column) := by
  induction h with
  | done => exact .nil
  | skipped _ ih | covered _ ih => exact ih
  | cell _ _ hrest ih =>
      exact .cons (fun c hc => Nat.lt_of_succ_le (hrest.le_column hc)) ih

namespace Compilation

variable {t : Table Float} {s : Session Float}

theorem pairwise_column (c : Compilation t s) :
    ∀ row ∈ c.layout.rows, row.cells.Pairwise (·.column < ·.column) := by
  intro row hrow
  obtain ⟨i, source, slots, placed, _, _, hplace, hfinish⟩ := c.row_source hrow
  rw [hfinish.cells]
  exact (placeRow_places hplace).pairwise_column

theorem refers (c : Compilation t s) (symbols : NoteSymbols) :
    Odt.Refers symbols c.layout where
  columns := (Odt.body_refers symbols c.layout).1
  cells := (Odt.body_refers symbols c.layout).2
  styles := by
    obtain ⟨hcolumns, hwidths⟩ := layoutColumns_length c.resolved
    exact Odt.styles_named (hwidths.trans hcolumns.symm)

end Compilation

end Tabulation
