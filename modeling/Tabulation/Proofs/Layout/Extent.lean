import Mathlib
import Tabulation.Proofs.Layout.Grid
import Tabulation.Table.Latex

/-!
# Where cells stand on the grid

The second pass looks columns, widths and physical columns up by position, and
subtracts the indentation of a cell from the levels of its span. None of this
can fail: a cell that is placed ends inside the table, and its column has the
level that the cell is indented to, because the first pass measured the cell
in that column. So a cell takes exactly the physical columns of its span, its
indentation first, and a row of LaTeX has an entry for each of them.
-/

namespace Tabulation

open Column

variable {α : Type} [Scalar α]

/-- What a placed cell was placed from. -/
theorem Places.mem {f : Frame α} {column skip : Nat}
    {slots : List (Option (MeasuredCell α))} {cells : List (PlacedCell α)}
    (h : Places f column skip slots cells) {cell : PlacedCell α}
    (hc : cell ∈ cells) :
    ∃ m group, cell = f.placedCell m cell.column group ∧
      cell.column + m.span ≤ f.columnCount ∧
      f.group? m.directive cell.column m.span = .ok group ∧
      column ≤ cell.column ∧ slots[cell.column - column]? = some (some m) := by
  induction h with
  | done => cases hc
  | @skipped column skip slot rest cells _ ih | @covered column rest cells _ ih =>
      obtain ⟨m, group, heq, hfit, hgroup, hle, hm⟩ := ih hc
      refine ⟨m, group, heq, hfit, hgroup, by omega, ?_⟩
      rw [show cell.column - column = cell.column - (column + 1) + 1 by omega]
      exact hm
  | @cell column m group rest cells fits found _ ih =>
      rcases List.mem_cons.mp hc with rfl | hc
      · refine ⟨m, group, rfl, fits, found, Nat.le_refl _, ?_⟩
        show (some m :: rest)[column - column]? = _
        rw [Nat.sub_self]
        rfl
      · obtain ⟨m', group', heq, hfit, hgroup, hle, hm⟩ := ih hc
        refine ⟨m', group', heq, hfit, hgroup, by omega, ?_⟩
        rw [show cell.column - column = cell.column - (column + 1) + 1 by omega]
        exact hm

/-- What a cell of a layout comes from: the cell in its column of the source
row in its place, and what was taken out of that. -/
theorem Compilation.cell_at {t : Table α} {s : Session α} (c : Compilation t s)
    {i : Nat} {source : Row} {row : PlacedRow α}
    (hsource : t.rows[i]? = some source)
    (hrow : c.layout.rows[i]? = some row) {cell : PlacedCell α}
    (hcell : cell ∈ row.cells) :
    ∃ m ws, source.slots[cell.column]? = some (.cell m.cell) ∧
      Directive.extract m.cell.content s.options.lenient =
        .ok (m.directive, m.content, ws) ∧
      cell = c.frame.placedCell m cell.column cell.group ∧
      c.frame.group? m.directive cell.column m.span = .ok cell.group := by
  obtain ⟨slots, _, placed, _, hmeasure, hplace, hfinish⟩ :=
    c.row_at hsource hrow
  rw [hfinish.cells] at hcell
  obtain ⟨m, group, heq, _, hgroup, _, hm⟩ := (placeRow_places hplace).mem hcell
  obtain ⟨hslot, ws, hextract⟩ := measureSlots_cell hmeasure hm
  have hown : cell.group = group := by
    rw [heq]
    rfl
  rw [hown]
  exact ⟨m, ws, hslot, hextract, heq, hgroup⟩

theorem Compilation.cell_source {t : Table α} {s : Session α}
    (c : Compilation t s) {row : PlacedRow α} (hrow : row ∈ c.layout.rows)
    {cell : PlacedCell α} (hcell : cell ∈ row.cells) :
    ∃ source ∈ t.rows, ∃ m ws, Slot.cell m.cell ∈ source.slots ∧
      Directive.extract m.cell.content s.options.lenient =
        .ok (m.directive, m.content, ws) ∧
      cell = c.frame.placedCell m cell.column cell.group ∧
      c.frame.group? m.directive cell.column m.span = .ok cell.group := by
  obtain ⟨i, hi⟩ := List.getElem?_of_mem hrow
  have hlt := (List.getElem?_eq_some_iff.mp hi).1
  rw [c.length_rows] at hlt
  have hsource := List.getElem?_eq_getElem hlt
  obtain ⟨m, ws, hslot, hextract, heq, hgroup⟩ := c.cell_at hsource hi hcell
  exact ⟨_, List.mem_of_getElem? hsource, m, ws, List.mem_of_getElem? hslot,
    hextract, heq, hgroup⟩

theorem Frame.physicalSpan_of_group?_none {f : Frame α} {d : Directive α}
    {column span : Nat} (h : f.group? d column span = .ok none) :
    f.grid.physicalSpan column span d.indent ≤ 1 := by
  rw [Frame.group?] at h
  simp only [] at h
  split at h
  · split at h
    · cases h
    · obtain ⟨group, _, h⟩ := Except.bind_eq_ok.mp h
      cases h
  · next hsmall =>
      simp only [Bool.or_eq_true, decide_eq_true_eq, not_or] at hsmall
      omega

/-! ## Cells -/

/-- The grid that the cells of a layout stand on. -/
def Layout.grid (layout : Layout α) : Grid := ⟨layout.depths⟩

/-- What the cells of a layout were placed against. -/
def Layout.frame (layout : Layout α) : Frame α where
  grid := layout.grid
  columns := layout.columns
  physicalColumns := layout.physicalColumns
  widths := layout.widths
  leavePadding := layout.attributes.leaveTablePadding

omit [Scalar α] in
/-- The columns that a cell underlines. -/
theorem Frame.cellRule_range (f : Frame α) {column span : Nat} (indent : Nat)
    (hspan : 1 ≤ span) (hfit : column + span ≤ f.columnCount)
    (underline : Underline) :
    (f.cellRule column span indent underline).2.1 <
        (f.cellRule column span indent underline).2.2 ∧
      (f.cellRule column span indent underline).2.2 ≤ f.columnCount := by
  cases underline with
  | midrule => exact ⟨show 0 < f.columnCount by omega, Nat.le_refl _⟩
  | columns width =>
      show column < min (column + max width span) f.columnCount ∧
        min (column + max width span) f.columnCount ≤ f.columnCount
      omega

/-- A cell stands on the grid of its layout: it is inside of the table, its
column has the level that it is indented to, and it takes the physical columns
of its span. -/
structure PlacedCell.OnGrid (layout : Layout α) (cell : PlacedCell α) :
    Prop where
  one_le_span : 1 ≤ cell.span
  inside : cell.column + cell.span ≤ layout.columns.length
  indent_le : ∃ depth, layout.depths[cell.column]? = some depth ∧
    cell.indent ≤ depth
  first_eq :
    cell.first = layout.grid.offset cell.column + cell.indent + 1
  last_eq : cell.first - 1 + cell.physicalSpan =
    layout.grid.offset (cell.column + cell.span)
  one_le_physicalSpan : 1 ≤ cell.physicalSpan
  alone : cell.group = none → cell.physicalSpan = 1
  /-- The levels of a span are enough to subtract the indentation from. -/
  levels : cell.indent ≤ ((layout.depths.drop cell.column).take cell.span).sum ∧
    cell.physicalSpan =
      ((layout.depths.drop cell.column).take cell.span).sum - cell.indent +
        cell.span
  /-- The physical columns that a cell is looked up by. -/
  anchors : layout.grid.offset cell.column < layout.physicalColumns.length ∧
    cell.first - 1 < layout.physicalColumns.length
  /-- The logical columns that any rule below the cell would underline. -/
  underlines : ∀ underline,
    let rule := layout.frame.cellRule cell.column cell.span cell.indent underline
    rule.2.1 < rule.2.2 ∧ rule.2.2 ≤ layout.columns.length

theorem Compilation.placedCell_onGrid {t : Table α} {s : Session α}
    (c : Compilation t s) {slots : List (Option (MeasuredCell α))}
    {cells : List (PlacedCell α)} (hslots : slots ∈ c.measured)
    (h : Places c.frame 0 0 slots cells) :
    ∀ cell ∈ cells, cell.OnGrid c.layout := by
  intro cell hc
  obtain ⟨m, group, heq, hfit, hgroup, _, hm⟩ := h.mem hc
  generalize cell.column = column at *
  subst heq
  rw [Nat.sub_zero] at hm
  have hspan := m.one_le_span
  have hlevel := c.hasLevel hslots hm
  have hlevels := hlevel.physicalSpan_eq hspan
    (Nat.le_trans hfit
      (Nat.le_of_eq (c.columnCount_eq.trans c.length_depths.symm)))
  obtain ⟨hpos, hlast⟩ := hlevel.physicalSpan hspan
  have hedge : c.frame.grid.offset (column + 1) ≤
      c.frame.physicalColumns.length := by
    rw [c.length_physicalColumns, ← c.offset_columnCount]
    exact c.frame.grid.offset_mono (by omega)
  have hnext := hlevel.lt_offset_succ
  refine ⟨hspan, hfit, hlevel, rfl, hlast, hpos, fun hnone => ?_,
    ⟨hlevel.le_sum hspan, hlevels⟩,
    ⟨?_, ?_⟩, c.frame.cellRule_range _ hspan hfit⟩
  · have hgroup : group = none := hnone
    subst hgroup
    exact Nat.le_antisymm (Frame.physicalSpan_of_group?_none hgroup) hpos
  · show c.frame.grid.offset column < c.frame.physicalColumns.length
    omega
  · show c.frame.grid.offset column + m.directive.indent + 1 - 1 <
      c.frame.physicalColumns.length
    omega

theorem Compilation.cell_onGrid {t : Table α} {s : Session α}
    (c : Compilation t s) {row : PlacedRow α} (hrow : row ∈ c.layout.rows)
    {cell : PlacedCell α} (hcell : cell ∈ row.cells) :
    cell.OnGrid c.layout := by
  obtain ⟨_, _, _, _, _, hslots, hplace, hfinish⟩ := c.row_source hrow
  rw [hfinish.cells] at hcell
  exact c.placedCell_onGrid hslots (placeRow_places hplace) cell hcell

theorem markRange_length (start stop : Nat) (flags : List Bool) :
    (markRange start stop flags).length = flags.length :=
  List.length_mapIdx

theorem Placing.length_withCell (f : Frame α) (p : Placing α)
    (m : MeasuredCell α) (column : Nat) (group : Option (Specifier α)) :
    (p.withCell f m column group).underlined.length = p.underlined.length := by
  rw [withCell]
  cases m.directive.underline with
  | none => rfl
  | some underline => exact markRange_length _ _ _

/-- A row has a flag for each logical column. -/
theorem placeRow_length {f : Frame α} {index : Nat} {row : Row}
    {slots : List (Option (MeasuredCell α))} {placed : PlacedRow α}
    (h : placeRow f index row slots = .ok placed) :
    placed.underlined.length = f.columnCount := by
  refine placeRow_preserves
    (P := fun p => p.underlined.length = f.columnCount) h
    List.length_replicate ?_ ?_
  · intro p column m group _ _ hp
    exact (p.length_withCell f m column group).trans hp
  · intro p first last _ _ _ _ hp
    exact (markRange_length _ _ _).trans hp

/-! ## Rows of LaTeX -/

namespace Latex

/-- An entry of a row: text in one column, or a group of several. -/
inductive Entry where
  | plain (text : String)
  | group (columns : Nat) (types text : String)

/-- The columns of the table that an entry takes. -/
def Entry.columns : Entry → Nat
  | .plain _ => 1
  | .group columns _ _ => columns

def Entry.write : Entry → String
  | .plain text => text
  | .group columns types text =>
      "\\multicolumn" ++ braced (toString columns) ++ braced types ++
        braced text

end Latex

/-- Entries that take the physical columns of a cell, from the first one of its
span to the last: an empty one for each level that it is indented by, and one
for its content. -/
def PlacedCell.FilledBy (layout : Layout α) (cell : PlacedCell α)
    (entries : List Latex.Entry) : Prop :=
  (∃ content : Latex.Entry, content.columns = cell.physicalSpan ∧
    entries = List.replicate cell.indent (.plain "") ++ [content]) ∧
  layout.grid.offset cell.column + (entries.map Latex.Entry.columns).sum =
    layout.grid.offset (cell.column + cell.span)

theorem cellEntries_filled {layout : Layout α} {cell : PlacedCell α}
    (h : cell.OnGrid layout) (target : String → String) (extra : String) :
    ∃ entries, Layout.cellEntries target extra cell =
        entries.map Latex.Entry.write ∧ cell.FilledBy layout entries := by
  obtain ⟨content, hcolumns, hwrite⟩ : ∃ content : Latex.Entry,
      content.columns = cell.physicalSpan ∧
        Layout.cellEntries target extra cell =
          List.replicate cell.indent "" ++ [content.write] := by
    rw [Layout.cellEntries]
    cases hgroup : cell.group with
    | none =>
        exact ⟨.plain (Layout.cellLatex target cell ++ extra),
          (h.alone hgroup).symm, rfl⟩
    | some group =>
        exact ⟨.group cell.physicalSpan group.latex
          (Layout.cellLatex target cell ++ extra), rfl, rfl⟩
  refine ⟨List.replicate cell.indent (.plain "") ++ [content], ?_,
    ⟨content, hcolumns, rfl⟩, ?_⟩
  · rw [hwrite, List.map_append, List.map_replicate]
    rfl
  · have hfirst := h.first_eq
    have hlast := h.last_eq
    have hlevels : (List.replicate cell.indent
        (Latex.Entry.plain "").columns).sum = cell.indent := by
      rw [List.sum_replicate_nat, Latex.Entry.columns, Nat.mul_one]
    rw [List.map_append, List.map_replicate, List.sum_append, hlevels,
      List.map_singleton, List.sum_singleton, hcolumns]
    omega

theorem flatMap_cellEntries_filled {layout : Layout α}
    {cells : List (PlacedCell α)} (h : ∀ cell ∈ cells, cell.OnGrid layout)
    (target : String → String) :
    ∃ pieces : List (List Latex.Entry),
      cells.flatMap (Layout.cellEntries target "") =
          pieces.flatten.map Latex.Entry.write ∧
        List.Forall₂ (PlacedCell.FilledBy layout) cells pieces := by
  induction cells with
  | nil => exact ⟨[], rfl, .nil⟩
  | cons cell cells ih =>
      obtain ⟨entries, hentries, hfilled⟩ :=
        cellEntries_filled (h cell List.mem_cons_self) target ""
      obtain ⟨pieces, hpieces, hall⟩ :=
        ih fun cell hc => h cell (List.mem_cons_of_mem _ hc)
      refine ⟨entries :: pieces, ?_, .cons hfilled hall⟩
      rw [List.flatMap_cons, hentries, hpieces, List.flatten_cons,
        List.map_append]

/-- A row is written as the entries of its cells, one cell after the other;
what keeps the row away from others goes with the content of the first. -/
theorem rowEntries_filled {layout : Layout α} {row : PlacedRow α}
    (h : ∀ cell ∈ row.cells, cell.OnGrid layout) (target : String → String) :
    ∃ pieces : List (List Latex.Entry),
      Layout.rowEntries target row = pieces.flatten.map Latex.Entry.write ∧
        List.Forall₂ (PlacedCell.FilledBy layout) row.cells pieces := by
  rw [Layout.rowEntries]
  split
  · next hcells => rw [hcells]; exact ⟨[], rfl, .nil⟩
  · next cell cells hcells =>
      rw [hcells] at h ⊢
      obtain ⟨entries, hentries, hfilled⟩ := cellEntries_filled
        (h cell List.mem_cons_self) target (Layout.struts row)
      obtain ⟨pieces, hpieces, hall⟩ := flatMap_cellEntries_filled
        (fun cell hc => h cell (List.mem_cons_of_mem _ hc)) target
      refine ⟨entries :: pieces, ?_, .cons hfilled hall⟩
      rw [hentries, hpieces, List.flatten_cons, List.map_append]

/-! ## Layouts -/

/-- A layout has a width and a flag for each logical column, a specifier for
each physical one, and every row stands on the grid with all that is looked up
for it. -/
structure Layout.OnGrid (t : Table α) (layout : Layout α) : Prop where
  offset_eq : ∀ column, layout.grid.offset column =
    ((layout.depths.take column).map (· + 1)).sum
  columns : layout.columns.length = t.columnCount
  depths : layout.depths.length = layout.columns.length
  widths : layout.widths.length = layout.columns.length
  physicalColumns : layout.physicalColumns.length =
    layout.grid.offset layout.columns.length
  rows : layout.rows.length = t.rows.length
  underlined : ∀ row ∈ layout.rows,
    row.underlined.length = layout.columns.length
  cells : ∀ row ∈ layout.rows, ∀ cell ∈ row.cells, cell.OnGrid layout
  ranges : ∀ row ∈ t.rows, ∀ range ∈ row.underlines,
    1 ≤ range.1 ∧ range.1 ≤ range.2 ∧ range.2 ≤ layout.columns.length
  latex : ∀ row ∈ layout.rows, ∀ target,
    ∃ pieces : List (List Latex.Entry),
      Layout.rowEntries target row = pieces.flatten.map Latex.Entry.write ∧
        List.Forall₂ (PlacedCell.FilledBy layout) row.cells pieces

/-- What compiles stands on its grid. -/
theorem compile_onGrid {t : Table α} {s s' : Session α} {layout : Layout α}
    (h : compile t s = (.ok layout, s')) : layout.OnGrid t := by
  obtain ⟨c, rfl, _⟩ := compile_eq_ok_iff.mp h
  have hcells : ∀ row ∈ c.layout.rows, ∀ cell ∈ row.cells,
      cell.OnGrid c.layout := by
    intro row hrow
    obtain ⟨i, source, slots, placed, _, hslots, hplace, hfinish⟩ :=
      c.row_source hrow
    rw [hfinish.cells]
    exact c.placedCell_onGrid hslots (placeRow_places hplace)
  refine
    { offset_eq := fun column => Grid.columnsOf_eq_sum _
      columns := c.columnCount_eq.trans (validate_count c.valid)
      depths := c.length_depths.trans c.columnCount_eq.symm
      widths := (layoutColumns_length c.resolved).2.trans c.columnCount_eq.symm
      physicalColumns := c.length_physicalColumns.trans c.offset_columnCount.symm
      rows := c.length_rows
      underlined := fun row hrow => ?_
      cells := hcells
      ranges := fun row hrow => ?_
      latex := fun row hrow => rowEntries_filled (hcells row hrow) }
  · obtain ⟨i, source, slots, placed, _, _, hplace, hfinish⟩ :=
      c.row_source hrow
    rw [hfinish.length_underlined]
    exact placeRow_length hplace
  · obtain ⟨i, slots, placed, hplace⟩ := c.source_placed hrow
    exact placeRow_ranges hplace

/-- An indented cell above one that covers both columns, with a rule. -/
def indentedTable : Table Float where
  rows :=
    [Row.spanned
      [.cell { content := [.word "~~~", .word "a"] },
        .cell { content := [.word "b"] }],
      Row.spanned
        [.cell { content := [.word "c", .space, .word "_"], span := 2 }]]
  attributes := Attributes.default

theorem compile_indentedTable : ∃ layout s',
    compile indentedTable { options := Options.default } = (.ok layout, s') ∧
      layout.depths = [1, 0] ∧ layout.OnGrid indentedTable := by
  refine ⟨_, _, rfl, by decide +kernel, ?_⟩
  exact compile_onGrid (s := { options := Options.default }) rfl

end Tabulation
