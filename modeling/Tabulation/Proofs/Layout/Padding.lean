import Tabulation.Proofs.Columns.Origin
import Tabulation.Proofs.Layout.Extent

/-!
# Padding of groups at the edges of a table

A cell that is set as a group has no padding where it touches the edge of the
table. What it is set as is a specifier of its own, an override of the column
it begins in, or a copy of a level of that column, and only the last of these
can have lost its padding before, which the copy gets back. So the flags of a
group are those that the edges give it. The edges are looked for among the
physical columns; since each logical column begins in a physical one of its
own, they are the first and the last logical column.
-/

namespace Tabulation

open Column

variable {α : Type} [Scalar α]

/-- A specifier that keeps its padding on both sides. -/
structure Column.Specifier.Padded (c : Specifier α) : Prop where
  left : c.noLeftPadding = false
  right : c.noRightPadding = false

namespace Column.Specifier

theorem Fresh.padded {c : Specifier α} (h : c.Fresh) : c.Padded :=
  ⟨h.left, h.right⟩

theorem AllFresh.override_padded {c : Specifier α} (h : c.AllFresh) :
    ∀ s ∈ c.override.within, s.Padded :=
  fun s hs => (h.override s hs).padded

/-- The levels of a column are replaced by the same as the column. -/
theorem override_of_mem_indent {c d : Specifier α} {levels : Nat}
    (h : d ∈ c.indent levels) : d.override = c.override := by
  rw [indent] at h
  split at h
  · rw [List.mem_singleton.mp h]
  · split at h
    · rcases List.mem_append.mp h with h | h
      · obtain ⟨_, _, rfl⟩ := List.mem_map.mp h
        rfl
      · obtain ⟨_, _, rfl⟩ := List.mem_map.mp h
        rfl
    · rw [List.eq_of_mem_replicate h]

/-- A group has its padding whatever the column of it has lost. -/
theorem group_padded {c d : Specifier α} {level : Nat}
    (h : c.group level = .ok d) (hc : ∀ s ∈ c.override.within, s.Padded) :
    d.Padded := by
  rw [group] at h
  split at h
  · next single hsingle =>
      cases h
      refine hc _ (Override.mem_within.mpr (.inl ⟨_, hsingle, ?_⟩))
      rw [within_eq]
      exact List.mem_cons_self
  · next ds hindexed =>
      split at h
      · next found hfound =>
          cases h
          refine hc _ (Override.mem_within.mpr
            (.inr ⟨ds, hindexed, _, List.mem_of_getElem? hfound, ?_⟩))
          rw [within_eq]
          exact List.mem_cons_self
      · cases h
  · cases h
    exact ⟨rfl, rfl⟩

theorem widened_padded {c : Specifier α} (h : c.Padded) (extra : α) :
    (c.widened extra).Padded := by
  rw [widened]
  split
  · exact ⟨h.left, h.right⟩
  · exact h

end Column.Specifier

/-! ## What a group is made of -/

namespace Frame

/-- The physical column that a cell begins in. -/
def anchor (f : Frame α) (column indent : Nat) : Specifier α :=
  (f.physicalColumns[f.grid.offset column + indent]?).getD .plainLeft

/-- What the columns of a span declare besides the first. -/
def extra (f : Frame α) (column span : Nat) : α :=
  Scalar.sum (((f.columns.drop (column + 1)).take (span - 1)).filterMap
    Specifier.fractionWidth?)

variable {f : Frame α} {column span indent : Nat}

/-- A group is the column from the level on, except that a span's is wider by
what its other columns declare, unless a directive replaces the column. -/
theorem anchorGroup_cases {g : Specifier α}
    (h : f.anchorGroup column span indent = .ok g) :
    ∃ base, (f.anchor column indent).group indent = .ok base ∧
      (((f.anchor column indent).override = .itself ∧
          (1 < span ∧ base.fractionWidth?.isSome ∧ 0.0 < f.extra column span) ∧
          g = base.widened (f.extra column span)) ∨
        (¬((f.anchor column indent).override = .itself ∧
          1 < span ∧ base.fractionWidth?.isSome ∧ 0.0 < f.extra column span) ∧
          g = base)) := by
  rw [anchorGroup] at h
  obtain ⟨base, hbase, h⟩ := Except.bind_eq_ok.mp h
  refine ⟨base, hbase, ?_⟩
  rw [anchor, extra]
  simp only [] at h
  split at h
  · next ho =>
      split at h
      · next hwidens =>
          cases h
          exact .inl ⟨ho, hwidens, rfl⟩
      · next hwidens =>
          cases h
          exact .inr ⟨fun hall => hwidens hall.2, rfl⟩
  · next ho =>
      cases h
      exact .inr ⟨fun hall => ho hall.1, rfl⟩

theorem anchorGroup_padded {g : Specifier α}
    (h : f.anchorGroup column span indent = .ok g)
    (hf : ∀ s ∈ (f.anchor column indent).override.within, s.Padded) :
    g.Padded := by
  obtain ⟨base, hbase, ⟨-, -, rfl⟩ | ⟨-, rfl⟩⟩ := anchorGroup_cases h
  · exact Specifier.widened_padded (Specifier.group_padded hbase hf) _
  · exact Specifier.group_padded hbase hf

/-- A group is a specifier of the cell or of the column it begins in, without
the padding at the edges. -/
theorem group?_eq_some {d : Directive α} {g : Specifier α}
    (h : f.group? d column span = .ok (some g)) :
    ∃ base, (d.specifier = some base ∨
        d.specifier = none ∧ f.anchorGroup column span d.indent = .ok base) ∧
      g = flushEdges f.grid.total (f.grid.offset column + d.indent + 1)
        (f.grid.physicalSpan column span d.indent) f.leavePadding base := by
  rw [group?] at h
  simp only [] at h
  split at h
  · cases hspecifier : d.specifier with
    | some given =>
        rw [hspecifier] at h
        cases h
        exact ⟨given, .inl rfl, rfl⟩
    | none =>
        rw [hspecifier] at h
        obtain ⟨base, hbase, h⟩ := Except.bind_eq_ok.mp h
        cases h
        exact ⟨base, .inr ⟨rfl, hbase⟩, rfl⟩
  · cases h

end Frame

omit [Scalar α] in
theorem flushEdges_left (total first span : Nat) (leave : Bool)
    {g : Specifier α} (hg : g.Padded) :
    (flushEdges total first span leave g).noLeftPadding = true ↔
      leave = false ∧ first = 1 := by
  have hleft := hg.left
  cases leave with
  | true => simp [flushEdges, hleft]
  | false =>
      by_cases hfirst : first = 1 <;> by_cases hlast : first - 1 + span = total
        <;> simp_all [flushEdges, Specifier.withoutLeftPadding,
          Specifier.withoutRightPadding]

omit [Scalar α] in
theorem flushEdges_right (total first span : Nat) (leave : Bool)
    {g : Specifier α} (hg : g.Padded) :
    (flushEdges total first span leave g).noRightPadding = true ↔
      leave = false ∧ first - 1 + span = total := by
  have hright := hg.right
  cases leave with
  | true => simp [flushEdges, hright]
  | false =>
      by_cases hfirst : first = 1 <;> by_cases hlast : first - 1 + span = total
        <;> simp_all [flushEdges, Specifier.withoutLeftPadding,
          Specifier.withoutRightPadding]

/-! ## Tables -/

namespace Compilation

variable {t : Table α} {s : Session α} (c : Compilation t s)

theorem anchor_padded (column indent : Nat) :
    ∀ d ∈ (c.frame.anchor column indent).override.within, d.Padded := by
  rw [Frame.anchor]
  cases hanchor :
      c.frame.physicalColumns[c.frame.grid.offset column + indent]? with
  | none =>
      exact Specifier.plainLeft_allFresh.override_padded
  | some anchor =>
      -- A level is replaced by what its column is, which is still as bound.
      obtain ⟨levels, hlevels, hmem⟩ :=
        List.mem_flatten.mp (List.mem_of_getElem? hanchor)
      obtain ⟨i, hi, rfl⟩ := List.getElem_of_mem hlevels
      rw [List.getElem_zipWith] at hmem
      show ∀ d ∈ anchor.override.within, d.Padded
      rw [Specifier.override_of_mem_indent hmem]
      exact (c.columns_fresh _ (List.getElem_mem _)).override_padded

/-- Up to the edges, a group has its padding wherever it comes from. -/
theorem group_padded {row : PlacedRow α} (hrow : row ∈ c.layout.rows)
    {cell : PlacedCell α} (hcell : cell ∈ row.cells) {g : Specifier α}
    (hg : cell.group = some g) :
    ∃ base : Specifier α, base.Padded ∧
      g = flushEdges c.frame.grid.total cell.first cell.physicalSpan
        t.attributes.leaveTablePadding base := by
  obtain ⟨_, _, m, _, _, hextract, heq, hgroup⟩ := c.cell_source hrow hcell
  rw [hg] at hgroup heq
  obtain ⟨base, hbase, rfl⟩ := Frame.group?_eq_some hgroup
  refine ⟨base, ?_, by rw [heq]; rfl⟩
  rcases hbase with hown | ⟨_, hanchor⟩
  · exact (Directive.extract_fresh hextract base hown).self.padded
  · exact Frame.anchorGroup_padded hanchor (c.anchor_padded _ _)

end Compilation

omit [Scalar α] in
/-- A cell begins in the first physical column exactly if it begins in the
first logical one and is not indented. -/
theorem PlacedCell.OnGrid.first_eq_one_iff {layout : Layout α}
    {cell : PlacedCell α} (h : cell.OnGrid layout)
    (hdepths : layout.depths.length = layout.columns.length) :
    cell.first = 1 ↔ cell.column = 0 ∧ cell.indent = 0 := by
  have hinside := h.inside
  have hzero : layout.grid.offset cell.column = layout.grid.offset 0 ↔
      cell.column = 0 :=
    Grid.offset_inj (show cell.column ≤ layout.depths.length by omega)
      (Nat.zero_le _)
  have hstart : layout.grid.offset 0 = 0 := rfl
  rw [h.first_eq, ← hzero]
  omega

omit [Scalar α] in
/-- A cell ends in the last physical column exactly if it ends in the last
logical one. -/
theorem PlacedCell.OnGrid.last_eq_total_iff {layout : Layout α}
    {cell : PlacedCell α} (h : cell.OnGrid layout)
    (hdepths : layout.depths.length = layout.columns.length) :
    cell.first - 1 + cell.physicalSpan = layout.grid.total ↔
      cell.column + cell.span = layout.columns.length := by
  have hinside := h.inside
  rw [h.last_eq, ← layout.grid.offset_length, ← hdepths]
  exact Grid.offset_inj
    (show cell.column + cell.span ≤ layout.depths.length by omega)
    (Nat.le_refl _)

/-- A group has no padding on the left exactly if the table gives it up, the
cell begins in the first column and it is not indented, and none on the right
exactly if the table gives it up and the cell ends in the last column. -/
theorem compile_padding {t : Table α} {s s' : Session α} {layout : Layout α}
    (h : compile t s = (.ok layout, s')) :
    ∀ row ∈ layout.rows, ∀ cell ∈ row.cells, ∀ g, cell.group = some g →
      (g.noLeftPadding = true ↔ t.attributes.leaveTablePadding = false ∧
        cell.column = 0 ∧ cell.indent = 0) ∧
      (g.noRightPadding = true ↔ t.attributes.leaveTablePadding = false ∧
        cell.column + cell.span = t.columnCount) := by
  obtain ⟨c, rfl, _⟩ := compile_eq_ok_iff.mp h
  intro row hrow cell hcell g hg
  have hdepths : c.layout.depths.length = c.layout.columns.length :=
    c.length_depths.trans c.columnCount_eq.symm
  have hcount : c.layout.columns.length = t.columnCount :=
    c.columnCount_eq.trans (validate_count c.valid)
  have hgrid := c.cell_onGrid hrow hcell
  obtain ⟨base, hbase, rfl⟩ := c.group_padded hrow hcell hg
  rw [flushEdges_left _ _ _ _ hbase, flushEdges_right _ _ _ _ hbase,
    hgrid.first_eq_one_iff hdepths, ← hcount, ← hgrid.last_eq_total_iff hdepths]
  exact ⟨.rfl, .rfl⟩

/-- An indented group in the first column, one that is replaced by what its
column says, and one with a specifier of its own. -/
def paddedTable : Table Float where
  rows :=
    [Row.spanned
      [.cell { content := [.word "~~~", .word "a", .raw "multicolumn" "fm"] },
        .cell { content := [.word "b"], span := 2 }],
      Row.spanned
        [.cell { content := [.raw "multicolumn" "3,r", .word "c"], span := 3 }]]
  attributes :=
    { Attributes.default with
      alignment := "p[0.3],c[multicolumn_definitions=l],l" }

theorem compile_paddedTable : ∃ layout s',
    compile paddedTable { options := Options.default } = (.ok layout, s') ∧
      (layout.rows.flatMap PlacedRow.cells).map (fun cell => cell.group.map
        fun g => (g.identifier, g.noLeftPadding, g.noRightPadding)) =
          [some ('p', false, false), some ('l', false, true),
            some ('r', true, true)] ∧
      ∀ row ∈ layout.rows, ∀ cell ∈ row.cells, ∀ g, cell.group = some g →
        (g.noLeftPadding = true ↔ cell.column = 0 ∧ cell.indent = 0) := by
  have hcheck : ((compile paddedTable
      { options := Options.default }).1.toOption.any fun layout =>
        (layout.rows.flatMap PlacedRow.cells).map (fun cell => cell.group.map
          fun g => (g.identifier, g.noLeftPadding, g.noRightPadding)) =
            [some ('p', false, false), some ('l', false, true),
              some ('r', true, true)]) = true := by
    decide +kernel
  cases hcompile : compile paddedTable { options := Options.default } with
  | mk answer s' =>
      rw [hcompile] at hcheck
      cases answer with
      | error e => cases hcheck
      | ok layout =>
          refine ⟨layout, s', rfl, of_decide_eq_true hcheck, ?_⟩
          intro row hrow cell hcell g hg
          rw [(compile_padding hcompile row hrow cell hcell g hg).1]
          exact and_iff_right rfl

end Tabulation
