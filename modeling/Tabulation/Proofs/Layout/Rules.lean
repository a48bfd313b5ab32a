import Tabulation.Proofs.Layout.Extent

/-!
# Rules and underlined columns

What runs below a row is kept twice: as rules over physical columns, which is
what LaTeX draws, and as a flag for each logical column, which is what the
cell styles of OpenDocument read. A rule comes from a cell, from a range of
the row, or from the end of the header, and each time the flags of the same
logical columns are set. The rule of a cell begins behind its indentation, but
still in the column of the cell, so the two never disagree.
-/

namespace Tabulation

open Column

namespace Rule

/-- Whether a rule runs below a physical column of a table with so many. -/
def Covers (total physical : Nat) : Rule → Prop
  | .full => 1 ≤ physical ∧ physical ≤ total
  | .partly first last _ _ => first ≤ physical ∧ physical ≤ last

/-- Whether a rule runs below some physical column of a logical one. -/
def Meets (g : Grid) (column : Nat) (rule : Rule) : Prop :=
  ∃ physical, g.offset column + 1 ≤ physical ∧
    physical ≤ g.offset (column + 1) ∧ rule.Covers g.total physical

/-- What a rule over a part of a table keeps to: it is inside of the table, ends
with a logical column and is trimmed where it does not touch the edge, which is
on one side at least. -/
def Proper (g : Grid) : Rule → Prop
  | .full => True
  | .partly first last left right =>
      1 ≤ first ∧ first ≤ last ∧ last ≤ g.total ∧
        (∃ column < g.depths.length, last = g.offset (column + 1)) ∧
        (left = true ↔ first ≠ 1) ∧ (right = true ↔ last ≠ g.total) ∧
        ¬ (first = 1 ∧ last = g.total) ∧
        (Rule.partly first last left right).trim ≠ ""

theorem covers_spanning (first last total physical : Nat) :
    (spanning first last total).Covers total physical ↔
      first ≤ physical ∧ physical ≤ last := by
  rw [spanning]
  split
  · next h => rw [h.1, h.2]; exact Iff.rfl
  · exact Iff.rfl

theorem trim_partly {left right : Bool} (h : left = true ∨ right = true)
    (first last : Nat) : (Rule.partly first last left right).trim ≠ "" := by
  cases left <;> cases right <;> simp [trim] at h ⊢

variable {g : Grid}

theorem meets_full {column : Nat} (h : column < g.depths.length) :
    Rule.full.Meets g column := by
  have hnext := Grid.offset_lt_offset_succ h
  have hedge := g.offset_mono (show column + 1 ≤ g.depths.length from h)
  rw [g.offset_length] at hedge
  refine ⟨g.offset column + 1, Nat.le_refl _, hnext, ?_⟩
  rw [Covers]
  omega

/-- A rule from a level of one column to the end of another runs below those
columns and the ones between them. -/
theorem meets_spanning {start level : Nat} (hlevel : g.HasLevel start level)
    (stop : Nat) {column : Nat} (hcolumn : column < g.depths.length) :
    (spanning (g.offset start + level + 1) (g.offset stop) g.total).Meets g
        column ↔ start ≤ column ∧ column < stop := by
  have hfirst := hlevel.lt_offset_succ
  simp only [Meets, covers_spanning]
  constructor
  · rintro ⟨physical, hbegin, hend, hfrom, hto⟩
    constructor
    · refine Nat.le_of_not_lt fun hlt => ?_
      have hbefore := g.offset_mono (show column + 1 ≤ start from hlt)
      omega
    · refine Nat.lt_of_not_le fun hle => ?_
      have hbehind := g.offset_mono hle
      omega
  · rintro ⟨hle, hlt⟩
    have hnext := Grid.offset_lt_offset_succ hcolumn
    have hstop := g.offset_mono (show column + 1 ≤ stop from hlt)
    rcases Nat.eq_or_lt_of_le hle with rfl | hlater
    · exact ⟨g.offset start + level + 1, by omega, hfirst, by omega, by omega⟩
    · have hbetween := g.offset_mono (show start + 1 ≤ column from hlater)
      exact ⟨g.offset column + 1, by omega, hnext, by omega, by omega⟩

theorem proper_spanning {start stop level : Nat} (hlevel : g.HasLevel start level)
    (hstart : start < stop) (hstop : stop ≤ g.depths.length) :
    (spanning (g.offset start + level + 1) (g.offset stop) g.total).Proper g := by
  have hfirst := hlevel.lt_offset_succ
  have hlast := g.offset_mono (show start + 1 ≤ stop from hstart)
  have hedge := g.offset_mono hstop
  rw [g.offset_length] at hedge
  rw [spanning]
  split
  · trivial
  · next hpart =>
      refine ⟨by omega, by omega, hedge, ⟨stop - 1, by omega, ?_⟩,
        decide_eq_true_iff, decide_eq_true_iff, hpart, trim_partly ?_ _ _⟩
      · rw [Nat.sub_add_cancel (by omega)]
      · rw [decide_eq_true_iff, decide_eq_true_iff]
        omega

end Rule

/-! ## Placed rows -/

theorem getElem?_markRange (start stop : Nat) (flags : List Bool) (i : Nat) :
    (markRange start stop flags)[i]? =
      flags[i]?.map fun flag => flag || (start ≤ i && i < stop) :=
  List.getElem?_mapIdx

/-- Marking all columns of a row. -/
theorem map_true_eq_markRange (flags : List Bool) :
    (flags.map fun _ => true) = markRange 0 flags.length flags := by
  refine List.ext_getElem? fun i => ?_
  rw [getElem?_markRange, List.getElem?_map]
  cases h : flags[i]? with
  | none => rfl
  | some flag =>
      have hlt := (List.getElem?_eq_some_iff.mp h).1
      simp [hlt]

variable {α : Type}

theorem PlacedRow.withFullRule_placing (row : PlacedRow α) :
    row.withFullRule.placing =
      row.placing.withRule .full 0 row.underlined.length := by
  rw [withFullRule, placing, map_true_eq_markRange]
  rfl

/-- The flags of a row say which columns its rules run below. -/
structure Placing.Agrees (f : Frame α) (p : Placing α) : Prop where
  length : p.underlined.length = f.columnCount
  flags : ∀ column < f.columnCount, p.underlined[column]? = some true ↔
    ∃ rule ∈ p.rules, rule.Meets f.grid column
  proper : ∀ rule ∈ p.rules, rule.Proper f.grid

namespace Placing.Agrees

variable {f : Frame α} {p : Placing α}

theorem start (f : Frame α) :
    Placing.Agrees f ⟨[], [], List.replicate f.columnCount false⟩ where
  length := List.length_replicate
  flags := by
    intro column hcolumn
    rw [List.getElem?_replicate, if_pos hcolumn]
    simp
  proper := fun _ h => nomatch h

/-- A rule keeps the flags right if the columns that it meets are marked. -/
theorem withRule (h : p.Agrees f) {rule : Rule} {start stop : Nat}
    (meets : ∀ column < f.columnCount,
      rule.Meets f.grid column ↔ start ≤ column ∧ column < stop)
    (proper : rule.Proper f.grid) :
    (p.withRule rule start stop).Agrees f where
  length := (markRange_length _ _ _).trans h.length
  flags := by
    intro column hcolumn
    have hlt : column < p.underlined.length := h.length.symm ▸ hcolumn
    have hflag := h.flags column hcolumn
    rw [List.getElem?_eq_getElem hlt, Option.some_inj] at hflag
    show (markRange start stop p.underlined)[column]? = some true ↔
      ∃ r ∈ p.rules ++ [rule], r.Meets f.grid column
    rw [getElem?_markRange, List.getElem?_eq_getElem hlt, Option.map_some,
      Option.some_inj, Bool.or_eq_true, Bool.and_eq_true, decide_eq_true_iff,
      decide_eq_true_iff, hflag, ← meets column hcolumn]
    simp only [List.mem_append, List.mem_singleton, or_and_right, exists_or,
      exists_eq_left]
  proper := by
    intro r hr
    rcases List.mem_append.mp hr with hr | hr
    · exact h.proper r hr
    · rw [List.mem_singleton.mp hr]
      exact proper

theorem withCells (h : p.Agrees f) (cells : List (PlacedCell α)) :
    Placing.Agrees f { p with cells } :=
  ⟨h.length, h.flags, h.proper⟩

theorem withFull (h : p.Agrees f)
    (hgrid : f.grid.depths.length = f.columnCount) :
    (p.withRule .full 0 f.columnCount).Agrees f := by
  refine h.withRule (fun column hcolumn => ?_) trivial
  rw [← hgrid] at hcolumn
  simp only [Rule.meets_full hcolumn, true_iff]
  omega

/-- The rule of a range begins in the first physical column of the range. -/
theorem withRange (h : p.Agrees f)
    (hgrid : f.grid.depths.length = f.columnCount) {start stop level : Nat}
    (hlevel : f.grid.HasLevel start level) (hstart : start < stop)
    (hstop : stop ≤ f.columnCount) :
    (p.withRule (.spanning (f.grid.offset start + level + 1)
      (f.grid.offset stop) f.grid.total) start stop).Agrees f :=
  h.withRule
    (fun _ hcolumn => Rule.meets_spanning hlevel stop (hgrid.symm ▸ hcolumn))
    (Rule.proper_spanning hlevel hstart (hgrid.symm ▸ hstop))

theorem withCell [Scalar α] (h : p.Agrees f)
    (hgrid : f.grid.depths.length = f.columnCount) {m : MeasuredCell α}
    {column : Nat} (hlevel : f.grid.HasLevel column m.directive.indent)
    (hfit : column + m.span ≤ f.columnCount) (group : Option (Specifier α)) :
    (p.withCell f m column group).Agrees f := by
  rw [Placing.withCell]
  refine withCells ?_ _
  cases m.directive.underline with
  | none => exact h
  | some underline =>
      have hrange := f.cellRule_range m.directive.indent m.one_le_span hfit
        underline
      cases underline with
      | midrule => exact h.withFull hgrid
      | columns width => exact h.withRange hgrid hlevel hrange.1 hrange.2

end Placing.Agrees

theorem PlacedRow.Finishes.agrees {f : Frame α} {row placed : PlacedRow α}
    (h : row.Finishes placed) (hgrid : f.grid.depths.length = f.columnCount)
    (hplaced : placed.placing.Agrees f) : row.placing.Agrees f := by
  rcases h with rfl | ⟨_, rfl⟩
  · exact hplaced
  · have hlength : placed.underlined.length = f.columnCount := hplaced.length
    rw [placed.withFullRule_placing, hlength]
    exact hplaced.withFull hgrid

variable [Scalar α]

theorem Compilation.row_agrees {t : Table α} {s : Session α}
    (c : Compilation t s) {row : PlacedRow α} (h : row ∈ c.layout.rows) :
    row.placing.Agrees c.frame := by
  have hgrid : c.frame.grid.depths.length = c.frame.columnCount :=
    c.length_depths.trans c.columnCount_eq.symm
  obtain ⟨i, source, slots, placed, _, hslots, hplace, hfinish⟩ := c.row_source h
  refine hfinish.agrees hgrid (placeRow_preserves hplace (.start c.frame) ?_ ?_)
  · intro p column m group hm hfit hp
    exact hp.withCell hgrid (c.hasLevel hslots hm) hfit group
  · intro p first last _ hfirst hle hlast hp
    have hlt : first - 1 < c.frame.grid.depths.length := by omega
    exact hp.withRange hgrid (Grid.hasLevel_zero hlt) (by omega) hlast

/-- The two records of what runs below a row agree: a logical column is
underlined exactly if some rule runs below one of its physical columns. A rule
that does not run across the whole table is inside of it, ends with a logical
column, and is trimmed exactly where it does not touch the edge of the table,
which is on one side at least. -/
structure PlacedRow.Ruled (layout : Layout α) (row : PlacedRow α) : Prop where
  underlined_iff : ∀ column < layout.columns.length,
    row.underlined[column]? = some true ↔
      ∃ rule ∈ row.rules, ∃ physical,
        layout.grid.offset column + 1 ≤ physical ∧
          physical ≤ layout.grid.offset (column + 1) ∧
          rule.Covers layout.physicalColumns.length physical
  partly : ∀ first last left right,
    Rule.partly first last left right ∈ row.rules →
      1 ≤ first ∧ first ≤ last ∧ last ≤ layout.physicalColumns.length ∧
        (∃ column < layout.columns.length,
          last = layout.grid.offset (column + 1)) ∧
        (left = true ↔ first ≠ 1) ∧
        (right = true ↔ last ≠ layout.physicalColumns.length) ∧
        ¬ (first = 1 ∧ last = layout.physicalColumns.length) ∧
        (Rule.partly first last left right).trim ≠ ""

/-- What compiles has its rules and its underlined columns agree. -/
theorem compile_ruled {t : Table α} {s s' : Session α} {layout : Layout α}
    (h : compile t s = (.ok layout, s')) :
    ∀ row ∈ layout.rows, row.Ruled layout := by
  obtain ⟨c, rfl, _⟩ := compile_eq_ok_iff.mp h
  intro row hrow
  have hagrees := c.row_agrees hrow
  have hphysical : c.layout.physicalColumns.length = c.frame.grid.total :=
    c.length_physicalColumns
  have hcolumns : c.layout.columns.length = c.frame.grid.depths.length :=
    c.columnCount_eq.trans c.length_depths.symm
  refine ⟨?_, ?_⟩
  · rw [hphysical]
    exact hagrees.flags
  · intro first last left right hrule
    have hproper := hagrees.proper _ hrule
    rw [hphysical, hcolumns]
    exact hproper

/-- A header, and a row whose first cell is indented and asks for a rule, which
is followed by a range of its own. -/
def ruledTable : Table Float where
  rows :=
    [{ slots :=
          [.cell { content := [.word "a"] }, .cell { content := [.word "b"] },
            .cell { content := [.word "c"] }]
       header := true },
      { slots :=
          [.cell { content := [.word "~~~", .word "d", .space, .word "_"] },
            .cell { content := [.word "e"] }, .cell { content := [.word "f"] }]
        underlines := [(2, 3)] }]
  attributes := Attributes.default

theorem compile_ruledTable : ∃ layout s',
    compile ruledTable { options := Options.default } = (.ok layout, s') ∧
      layout.rows.map PlacedRow.rules =
        [[.full], [.partly 2 2 true true, .partly 3 4 true false]] ∧
      ∀ row ∈ layout.rows, row.Ruled layout := by
  refine ⟨_, _, rfl, by decide +kernel, ?_⟩
  exact compile_ruled (t := ruledTable) (s := { options := Options.default })
    rfl

end Tabulation
