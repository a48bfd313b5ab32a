import Tabulation.Proofs.Layout.Rules
import Tabulation.Proofs.Layout.Tiling

/-!
# Where runs of underlined columns begin

The columns that are underlined in a row come in runs, and every run begins at
the edge of the table, in the first column of a cell, or in the first column of
a range that the row asks for. Cells stand apart, so of these only a range can
begin in the middle of a cell. If none does, a cell with any of its columns
underlined has its first column underlined.
-/

namespace Tabulation

open Column

theorem markRange_eq_true {start stop k : Nat} {flags : List Bool} :
    (markRange start stop flags)[k]? = some true ↔
      flags[k]? = some true ∨ k < flags.length ∧ start ≤ k ∧ k < stop := by
  rw [getElem?_markRange]
  cases h : flags[k]? with
  | none =>
      have hle := List.getElem?_eq_none_iff.mp h
      simp
      omega
  | some flag =>
      have hlt := (List.getElem?_eq_some_iff.mp h).1
      simp [hlt]

variable {α : Type}

/-- Whether a cell stands over a logical column. -/
def PlacedCell.Over (cell : PlacedCell α) (column : Nat) : Prop :=
  cell.column ≤ column ∧ column < cell.column + cell.span

instance (cell : PlacedCell α) (column : Nat) : Decidable (cell.Over column) :=
  inferInstanceAs (Decidable (_ ∧ _))

theorem Apart.le_column {stop start : Nat} {cells : List (PlacedCell α)}
    (h : Apart stop start cells) {c : PlacedCell α} (hc : c ∈ cells) :
    start ≤ c.column := by
  induction cells generalizing start with
  | nil => cases hc
  | cons d ds ih =>
      obtain ⟨hle, _, hrest⟩ := h
      rcases List.mem_cons.mp hc with rfl | hc
      · exact hle
      · have hlater := ih hrest hc
        omega

/-- A cell does not begin over another one. -/
theorem Apart.over_column {stop start : Nat} {cells : List (PlacedCell α)}
    (h : Apart stop start cells) {c d : PlacedCell α} (hc : c ∈ cells)
    (hd : d ∈ cells) (hover : c.Over d.column) : c = d := by
  induction cells generalizing start with
  | nil => cases hc
  | cons e es ih =>
      obtain ⟨_, hspan, hrest⟩ := h
      obtain ⟨hle, hlt⟩ := hover
      rcases List.mem_cons.mp hc with rfl | hlater
      · rcases List.mem_cons.mp hd with rfl | hbehind
        · rfl
        · have hstart := hrest.le_column hbehind
          omega
      · rcases List.mem_cons.mp hd with rfl | hbehind
        · have hstart := hrest.le_column hlater
          omega
        · exact ih hrest hlater hbehind

/-- No two cells stand over one column. -/
theorem Apart.over_eq {stop start : Nat} {cells : List (PlacedCell α)}
    (h : Apart stop start cells) {c d : PlacedCell α} (hc : c ∈ cells)
    (hd : d ∈ cells) {column : Nat} (hover : c.Over column)
    (hover' : d.Over column) : c = d := by
  obtain ⟨hle, hlt⟩ := hover
  obtain ⟨hle', hlt'⟩ := hover'
  rcases Nat.le_total c.column d.column with hfirst | hfirst
  · exact h.over_column hc hd ⟨hfirst, by omega⟩
  · exact (h.over_column hd hc ⟨hfirst, by omega⟩).symm

/-- A column in which a run may begin. -/
def Placing.Begins (ranges : List (Nat × Nat)) (p : Placing α) (start : Nat) :
    Prop :=
  start = 0 ∨ (∃ cell ∈ p.cells, cell.column = start) ∨
    ∃ range ∈ ranges, range.1 - 1 = start

/-- Every underlined column is in a run that begins where one may begin. -/
def Placing.Runs (ranges : List (Nat × Nat)) (p : Placing α) : Prop :=
  ∀ column, p.underlined[column]? = some true →
    ∃ start ≤ column, p.Begins ranges start ∧
      ∀ k, start ≤ k → k ≤ column → p.underlined[k]? = some true

namespace Placing.Runs

variable {ranges : List (Nat × Nat)} {p : Placing α}

theorem start (ranges : List (Nat × Nat)) (count : Nat) :
    Placing.Runs (α := α) ranges ⟨[], [], List.replicate count false⟩ := by
  intro column hcolumn
  have hflag := List.mem_of_getElem? hcolumn
  cases List.eq_of_mem_replicate hflag

theorem withRule (h : p.Runs ranges) {start : Nat}
    (hstart : p.Begins ranges start) (rule : Rule) (stop : Nat) :
    (p.withRule rule start stop).Runs ranges := by
  intro column hcolumn
  rcases markRange_eq_true.mp hcolumn with hold | ⟨hlt, hle, hstop⟩
  · obtain ⟨first, hfirst, hbegins, hrun⟩ := h column hold
    exact ⟨first, hfirst, hbegins, fun k hk hk' =>
      markRange_eq_true.mpr (.inl (hrun k hk hk'))⟩
  · exact ⟨start, hle, hstart, fun k hk hk' =>
      markRange_eq_true.mpr (.inr ⟨by omega, hk, by omega⟩)⟩

theorem withCells (h : p.Runs ranges) (more : List (PlacedCell α)) :
    Placing.Runs ranges { p with cells := p.cells ++ more } := by
  intro column hcolumn
  obtain ⟨start, hle, hbegins, hrun⟩ := h column hcolumn
  refine ⟨start, hle, ?_, hrun⟩
  rcases hbegins with hzero | ⟨cell, hcell, heq⟩ | hrange
  · exact .inl hzero
  · exact .inr (.inl ⟨cell, List.mem_append_left _ hcell, heq⟩)
  · exact .inr (.inr hrange)

theorem withCell [Scalar α] (h : p.Runs ranges) (f : Frame α)
    (m : MeasuredCell α) (column : Nat) (group : Option (Specifier α)) :
    (p.withCell f m column group).Runs ranges := by
  have hcells := h.withCells [f.placedCell m column group]
  rw [Placing.withCell]
  cases m.directive.underline with
  | none => exact hcells
  | some underline =>
      cases underline with
      | midrule => exact hcells.withRule (.inl rfl) _ _
      | columns width =>
          have hlast : ∃ cell ∈ p.cells ++ [f.placedCell m column group],
              cell.column = column :=
            ⟨_, List.mem_append_right _ List.mem_cons_self, rfl⟩
          exact hcells.withRule (.inr (.inl hlast)) _ _

end Placing.Runs

theorem placeRow_runs [Scalar α] {f : Frame α} {index : Nat} {row : Row}
    {slots : List (Option (MeasuredCell α))} {placed : PlacedRow α}
    (h : placeRow f index row slots = .ok placed) :
    placed.placing.Runs row.underlines := by
  refine placeRow_preserves h (.start _ _) ?_ ?_
  · intro p column m group _ _ hp
    exact hp.withCell f m column group
  · intro p first last hmem _ _ _ hp
    exact hp.withRule (.inr (.inr ⟨_, hmem, rfl⟩)) _ _

theorem PlacedRow.Finishes.runs {row placed : PlacedRow α}
    (h : row.Finishes placed) {ranges : List (Nat × Nat)}
    (hplaced : placed.placing.Runs ranges) : row.placing.Runs ranges := by
  rcases h with rfl | ⟨_, rfl⟩
  · exact hplaced
  · rw [placed.withFullRule_placing]
    exact hplaced.withRule (.inl rfl) _ _

/-! ## The columns of a range -/

/-- What is underlined stays so while the ranges of a row are placed. -/
theorem placeUnderlines_keeps {f : Frame α} {row : Nat}
    {placed placed' : Placing α} {ranges : List (Nat × Nat)}
    (h : placeUnderlines f row placed ranges = .ok placed') {column : Nat}
    (hcolumn : placed.underlined[column]? = some true) :
    placed'.underlined[column]? = some true :=
  placeUnderlines_preserves (P := fun p => p.underlined[column]? = some true)
    h hcolumn fun _ _ _ _ _ _ _ hp => markRange_eq_true.mpr (.inl hp)

theorem placeUnderlines_marks {f : Frame α} {row : Nat}
    {placed placed' : Placing α} {ranges : List (Nat × Nat)}
    (h : placeUnderlines f row placed ranges = .ok placed')
    (hlength : placed.underlined.length = f.columnCount) :
    ∀ range ∈ ranges, placed'.underlined[range.1 - 1]? = some true := by
  induction ranges generalizing placed with
  | nil => exact fun _ hrange => nomatch hrange
  | cons bounds rest ih =>
      obtain ⟨⟨hfirst, hle, hlast⟩, h⟩ := placeUnderlines_cons.mp h
      intro range hrange
      rcases List.mem_cons.mp hrange with rfl | hrange
      · refine placeUnderlines_keeps h (markRange_eq_true.mpr (.inr ?_))
        omega
      · exact ih h ((markRange_length _ _ _).trans hlength) range hrange

/-- The first column of a range is underlined. -/
theorem placeRow_marks [Scalar α] {f : Frame α} {index : Nat} {row : Row}
    {slots : List (Option (MeasuredCell α))} {placed : PlacedRow α}
    (h : placeRow f index row slots = .ok placed) :
    ∀ range ∈ row.underlines, placed.underlined[range.1 - 1]? = some true := by
  obtain ⟨p, q, hp, hq, rfl⟩ := placeRow_eq_ok.mp h
  refine placeUnderlines_marks hq ?_
  exact placeSlots_preserves
    (P := fun p => p.underlined.length = f.columnCount) hp
    List.length_replicate fun p i m group _ _ hlength =>
      (p.length_withCell f m _ group).trans hlength

theorem PlacedRow.Finishes.marked {row placed : PlacedRow α}
    (h : row.Finishes placed) {column : Nat}
    (hcolumn : placed.underlined[column]? = some true) :
    row.underlined[column]? = some true := by
  rcases h with rfl | ⟨_, rfl⟩
  · exact hcolumn
  · rw [PlacedRow.withFullRule, List.getElem?_map, hcolumn]
    rfl

/-! ## First columns -/

/-- The underlined columns of a row are all under cells whose first columns are
underlined exactly if they are under cells, and no range begins over a cell
without its first column being underlined. -/
theorem Placing.Runs.first_underlined_iff {ranges : List (Nat × Nat)}
    {p : Placing α} (h : p.Runs ranges) {stop : Nat}
    (hcells : Apart stop 0 p.cells)
    (hmarks : ∀ range ∈ ranges, p.underlined[range.1 - 1]? = some true) :
    (∀ column, p.underlined[column]? = some true →
      ∃ cell ∈ p.cells, cell.Over column ∧
        p.underlined[cell.column]? = some true) ↔
    (∀ column, p.underlined[column]? = some true →
      ∃ cell ∈ p.cells, cell.Over column) ∧
    ∀ range ∈ ranges, ∀ cell ∈ p.cells, cell.Over (range.1 - 1) →
      p.underlined[cell.column]? = some true := by
  constructor
  · intro hfirst
    refine ⟨fun column hcolumn => ?_, fun range hrange cell hcell hover => ?_⟩
    · obtain ⟨cell, hcell, hover, _⟩ := hfirst column hcolumn
      exact ⟨cell, hcell, hover⟩
    · obtain ⟨found, hfound, hover', hmarked⟩ :=
        hfirst _ (hmarks range hrange)
      rw [hcells.over_eq hcell hfound hover hover']
      exact hmarked
  · rintro ⟨hunder, hranges⟩ column hcolumn
    obtain ⟨cell, hcell, hover⟩ := hunder column hcolumn
    refine ⟨cell, hcell, hover, ?_⟩
    obtain ⟨hle, hlt⟩ := hover
    obtain ⟨start, hstart, hbegins, hrun⟩ := h column hcolumn
    rcases Nat.lt_or_ge cell.column start with hinside | hbehind
    · -- Behind the first column of the cell, only a range can begin.
      rcases hbegins with rfl | ⟨other, hother, rfl⟩ | ⟨range, hrange, rfl⟩
      · exact absurd hinside (Nat.not_lt_zero _)
      · have hsame := hcells.over_column hcell hother
          ⟨Nat.le_of_lt hinside, by omega⟩
        rw [hsame] at hinside
        exact absurd hinside (Nat.lt_irrefl _)
      · exact hranges range hrange cell hcell
          ⟨Nat.le_of_lt hinside, by omega⟩
    · exact hrun cell.column hbehind hle

theorem Tiles.over {stop start : Nat} {cells : List (PlacedCell α)}
    (h : Tiles stop start cells) {column : Nat} (hstart : start ≤ column)
    (hstop : column < stop) : ∃ cell ∈ cells, cell.Over column := by
  induction cells generalizing start with
  | nil =>
      rw [Tiles] at h
      omega
  | cons c cs ih =>
      obtain ⟨rfl, hrest⟩ := h
      rcases Nat.lt_or_ge column (c.column + c.span) with hlt | hge
      · exact ⟨c, List.mem_cons_self, hstart, hlt⟩
      · obtain ⟨cell, hcell, hover⟩ := ih hrest hge
        exact ⟨cell, List.mem_cons_of_mem _ hcell, hover⟩

end Tabulation
