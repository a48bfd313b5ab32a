import Mathlib
import Tabulation.Proofs.Layout.Columns
import Tabulation.Proofs.Layout.Placement

/-!
# The grid of physical columns

A logical column has one physical column for each level of indentation that
some cell of it uses, and one more. So the physical columns of a table follow
each other logical column by logical column, a span of logical columns is a
span of physical ones, and where the first pass has measured the indentation
of a cell, the column of the cell has that level.
-/

namespace Tabulation

open Column

namespace Grid

theorem columnsOf_cons (depth : Nat) (depths : List Nat) :
    columnsOf (depth :: depths) = depth + 1 + columnsOf depths := rfl

theorem columnsOf_append (depths more : List Nat) :
    columnsOf (depths ++ more) = columnsOf depths + columnsOf more := by
  induction depths with
  | nil => exact (Nat.zero_add _).symm
  | cons depth depths ih =>
      rw [List.cons_append, columnsOf_cons, columnsOf_cons, ih]
      omega

theorem columnsOf_eq_sum (depths : List Nat) :
    columnsOf depths = (depths.map (· + 1)).sum := by
  induction depths with
  | nil => rfl
  | cons depth depths ih =>
      rw [columnsOf_cons, List.map_cons, List.sum_cons, ih]

/-- A span has a column for each of its levels, and one for each of its
logical columns. -/
theorem columnsOf_eq_levels (depths : List Nat) :
    columnsOf depths = depths.sum + depths.length := by
  induction depths with
  | nil => rfl
  | cons depth depths ih =>
      rw [columnsOf_cons, List.sum_cons, List.length_cons, ih]
      omega

/-- Whether a logical column has a level of indentation. -/
def HasLevel (g : Grid) (column level : Nat) : Prop :=
  ∃ depth, g.depths[column]? = some depth ∧ level ≤ depth

variable (g : Grid)

theorem offset_add (column span : Nat) :
    g.offset (column + span) =
      g.offset column + columnsOf ((g.depths.drop column).take span) := by
  rw [offset, offset, List.take_add, columnsOf_append]

theorem offset_mono {column column' : Nat} (h : column ≤ column') :
    g.offset column ≤ g.offset column' := by
  obtain ⟨span, rfl⟩ := Nat.exists_eq_add_of_le h
  rw [offset_add]
  exact Nat.le_add_right _ _

theorem offset_length : g.offset g.depths.length = g.total := by
  rw [offset, total, List.take_length]

variable {g}

namespace HasLevel

variable {column level : Nat}

/-- The levels of a span are those of its first column and others. -/
theorem le_sum (h : g.HasLevel column level) {span : Nat} (hspan : 1 ≤ span) :
    level ≤ ((g.depths.drop column).take span).sum := by
  obtain ⟨depth, hdepth, hle⟩ := h
  obtain ⟨hlt, rfl⟩ := List.getElem?_eq_some_iff.mp hdepth
  obtain ⟨n, rfl⟩ := Nat.exists_eq_add_of_le' hspan
  rw [List.drop_eq_getElem_cons hlt, List.take_succ_cons, List.sum_cons]
  omega

theorem lt_columnsOf (h : g.HasLevel column level) {span : Nat}
    (hspan : 1 ≤ span) :
    level + 1 ≤ columnsOf ((g.depths.drop column).take span) := by
  have hsum := h.le_sum hspan
  obtain ⟨depth, hdepth, hle⟩ := h
  have hlt := (List.getElem?_eq_some_iff.mp hdepth).1
  rw [columnsOf_eq_levels, List.length_take, List.length_drop]
  omega

/-- The physical column of a level is one of its logical column. -/
theorem lt_offset_succ (h : g.HasLevel column level) :
    g.offset column + level + 1 ≤ g.offset (column + 1) := by
  have hlt := h.lt_columnsOf (Nat.le_refl 1)
  rw [offset_add]
  omega

/-- From a level on, a span takes what is left of its columns. -/
theorem physicalSpan (h : g.HasLevel column level) {span : Nat}
    (hspan : 1 ≤ span) :
    1 ≤ g.physicalSpan column span level ∧
      g.offset column + level + g.physicalSpan column span level =
        g.offset (column + span) := by
  have hlt := h.lt_columnsOf hspan
  rw [offset_add, Grid.physicalSpan]
  omega

/-- The levels of a span that are left, and a column for each logical one. -/
theorem physicalSpan_eq (h : g.HasLevel column level) {span : Nat}
    (hspan : 1 ≤ span) (hfit : column + span ≤ g.depths.length) :
    g.physicalSpan column span level =
      ((g.depths.drop column).take span).sum - level + span := by
  have hle := h.le_sum hspan
  have hlength : ((g.depths.drop column).take span).length = span :=
    List.length_take_of_le (by rw [List.length_drop]; omega)
  rw [Grid.physicalSpan, columnsOf_eq_levels, hlength]
  omega

end HasLevel

theorem hasLevel_zero {column : Nat} (h : column < g.depths.length) :
    g.HasLevel column 0 :=
  ⟨_, List.getElem?_eq_getElem h, Nat.zero_le _⟩

/-- Every logical column has a physical one. -/
theorem offset_lt_offset_succ {column : Nat} (h : column < g.depths.length) :
    g.offset column + 1 ≤ g.offset (column + 1) :=
  (hasLevel_zero h).lt_offset_succ

theorem offset_strictMono {column column' : Nat} (h : column < column')
    (hlast : column' ≤ g.depths.length) : g.offset column < g.offset column' :=
  Nat.lt_of_lt_of_le (offset_lt_offset_succ (Nat.lt_of_lt_of_le h hlast))
    (g.offset_mono h)

/-- Different logical columns begin in different physical ones. -/
theorem offset_inj {column column' : Nat} (h : column ≤ g.depths.length)
    (h' : column' ≤ g.depths.length) :
    g.offset column = g.offset column' ↔ column = column' := by
  refine ⟨fun heq => ?_, fun heq => heq ▸ rfl⟩
  rcases Nat.lt_trichotomy column column' with hlt | rfl | hgt
  · exact absurd heq (Nat.ne_of_lt (offset_strictMono hlt h'))
  · rfl
  · exact absurd heq (Nat.ne_of_gt (offset_strictMono hgt h))

end Grid

/-! ## Physical columns -/

section Columns

variable {α : Type} [Scalar α]

theorem Column.length_levelWidths (fraction : α) (levels : Nat)
    (remaining : α) :
    (levelWidths fraction levels remaining).length = levels + 1 := by
  induction levels generalizing remaining with
  | zero => rfl
  | succ levels ih =>
      rw [levelWidths, List.length_cons, ih]

theorem Column.Specifier.length_indent (c : Specifier α) (levels : Nat) :
    (c.indent levels).length = levels + 1 := by
  rw [Specifier.indent]
  split
  · next h => rw [h]; rfl
  · split
    · rw [List.length_append, List.length_map, List.length_map,
        ← List.length_append, List.take_append_drop, length_levelWidths]
    · exact List.length_replicate

theorem length_physicalColumns {columns : List (Specifier α)}
    {depths : List Nat} (h : columns.length = depths.length) :
    (columns.zipWith Specifier.indent depths).flatten.length =
      Grid.columnsOf depths := by
  induction columns generalizing depths with
  | nil =>
      rw [List.eq_nil_of_length_eq_zero h.symm]
      rfl
  | cons c columns ih =>
      cases depths with
      | nil => cases h
      | cons depth depths =>
          rw [List.zipWith_cons_cons, List.flatten_cons, List.length_append,
            Specifier.length_indent, ih (Nat.succ.inj h), Grid.columnsOf_cons]

/-- The physical columns of a logical one are its levels. -/
theorem getElem?_physicalColumns {columns : List (Specifier α)}
    {depths : List Nat} {i depth level : Nat} {c : Specifier α}
    (hcolumn : columns[i]? = some c) (hdepth : depths[i]? = some depth)
    (hlevel : level ≤ depth) (hlength : columns.length = depths.length) :
    (columns.zipWith Specifier.indent depths).flatten[
        Grid.columnsOf (depths.take i) + level]? =
      (c.indent depth)[level]? := by
  induction i generalizing columns depths with
  | zero =>
      obtain ⟨rest, rfl⟩ := List.head?_eq_some_iff.mp
        (List.head?_eq_getElem?.trans hcolumn)
      obtain ⟨others, rfl⟩ := List.head?_eq_some_iff.mp
        (List.head?_eq_getElem?.trans hdepth)
      have hinside : Grid.columnsOf [] + level < (c.indent depth).length := by
        rw [Specifier.length_indent]
        exact Nat.lt_succ_of_le (by rw [Grid.columnsOf]; simpa using hlevel)
      rw [List.zipWith_cons_cons, List.flatten_cons, List.take_zero,
        List.getElem?_append_left hinside]
      simp [Grid.columnsOf]
  | succ i ih =>
      cases columns with
      | nil => cases hcolumn
      | cons first columns =>
          cases depths with
          | nil => cases hdepth
          | cons firstDepth depths =>
              have hfirst := Specifier.length_indent first firstDepth
              have hrest := ih hcolumn hdepth (Nat.succ.inj hlength)
              rw [List.zipWith_cons_cons, List.flatten_cons,
                List.take_succ_cons, Grid.columnsOf_cons,
                List.getElem?_append_right (by omega), hfirst, ← hrest]
              congr 1
              omega

end Columns

/-! ## Measured depths -/

section Depths

variable {α : Type}

/-- One list of depths is nowhere deeper than another, and not longer. -/
def Shallower (depths depths' : List Nat) : Prop :=
  ∀ column depth, depths[column]? = some depth →
    (Grid.mk depths').HasLevel column depth

theorem Shallower.refl (depths : List Nat) : Shallower depths depths :=
  fun _ depth h => ⟨depth, h, Nat.le_refl depth⟩

theorem Shallower.trans {depths depths' depths'' : List Nat}
    (h : Shallower depths depths') (h' : Shallower depths' depths'') :
    Shallower depths depths'' := by
  intro column depth hdepth
  obtain ⟨d', hd', hle⟩ := h column depth hdepth
  obtain ⟨d'', hd'', hle'⟩ := h' column d' hd'
  exact ⟨d'', hd'', Nat.le_trans hle hle'⟩

theorem shallower_max {depths depths' : List Nat}
    (h : depths.length = depths'.length) :
    Shallower depths (depths.zipWith max depths') ∧
      Shallower depths' (depths.zipWith max depths') := by
  constructor
  · intro column depth hdepth
    have hlt := (List.getElem?_eq_some_iff.mp hdepth).1
    refine ⟨max depth depths'[column], ?_, Nat.le_max_left _ _⟩
    exact List.getElem?_zipWith_eq_some.mpr
      ⟨_, _, hdepth, List.getElem?_eq_getElem (h ▸ hlt), rfl⟩
  · intro column depth hdepth
    have hlt := (List.getElem?_eq_some_iff.mp hdepth).1
    refine ⟨max depths[column] depth, ?_, Nat.le_max_right _ _⟩
    exact List.getElem?_zipWith_eq_some.mpr
      ⟨_, _, List.getElem?_eq_getElem (h ▸ hlt), hdepth, rfl⟩

/-- Measuring rows on top of some depths keeps the columns, and is as deep as
those depths and as every row. -/
theorem measure_shallower (rows : List (List (Option (MeasuredCell α))))
    (depths : List Nat) (h : ∀ row ∈ rows, row.length = depths.length) :
    let measured := rows.foldl
      (fun depths row => depths.zipWith max (row.map slotIndent)) depths
    measured.length = depths.length ∧ Shallower depths measured ∧
      ∀ row ∈ rows, Shallower (row.map slotIndent) measured := by
  induction rows generalizing depths with
  | nil => exact ⟨rfl, .refl depths, fun _ hrow => nomatch hrow⟩
  | cons row rest ih =>
      have hrow : depths.length = (row.map slotIndent).length := by
        rw [List.length_map, h row List.mem_cons_self]
      have hlength :
          (depths.zipWith max (row.map slotIndent)).length = depths.length := by
        rw [List.length_zipWith, ← hrow, Nat.min_self]
      obtain ⟨hdepths, hslots⟩ := shallower_max hrow
      obtain ⟨hlen, hstart, hrest⟩ :=
        ih (depths.zipWith max (row.map slotIndent)) fun r hr =>
          (h r (List.mem_cons_of_mem _ hr)).trans hlength.symm
      refine ⟨hlen.trans hlength, hdepths.trans hstart, fun r hr => ?_⟩
      rcases List.mem_cons.mp hr with rfl | hr
      · exact hslots.trans hstart
      · exact hrest r hr

theorem measureDepths_spec {count : Nat}
    {rows : List (List (Option (MeasuredCell α)))}
    (h : ∀ row ∈ rows, row.length = count) :
    (measureDepths count rows).length = count ∧
      ∀ row ∈ rows,
        Shallower (row.map slotIndent) (measureDepths count rows) := by
  have hlength := List.length_replicate (n := count) (a := 0)
  obtain ⟨hlen, _, hrows⟩ := measure_shallower rows (List.replicate count 0)
    fun row hrow => (h row hrow).trans hlength.symm
  exact ⟨hlen.trans hlength, hrows⟩

end Depths

/-! ## The grid of a layout -/

namespace Compilation

variable {α : Type} [Scalar α] {t : Table α} {s : Session α}
  (c : Compilation t s)

theorem columnCount_eq : c.frame.columnCount = c.count :=
  (layoutColumns_length c.resolved).1

theorem length_slots {slots : List (Option (MeasuredCell α))}
    (h : slots ∈ c.measured) : slots.length = c.count := by
  obtain ⟨hlen, hrows⟩ := measureRows_getElem? c.measures
  obtain ⟨i, hi⟩ := List.getElem?_of_mem h
  have hlt := (List.getElem?_eq_some_iff.mp hi).1
  rw [hlen] at hlt
  have hrow := List.getElem?_eq_getElem hlt
  obtain ⟨found, ws, hfound, hmeasure⟩ := hrows i _ hrow
  rw [hi] at hfound
  cases hfound
  rw [(measureSlots_getElem? hmeasure).1]
  exact ((validate_rows c.valid).2 _ (List.mem_of_getElem? hrow)).1

theorem length_depths : c.depths.length = c.count :=
  (measureDepths_spec fun _ h => c.length_slots h).1

/-- The first pass has seen the indentation of every cell, whether the cell is
placed or swallowed by another one. -/
theorem hasLevel {slots : List (Option (MeasuredCell α))}
    (h : slots ∈ c.measured) {column : Nat} {m : MeasuredCell α}
    (hm : slots[column]? = some (some m)) :
    c.frame.grid.HasLevel column m.directive.indent := by
  have hrow := (measureDepths_spec fun _ h => c.length_slots h).2 slots h
  refine hrow column (slotIndent (some m)) ?_
  rw [List.getElem?_map, hm]
  rfl

theorem offset_columnCount :
    c.frame.grid.offset c.frame.columnCount = c.frame.grid.total := by
  rw [c.columnCount_eq, ← c.length_depths]
  exact c.frame.grid.offset_length

theorem length_physicalColumns :
    c.frame.physicalColumns.length = c.frame.grid.total :=
  Tabulation.length_physicalColumns
    (c.columnCount_eq.trans c.length_depths.symm)

end Compilation

end Tabulation
