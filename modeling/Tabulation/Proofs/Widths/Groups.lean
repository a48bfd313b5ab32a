import Mathlib
import Tabulation.Proofs.Layout.Padding
import Tabulation.Proofs.Widths.Levels
import Tabulation.Proofs.Widths.Sharing

/-!
# The widths of groups

A cell that covers several columns, or is indented, is set as a group in the
width of what it covers. Its first column gives what the level of the cell
leaves of it, however deep other cells of the column are indented, and each
other column what it declares. No column declares less than nothing, so a
group that is not widened has nothing to be widened by.
-/

namespace Tabulation

open Column

section

variable {α : Type}

namespace Column.Specifier

variable {c : Specifier α} {w : Width α}

theorem width?_eq_some (h : c.width? = some w) :
    ∃ p, c.kind = .paragraph p ∧ p.width = w := by
  rw [width?] at h
  split at h
  · next p hp =>
      cases h
      exact ⟨p, hp, rfl⟩
  · cases h

theorem fractionWidth?_of_width? (h : c.width? = some w) :
    c.fractionWidth? = w.fraction? := by
  obtain ⟨p, hp, rfl⟩ := width?_eq_some h
  rw [fractionWidth?, hp]

theorem widened_width? [Scalar α] (h : c.width? = some w) (extra : α) :
    (c.widened extra).width? = some (w.withValue (w.value + extra)) := by
  obtain ⟨p, hp, rfl⟩ := width?_eq_some h
  rw [widened, hp]
  rfl

/-- What a column declares is a width that it has. -/
theorem mem_widths_of_fractionWidth? {x : α} (h : c.fractionWidth? = some x) :
    Width.fraction x ∈ c.widths := by
  rw [fractionWidth?] at h
  rw [widths]
  cases hkind : c.kind with
  | paragraph p =>
      rw [hkind] at h
      exact List.mem_singleton.mpr (Width.eq_fraction h).symm
  | numeric n =>
      rw [hkind] at h
      obtain ⟨w, hw, h⟩ := Option.bind_eq_some_iff.mp h
      rw [← Width.eq_fraction h]
      exact Option.mem_toList.mpr hw
  | simple align =>
      rw [hkind] at h
      cases h
  | autoWidth text =>
      rw [hkind] at h
      cases h

end Column.Specifier

theorem flushEdges_width? (total first span : Nat) (leave : Bool)
    (g : Specifier α) :
    (flushEdges total first span leave g).width? = g.width? := by
  rw [flushEdges]
  split
  · rfl
  · simp only []
    split <;> split <;> rfl

variable [Scalar α]

/-- The specifier that a cell in a column of a row asks for. -/
def Row.specifierAt? (lenient : Bool) (row : Row) (column : Nat) :
    Option (Specifier α) :=
  match row.slots[column]? with
  | some (.cell cell) =>
      match Directive.extract cell.content lenient with
      | .ok (directive, _, _) => directive.specifier
      | .error _ => none
  | _ => none

namespace Compilation

variable {t : Table α} {s : Session α} (c : Compilation t s)

/-- A cell that asks for no specifier is set as the level of its column, which
the depth of the column is enough for. -/
theorem group_of_anchor {i : Nat} {source : Row} {row : PlacedRow α}
    (hsource : t.rows[i]? = some source) (hrow : c.layout.rows[i]? = some row)
    {cell : PlacedCell α} (hcell : cell ∈ row.cells) {g : Specifier α}
    (hg : cell.group = some g)
    (hnone : source.specifierAt? (α := α) s.options.lenient cell.column = none)
    {column : Specifier α}
    (hcolumn : c.layout.columns[cell.column]? = some column)
    (ho : column.override = .itself) :
    ∃ depth level base, level ∈ column.indent depth ∧ cell.indent ≤ depth ∧
      level.group cell.indent = .ok base ∧
      g.width? = (if 1 < cell.span ∧ base.fractionWidth?.isSome ∧
          0.0 < c.frame.extra cell.column cell.span
        then base.widened (c.frame.extra cell.column cell.span)
        else base).width? := by
  obtain ⟨m, ws, hslot, hextract, heq, hgroup⟩ := c.cell_at hsource hrow hcell
  have hown : m.directive.specifier = none := by
    rw [Row.specifierAt?, hslot] at hnone
    simp only [hextract] at hnone
    exact hnone
  have hindent : m.directive.indent = cell.indent := by rw [heq]; rfl
  have hspan : m.span = cell.span := by rw [heq]; rfl
  rw [hg, hspan] at hgroup
  obtain ⟨base, hbase, rfl⟩ := Frame.group?_eq_some hgroup
  rw [hown, hindent] at hbase
  have hanchor := (hbase.resolve_left nofun).2
  obtain ⟨depth, hdepth, hle⟩ :=
    (c.cell_onGrid (List.mem_of_getElem? hrow) hcell).indent_le
  -- The cell is no deeper than its column, so where it begins is a level of
  -- this column and not of the next one.
  have hlevel : (column.indent depth)[cell.indent]? =
      some (c.frame.anchor cell.column cell.indent) := by
    have hlevels := getElem?_physicalColumns hcolumn hdepth hle
      (c.columnCount_eq.trans c.length_depths.symm)
    have hinside : cell.indent < (column.indent depth).length := by
      rw [Specifier.length_indent]
      exact Nat.lt_succ_of_le hle
    rw [List.getElem?_eq_getElem hinside] at hlevels ⊢
    have hanchored := congrArg (fun found => found.getD .plainLeft) hlevels
    exact congrArg some hanchored.symm
  have hmem := List.mem_of_getElem? hlevel
  have hitself := (Specifier.override_of_mem_indent hmem).trans ho
  obtain ⟨first, hfirst, hbase⟩ := Frame.anchorGroup_cases hanchor
  refine ⟨depth, _, first, hmem, hle, hfirst, ?_⟩
  rw [flushEdges_width?]
  obtain ⟨-, hwidens, rfl⟩ | ⟨hnot, rfl⟩ := hbase
  · rw [if_pos hwidens]
  · rw [if_neg fun hwidens => hnot ⟨hitself, hwidens⟩]

end Compilation

end

/-! ## Exact widths -/

/-- What the columns of a span declare besides the first, nothing counting as
zero. -/
def declaredBeside (columns : List (Specifier ℚ)) (column span : Nat) : ℚ :=
  (((columns.drop (column + 1)).take (span - 1)).map fun c =>
    c.fractionWidth?.getD 0).sum

theorem sum_filterMap_getD {β : Type} (f : β → Option ℚ) (xs : List β) :
    (xs.filterMap f).sum = (xs.map fun x => (f x).getD 0).sum := by
  induction xs with
  | nil => rfl
  | cons x xs ih =>
      rw [List.filterMap_cons, List.map_cons, List.sum_cons, ← ih]
      cases f x with
      | none => exact (zero_add _).symm
      | some w => exact List.sum_cons

variable (texts : RationalTexts)

theorem extra_rat (f : Frame ℚ) (column span : Nat) :
    @Frame.extra ℚ texts.scalar f column span =
      declaredBeside f.columns column span := by
  let := texts.scalar
  rw [Frame.extra, sum_rat, sum_filterMap_getD, declaredBeside]

theorem declaredBeside_nonneg {columns : List (Specifier ℚ)}
    (h : ∀ c ∈ columns, @Specifier.AllFresh ℚ texts.scalar c)
    (column span : Nat) : 0 ≤ declaredBeside columns column span := by
  let := texts.scalar
  refine List.sum_nonneg fun x hx => ?_
  obtain ⟨d, hd, rfl⟩ := List.mem_map.mp hx
  have hmem := List.mem_of_mem_drop (List.mem_of_mem_take hd)
  cases hwidth : d.fractionWidth? with
  | none => exact le_refl 0
  | some w =>
      have hnonneg := (h d hmem).self.widths _
        (Specifier.mem_widths_of_fractionWidth? hwidth)
      exact not_lt.mp fun hneg => hnonneg (hneg.trans_eq (by norm_num))

/-- A column of a fraction of the text width that is widened by what others
declare, which is nothing if it is not. -/
theorem widened_rat {base : Specifier ℚ} {x extra : ℚ} {span : Nat}
    (hbase : base.width? = some (.fraction x)) (hextra : 0 ≤ extra)
    (hspan : span ≤ 1 → extra = 0) :
    (if 1 < span ∧ base.fractionWidth?.isSome ∧ (0.0 : ℚ) < extra
      then @Specifier.widened ℚ texts.scalar base extra else base).width? =
        some (.fraction (x + extra)) := by
  let := texts.scalar
  have hzero : (0.0 : ℚ) = 0 := by norm_num
  have hdeclared : base.fractionWidth?.isSome = true := by
    rw [Specifier.fractionWidth?_of_width? hbase]
    rfl
  rw [hzero]
  split
  · exact Specifier.widened_width? hbase extra
  · next hnot =>
      have hnone : extra = 0 := by
        by_contra hne
        have hpos : 0 < extra := lt_of_le_of_ne hextra (Ne.symm hne)
        exact hnot ⟨not_le.mp fun hle => hne (hspan hle), hdeclared, hpos⟩
      rw [hnone, add_zero]
      exact hbase

/-- A group in a paragraph column that nothing replaces has the width that the
level of the cell leaves of the column, and what the other columns declare. -/
theorem Compilation.group_width {t : Table ℚ} {s : Session ℚ}
    (c : @Compilation ℚ texts.scalar t s) {i : Nat} {source : Row}
    {row : PlacedRow ℚ} (hsource : t.rows[i]? = some source)
    (hrow : (@layout ℚ texts.scalar t s c).rows[i]? = some row)
    {cell : PlacedCell ℚ} (hcell : cell ∈ row.cells) {g : Specifier ℚ}
    (hg : cell.group = some g)
    (hnone : @Row.specifierAt? ℚ texts.scalar s.options.lenient source
      cell.column = none)
    {column : Specifier ℚ} {p : Paragraph ℚ} {w : ℚ}
    (hcolumn : (@layout ℚ texts.scalar t s c).columns[cell.column]? =
      some column)
    (ho : column.override = .itself) (hp : column.kind = .paragraph p)
    (hw : p.width = .fraction w) :
    g.width? = some (.fraction (w * (1 - p.indentFraction) ^ cell.indent +
      declaredBeside (@layout ℚ texts.scalar t s c).columns cell.column
        cell.span)) := by
  let := texts.scalar
  obtain ⟨depth, level, base, hlevel, hle, hbase, hwidth⟩ :=
    c.group_of_anchor hsource hrow hcell hg hnone hcolumn ho
  have hwhole : p.indentWidths = [] := by
    have hfresh := (c.columns_fresh _ (List.mem_of_getElem? hcolumn)).self.whole
    rw [Specifier.indentWidths, hp] at hfresh
    exact hfresh
  obtain ⟨found, hfound, hexact⟩ :=
    Specifier.group_level texts ho hp (.inr hwhole) hlevel hle
  obtain rfl : found = base := Except.ok.inj (hfound.symm.trans hbase)
  rw [hw] at hexact
  have hbeside := declaredBeside_nonneg texts c.columns_fresh cell.column
    cell.span
  rw [hwidth, extra_rat]
  refine widened_rat texts hexact hbeside fun hspan => ?_
  rw [declaredBeside, Nat.sub_eq_zero_of_le hspan]
  rfl

/-- In exact arithmetic the levels of a paragraph column share its width, and
those from one on make up what is left in front of it. So in a table that
compiles, a group in a paragraph column that nothing replaces, for a cell that
asks for nothing else, takes the part of the column that its own indentation
leaves, and all that the other columns of its span declare. The depth of the
column does not matter. -/
theorem compile_splits :
    (∀ (c : Specifier ℚ) (p : Paragraph ℚ) (levels : Nat),
      c.kind = .paragraph p → 1 ≤ levels → c.SplitsExactly texts p levels) ∧
    ∀ (t : Table ℚ) (s s' : Session ℚ) (layout : Layout ℚ),
      @compile ℚ texts.scalar t s = (.ok layout, s') →
      ∀ (i : Nat) (source : Row) (row : PlacedRow ℚ),
        t.rows[i]? = some source → layout.rows[i]? = some row →
        ∀ cell ∈ row.cells, ∀ g, cell.group = some g →
        @Row.specifierAt? ℚ texts.scalar s.options.lenient source cell.column =
          none →
        ∀ (column : Specifier ℚ) (p : Paragraph ℚ) (w : ℚ),
          layout.columns[cell.column]? = some column →
          column.override = .itself → column.kind = .paragraph p →
          p.width = .fraction w →
          g.width? = some (.fraction
            (w * (1 - p.indentFraction) ^ cell.indent +
              declaredBeside layout.columns cell.column cell.span)) := by
  refine ⟨fun c p levels hc hlevels => Specifier.splits texts hc hlevels, ?_⟩
  intro t s s' layout h i source row hsource hrow cell hcell g hg hnone column p
    w hcolumn ho hp hw
  obtain ⟨c, rfl, _⟩ := (@compile_eq_ok_iff ℚ texts.scalar _ _ _ _).mp h
  exact c.group_width texts hsource hrow hcell hg hnone hcolumn ho hp hw

/-- A cell at the first of two levels, which covers a second column, and a cell
at the second level. -/
def levelledTable : Table ℚ where
  rows :=
    [Row.spanned
      [.cell { content := [.word "~~~", .word "a"], span := 2 }],
      Row.spanned
        [.cell { content := [.word "~~~", .word "~~~", .word "b"] },
          .cell { content := [.word "c"] }]]
  attributes :=
    { @Attributes.default ℚ quotientTexts.scalar with
      widths := [3 / 5, 2 / 5], totalWidth := some 1 }

theorem compile_levelledTable : ∃ layout s',
    @compile ℚ quotientTexts.scalar levelledTable
        { options := @Options.default ℚ quotientTexts.scalar } =
      (.ok layout, s') ∧
    (∀ column ∈ layout.columns, ∀ p, column.kind = .paragraph p →
      column.SplitsExactly quotientTexts p 2) ∧
    ∃ row ∈ layout.rows, ∃ cell ∈ row.cells, ∃ g,
      cell.group = some g ∧ g.width? = some (.fraction (47 / 50)) := by
  have hcheck : ((@compile ℚ quotientTexts.scalar levelledTable
      { options := @Options.default ℚ quotientTexts.scalar }).1.toOption.any
        fun layout =>
          (layout.rows[0]?.any fun row => row.cells[0]?.any fun cell =>
            cell.group.isSome ∧
              (cell.column, cell.span, cell.indent) = (0, 2, 1)) ∧
          (layout.columns[0]?.any fun column =>
            column.hasDefaultOverride ∧ column.numbers = [3 / 5, 1 / 10] ∧
              column.width?.bind Width.fraction? = some (3 / 5)) ∧
          declaredBeside layout.columns 0 2 = 2 / 5) = true := by
    decide +kernel
  obtain ⟨layout, hlayout, hcheck⟩ := (Option.any_eq_true _ _).mp hcheck
  obtain ⟨hrows, hcolumns, hbeside⟩ := of_decide_eq_true hcheck
  obtain ⟨row, hrow, hcells⟩ := (Option.any_eq_true _ _).mp hrows
  obtain ⟨cell, hcell, hplaced⟩ := (Option.any_eq_true _ _).mp hcells
  obtain ⟨hgroup, hplace⟩ := of_decide_eq_true hplaced
  obtain ⟨g, hg⟩ := Option.isSome_iff_exists.mp hgroup
  obtain ⟨hcolumn, hplace⟩ := Prod.mk.inj hplace
  obtain ⟨hspan, hindent⟩ := Prod.mk.inj hplace
  obtain ⟨column, hfirst, hparagraph⟩ := (Option.any_eq_true _ _).mp hcolumns
  obtain ⟨hdefault, hnumbers, hwidth⟩ := of_decide_eq_true hparagraph
  obtain ⟨w, hw, hfraction⟩ := Option.bind_eq_some_iff.mp hwidth
  obtain ⟨p, hp, rfl⟩ := Specifier.width?_eq_some hw
  have ho : column.override = .itself := by
    rw [Specifier.hasDefaultOverride, hp] at hdefault
    cases hoverride : column.override with
    | itself => rfl
    | _ =>
        rw [hoverride] at hdefault
        cases hdefault
  have hf : p.indentFraction = 1 / 10 := by
    rw [Specifier.numbers, Specifier.widths, hp] at hnumbers
    exact (List.cons.inj (List.cons.inj hnumbers).2).1
  cases hcompile : @compile ℚ quotientTexts.scalar levelledTable
      { options := @Options.default ℚ quotientTexts.scalar } with
  | mk answer s' =>
      rw [hcompile] at hlayout
      cases answer with
      | error e => cases hlayout
      | ok found =>
          cases hlayout
          obtain ⟨hsplits, hgroups⟩ := compile_splits quotientTexts
          have hexact := hgroups levelledTable _ s' layout hcompile 0 _ row rfl
            hrow cell (List.mem_of_getElem? hcell) g hg
            (by rw [hcolumn]; rfl) column p (3 / 5) (by rw [hcolumn, hfirst])
            ho hp (Width.eq_fraction hfraction)
          rw [hcolumn, hspan, hindent, hf, hbeside] at hexact
          refine ⟨layout, s', rfl,
            fun column _ p hp => hsplits column p 2 hp (by decide), row,
            List.mem_of_getElem? hrow, cell, List.mem_of_getElem? hcell, g, hg,
            hexact.trans ?_⟩
          norm_num

end Tabulation
