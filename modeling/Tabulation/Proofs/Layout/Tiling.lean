import Tabulation.Proofs.Layout.Columns
import Tabulation.Proofs.Layout.Placement

/-!
# Which rows are tiled by their cells

A row is laid out well if each logical column is covered by exactly one of
its cells. Two things give a cell its span: what it declares, which the
covered slots behind it bear out, and the directives in its content, which
nothing is checked against but the edge of the table. A directive can
therefore end in the middle of a declared span. The cell that declares it is
swallowed, the covered slots behind the end belong to nobody, and their
columns are lost.

That is the only way in which a row fails to be tiled: no column is ever
covered twice, and `compile_tiles_iff` says that a compiled row is tiled
exactly if none of its cells ends in front of a covered slot.
-/

namespace Tabulation

open Column

variable {α : Type}

/-- The cells cover the columns from `start` up to `stop`, each column once
and in order. -/
def Tiles (stop : Nat) : (start : Nat) → List (PlacedCell α) → Prop
  | start, [] => start = stop
  | start, c :: cs => c.column = start ∧ Tiles stop (c.column + c.span) cs

/-- The cells stand between two columns in order, and no two cover the same
column. -/
def Apart (stop : Nat) : (start : Nat) → List (PlacedCell α) → Prop
  | start, [] => start ≤ stop
  | start, c :: cs => start ≤ c.column ∧ 1 ≤ c.span ∧
      Apart stop (c.column + c.span) cs

instance Tiles.decide (stop : Nat) : (start : Nat) →
    (cells : List (PlacedCell α)) → Decidable (Tiles stop start cells)
  | start, [] => inferInstanceAs (Decidable (start = stop))
  | start, c :: cs =>
      have := Tiles.decide stop (c.column + c.span) cs
      inferInstanceAs (Decidable (c.column = start ∧ Tiles stop _ cs))

/-- Whether a column of a row is one that a declared span covers behind its
first. -/
def Row.coveredAt (r : Row) (column : Nat) : Bool :=
  r.slots[column]?.any Slot.isCovered

theorem Row.coveredAt_iff (r : Row) (column : Nat) :
    r.coveredAt column = true ↔ r.slots[column]? = some .covered := by
  rw [Row.coveredAt]
  cases r.slots[column]? with
  | none => simp
  | some slot => cases slot <;> simp [Slot.isCovered]

theorem Apart.mono {stop start start' : Nat} {cells : List (PlacedCell α)}
    (hle : start' ≤ start) (h : Apart stop start cells) :
    Apart stop start' cells := by
  cases cells with
  | nil => exact Nat.le_trans hle h
  | cons c cs => exact ⟨Nat.le_trans hle h.1, h.2⟩

variable [Scalar α]

namespace Places

variable {f : Frame α} {column skip : Nat}
  {slots : List (Option (MeasuredCell α))} {cells : List (PlacedCell α)}

theorem apart (h : Places f column skip slots cells)
    (hcount : column + slots.length = f.columnCount)
    (hskip : skip ≤ slots.length) :
    Apart f.columnCount (column + skip) cells := by
  induction h with
  | done =>
      rw [← hcount]
      exact Nat.add_le_add_left hskip _
  | @skipped column skip slot rest cells _ ih =>
      rw [List.length_cons] at hcount hskip
      have hrest := ih (by omega) (by omega)
      rw [show column + (skip + 1) = column + 1 + skip by omega]
      exact hrest
  | covered _ ih =>
      rw [List.length_cons] at hcount
      exact (ih (by omega) (Nat.zero_le _)).mono (by omega)
  | @cell column m group rest cells fits _ _ ih =>
      rw [List.length_cons] at hcount
      have hspan := m.one_le_span
      have hrest := ih (by omega) (by omega)
      refine ⟨Nat.le_refl _, hspan, ?_⟩
      show Apart f.columnCount (column + m.span) cells
      rw [show column + m.span = column + 1 + (m.span - 1) by omega]
      exact hrest

theorem le_column (h : Places f column skip slots cells) {c : PlacedCell α}
    (hc : c ∈ cells) : column ≤ c.column := by
  induction h with
  | done => cases hc
  | skipped _ ih => have := ih hc; omega
  | covered _ ih => have := ih hc; omega
  | cell _ _ _ ih =>
      rcases List.mem_cons.mp hc with rfl | hrest
      · exact Nat.le_refl _
      · have := ih hrest; omega

/-- Where a slot is prepended, the slot behind a later cell moves by one. -/
theorem behind_cons {slot : Option (MeasuredCell α)}
    {rest : List (Option (MeasuredCell α))}
    (h : Places f (column + 1) skip rest cells) {c : PlacedCell α}
    (hc : c ∈ cells) :
    (slot :: rest)[c.column + c.span - column]? =
      rest[c.column + c.span - (column + 1)]? := by
  have hle := h.le_column hc
  rw [show c.column + c.span - column =
    c.column + c.span - (column + 1) + 1 by omega]
  exact List.getElem?_cons_succ

/-- The walk tiles what is left of a row exactly if neither the slot behind
the skipped ones nor any slot behind a placed cell is a covered one. -/
theorem tiles_iff (h : Places f column skip slots cells)
    (hcount : column + slots.length = f.columnCount)
    (hskip : skip ≤ slots.length) :
    Tiles f.columnCount (column + skip) cells ↔
      slots[skip]? ≠ some none ∧
        ∀ c ∈ cells, slots[c.column + c.span - column]? ≠ some none := by
  induction h with
  | @done column skip =>
      have hz : skip = 0 := Nat.le_zero.mp hskip
      subst hz
      constructor
      · intro _
        exact ⟨by simp, fun c hc => by cases hc⟩
      · intro _
        exact hcount
  | @skipped column skip slot rest cells hrest ih =>
      rw [List.length_cons] at hcount hskip
      rw [show column + (skip + 1) = column + 1 + skip by omega,
        ih (by omega) (by omega), List.getElem?_cons_succ]
      refine and_congr_right fun _ => forall₂_congr fun c hc => ?_
      rw [hrest.behind_cons hc]
  | @covered column rest cells hrest ih =>
      rw [List.length_cons] at hcount
      constructor
      · intro ht
        exfalso
        cases cells with
        | nil => rw [Tiles] at ht; omega
        | cons c cs =>
            have hle := hrest.le_column List.mem_cons_self
            have heq := ht.1
            omega
      · intro h'
        obtain ⟨hfirst, _⟩ := h'
        exact absurd List.getElem?_cons_zero hfirst
  | @cell column m group rest cells fits _ hrest ih =>
      rw [List.length_cons] at hcount
      have hspan := m.one_le_span
      have hih := ih (by omega) (by omega)
      rw [show column + 1 + (m.span - 1) = column + m.span by omega] at hih
      have hbehind : (some m :: rest)[column + m.span - column]? =
          rest[m.span - 1]? := by
        rw [show column + m.span - column = m.span - 1 + 1 by omega]
        exact List.getElem?_cons_succ
      constructor
      · intro h'
        obtain ⟨_, ht⟩ := h'
        obtain ⟨hnext, hcells⟩ := hih.mp ht
        refine ⟨by simp, fun c hc => ?_⟩
        rcases List.mem_cons.mp hc with rfl | hc
        · show (some m :: rest)[column + m.span - column]? ≠ some none
          rw [hbehind]
          exact hnext
        · rw [hrest.behind_cons hc]
          exact hcells c hc
      · intro h'
        obtain ⟨_, hcells⟩ := h'
        refine ⟨rfl, hih.mpr ⟨?_, fun c hc => ?_⟩⟩
        · have hfirst := hcells _ List.mem_cons_self
          rw [← hbehind]
          exact hfirst
        · have hc' := hcells c (List.mem_cons_of_mem _ hc)
          rw [hrest.behind_cons hc] at hc'
          exact hc'

end Places

theorem not_covered_of_covers {slots : List Slot}
    (h : Row.covers 0 slots = true) : slots[0]? ≠ some .covered := by
  cases slots with
  | nil => simp
  | cons slot rest =>
      cases slot with
      | cell c => simp
      | covered => rw [Row.covers] at h; cases h

/-- What the cells of a placed row come from: the slots of a source row, of
which the first is not a covered one. -/
theorem Compilation.row_places {t : Table α} {s : Session α}
    (c : Compilation t s) {i : Nat} {row : Row} {placed : PlacedRow α}
    (hrow : t.rows[i]? = some row) (hplaced : c.layout.rows[i]? = some placed) :
    ∃ slots, Places c.frame 0 0 slots placed.cells ∧
      slots.length = c.frame.columnCount ∧
      ∀ j, slots[j]? = some none ↔ row.coveredAt j = true := by
  obtain ⟨slots, ws, p, _, hmeasure, hplace, hfinish⟩ := c.row_at hrow hplaced
  obtain ⟨hlen, hcovered⟩ := measureSlots_getElem? hmeasure
  have hvalid := (validate_rows c.valid).2 row (List.mem_of_getElem? hrow)
  refine ⟨slots, ?_, ?_, fun j => ?_⟩
  · rw [hfinish.cells]
    exact placeRow_places hplace
  · rw [hlen, hvalid.1]
    exact (layoutColumns_length c.resolved).1.symm
  · rw [hcovered, Row.coveredAt_iff]

/-- In every row of a compiled table the cells stand in order, inside the
table and without covering a column twice; and they cover every column exactly
if none of them ends in front of a covered slot, that is inside of a span
that another cell declares. -/
theorem compile_tiles_iff {t : Table α} {s s' : Session α} {layout : Layout α}
    (h : compile t s = (.ok layout, s')) :
    layout.rows.length = t.rows.length ∧
      ∀ (i : Nat) (row : Row) (placed : PlacedRow α),
        t.rows[i]? = some row → layout.rows[i]? = some placed →
        Apart layout.columns.length 0 placed.cells ∧
          (Tiles layout.columns.length 0 placed.cells ↔
            ∀ c ∈ placed.cells, ¬ row.coveredAt (c.column + c.span)) := by
  obtain ⟨c, rfl, _⟩ := compile_eq_ok_iff.mp h
  refine ⟨c.length_rows, ?_⟩
  intro i row placed hrow hplaced
  obtain ⟨slots, hplaces, hlen, hcovered⟩ := c.row_places hrow hplaced
  have hcount : 0 + slots.length = c.frame.columnCount := by omega
  have hvalid := (validate_rows c.valid).2 row (List.mem_of_getElem? hrow)
  have hfirst : slots[0]? ≠ some none := by
    rw [Ne, hcovered, Row.coveredAt_iff]
    exact not_covered_of_covers hvalid.2
  refine ⟨hplaces.apart hcount (Nat.zero_le _), ?_⟩
  refine (hplaces.tiles_iff hcount (Nat.zero_le _)).trans ?_
  constructor
  · intro h' d hd hd'
    obtain ⟨_, hcells⟩ := h'
    exact hcells d hd ((hcovered _).mpr hd')
  · intro hcells
    refine ⟨hfirst, fun d hd hd' => hcells d hd ((hcovered _).mp hd')⟩

/-- A directive asks for two columns next to a cell that declares two, and
the second of these is lost. -/
def cutSpan : Table Float where
  rows := [Row.spanned
    [.cell { content := [.word "a", .space, .word ">"] },
      .cell { content := [.word "b"], span := 2 }]]
  attributes := Attributes.default

/-- A declared span and one that a directive asks for, side by side. -/
def wholeSpans : Table Float where
  rows := [Row.spanned
    [.cell { content := [.word "a"], span := 2 },
      .cell { content := [.word "b", .space, .word ">"] },
      .cell { content := [] }]]
  attributes := Attributes.default

theorem compile_wholeSpans : ∃ layout s' placed,
    compile wholeSpans { options := Options.default } = (.ok layout, s') ∧
      layout.rows[0]? = some placed ∧
      Tiles layout.columns.length 0 placed.cells := by
  refine ⟨_, _, _, rfl, rfl, ?_⟩
  have h := (compile_tiles_iff (t := wholeSpans)
    (s := { options := Options.default }) rfl).2 0 _ _ rfl rfl
  exact h.2.mpr (by decide +kernel)

theorem compile_cutSpan : ∃ layout s' placed,
    compile cutSpan { options := Options.default } = (.ok layout, s') ∧
      layout.rows[0]? = some placed ∧
      ¬ Tiles layout.columns.length 0 placed.cells := by
  refine ⟨_, _, _, rfl, rfl, ?_⟩
  decide +kernel

end Tabulation
