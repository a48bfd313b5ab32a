import Tabulation.Proofs.Outcome
import Tabulation.Table.Layout

/-!
# The stages of a layout

A table is laid out in stages that each may refuse it: its rows are checked
against one column count, its columns and widths are resolved, directives are
taken out of all cells, and the rows are placed one by one on the grid that
the measured indentation gives. `Compilation` records what each stage
answered, and `compile_eq_ok_iff` says that a table compiles exactly if there
is such a record. A proof about layouts opens the record and never the
definition of `compile`.
-/

namespace Tabulation

open Column

variable {α : Type} [Scalar α]

omit [Scalar α] in
theorem Session.warn_nil (s : Session α) : s.warn [] = s := by
  rw [warn, List.append_nil]

omit [Scalar α] in
theorem Session.warn_append (s : Session α) (ws more : List Warning) :
    (s.warn ws).warn more = s.warn (ws ++ more) := by
  rw [warn, warn, warn, List.append_assoc]

/-- The width that a table is set in. -/
def Table.totalWidth (t : Table α) (o : Options α) : α :=
  t.attributes.totalWidth.getD o.totalWidth

/-- The grid of a table and what stands on it, before any row is placed. -/
def Table.frame (t : Table α) (depths : List Nat) (columns : List (Specifier α))
    (widths : List α) : Frame α where
  grid := ⟨depths⟩
  columns
  physicalColumns := (columns.zipWith Specifier.indent depths).flatten
  widths
  leavePadding := t.attributes.leaveTablePadding

/-- The answers of the stages that a table goes through to become a layout. -/
structure Compilation (t : Table α) (s : Session α) where
  count : Nat
  /-- The complaints about the alignment, and below those about cells. -/
  replaced : List Warning
  columns : List (Specifier α)
  widths : List α
  measured : List (List (Option (MeasuredCell α)))
  ignored : List Warning
  placed : List (PlacedRow α)
  valid : t.validate = .ok count
  resolved : layoutColumns t.attributes count (t.totalWidth s.options)
    s.options.lenient = (replaced, .ok (columns, widths))
  measures : measureRows s.options.lenient t.rows = .ok (measured, ignored)
  places : placeRows
    (t.frame (measureDepths count measured) columns widths) 0
    (t.rows.zip measured) = .ok placed

namespace Compilation

variable {t : Table α} {s : Session α}

def depths (c : Compilation t s) : List Nat :=
  measureDepths c.count c.measured

def frame (c : Compilation t s) : Frame α :=
  t.frame c.depths c.columns c.widths

def names (_ : Compilation t s) : TableNames :=
  (enterTable t.attributes.label s).1

def layout (c : Compilation t s) : Layout α where
  name := c.names.name
  number := c.names.number
  label := c.names.label
  notePrefix := c.names.notePrefix
  depths := c.depths
  columns := c.columns
  physicalColumns := c.frame.physicalColumns
  widths := c.widths
  rows := (ruleHeader c.placed.reverse).reverse
  caption := t.caption
  notes := t.notes
  attributes := t.attributes

/-- The session behind the stages. -/
def session (c : Compilation t s) : Session α :=
  registerNotes c.names.notePrefix t.notes
    (((enterTable t.attributes.label s).2.warn c.replaced).warn c.ignored)

end Compilation

theorem compile_eq_ok_iff {t : Table α} {s s' : Session α}
    {layout : Layout α} :
    compile t s = (.ok layout, s') ↔
      ∃ c : Compilation t s, layout = c.layout ∧ s' = c.session := by
  constructor
  · intro h
    simp only [compile] at h
    split at h
    · cases h
    · next count hv =>
        cases hr : (layoutColumns t.attributes count
          (t.totalWidth s.options) s.options.lenient).2 with
        | error e => rw [Table.totalWidth] at hr; rw [hr] at h; cases h
        | ok answer =>
            obtain ⟨columns, widths⟩ := answer
            rw [Table.totalWidth] at hr
            rw [hr] at h
            simp only [] at h
            split at h
            · cases h
            · next measured ignored hm =>
                split at h
                · cases h
                · next placed hp =>
                    cases h
                    exact ⟨⟨count, _, columns, widths, measured, ignored,
                      placed, hv, Prod.ext rfl hr, hm, hp⟩, rfl, rfl⟩
  · rintro ⟨⟨count, replaced, columns, widths, measured, ignored, placed,
      valid, resolved, measures, places⟩, rfl, rfl⟩
    have hr := resolved
    rw [Table.totalWidth] at hr
    have hp := places
    rw [Table.frame] at hp
    simp only [compile, valid, hr, measures, hp]
    rfl

/-- What the attempt to lay out a table does to the session: the table is
entered and warnings are added, and if nothing was refused the notes are
registered. -/
theorem compile_cases (t : Table α) (s : Session α) :
    (∃ e ws, compile t s =
      (.error e, (enterTable t.attributes.label s).2.warn ws)) ∨
    ∃ layout ws, compile t s = (.ok layout,
      registerNotes (enterTable t.attributes.label s).1.notePrefix t.notes
        ((enterTable t.attributes.label s).2.warn ws)) := by
  cases h : compile t s with
  | mk answer s' =>
      cases answer with
      | ok layout =>
          obtain ⟨c, rfl, rfl⟩ := compile_eq_ok_iff.mp h
          refine .inr ⟨c.layout, c.replaced ++ c.ignored, ?_⟩
          rw [Compilation.session, Session.warn_append]
          rfl
      | error e =>
          refine .inl ⟨e, ?_⟩
          simp only [compile] at h
          split at h
          · cases h
            exact ⟨[], by rw [Session.warn_nil]⟩
          · split at h
            · cases h
              exact ⟨_, rfl⟩
            · split at h
              · cases h
                exact ⟨_, rfl⟩
              · split at h
                · cases h
                  exact ⟨_, by rw [Session.warn_append]⟩
                · cases h

end Tabulation
