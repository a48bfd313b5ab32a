import Tabulation.Table.Layout

/-!
# Nothing reads the styles

The styles of a session are collected for the head of an OpenDocument file and
read by nobody before the document ends. So a table compiles to the same in a
session with other styles, and leaves the styles that it found.
-/

namespace Tabulation

variable {α : Type}

namespace Session

/-- The session with other styles in the place of those collected. -/
def withStyles (s : Session α) (styles : List String) : Session α :=
  { s with styles }

theorem withStyles_styles (s : Session α) : s.withStyles s.styles = s := rfl

end Session

theorem registerNotes_withStyles (notePrefix : String) (notes : List Note)
    (s : Session α) (styles : List String) :
    registerNotes notePrefix notes (s.withStyles styles) =
      (registerNotes notePrefix notes s).withStyles styles := by
  induction notes generalizing s with
  | nil => rfl
  | cons note notes ih =>
      exact ih (s.registerNote notePrefix
        (noteTarget s.options.noteSymbols note.label)).2

variable [Scalar α]

theorem compile_withStyles (t : Table α) (s : Session α)
    (styles : List String) :
    compile t (s.withStyles styles) =
      ((compile t s).1, (compile t s).2.withStyles styles) := by
  obtain ⟨o, counters, labels, found, warnings⟩ := s
  simp only [compile, Session.withStyles]
  cases t.validate with
  | error e => rfl
  | ok count =>
      simp only []
      generalize layoutColumns t.attributes count _ o.lenient = resolved
      obtain ⟨replaced, resolved⟩ := resolved
      cases resolved with
      | error e => rfl
      | ok answer =>
          simp only []
          cases measureRows (α := α) o.lenient t.rows with
          | error e => rfl
          | ok measured =>
              simp only []
              generalize placeRows (α := α) _ 0 _ = placed
              cases placed with
              | error e => rfl
              | ok rows =>
                  let entered := (enterTable t.attributes.label
                    ⟨o, counters, labels, found, warnings⟩).2
                  exact Prod.ext rfl (registerNotes_withStyles _ t.notes
                    ((entered.warn replaced).warn measured.2) styles)

theorem compile_styles (t : Table α) (s : Session α) :
    (compile t s).2.styles = s.styles := by
  have h := compile_withStyles t s s.styles
  rw [s.withStyles_styles] at h
  rw [h]
  rfl

end Tabulation
