import Tabulation.Proofs.Layout.Stages
import Tabulation.Proofs.Reference.Registry

/-!
# What the attempt to lay out a table leaves behind

A table may be refused at every stage of its layout, before anything was said
about it or after, and the next tables go on from whatever session is left. That
session is the same for all refusals, warnings apart: the table has its number
and its name, and nothing else is known of it. Only a table that is laid out
registers its notes, and since the link of a note is longer than the name it
begins with, no note takes the name of its own table.
-/

namespace Tabulation

variable {α : Type}

/-- The name of a table, which is its number if its label is blank. -/
def Table.nameFor (t : Table α) (number : String) : String :=
  (t.attributes.label.filter fun l => !(Text.trim l).isEmpty).getD number

/-- The link targets of the notes of a table with a name. -/
def Table.noteLinks (t : Table α) (symbols : NoteSymbols) (name : String) :
    List String :=
  t.notes.map fun note => "tn:" ++ name ++ ":" ++ noteTarget symbols note.label

/-- A session after a table of some name that leaves some notes was counted:
the table leads to its target, each note to its own and every other name to
where it led before, and the only targets that are new are those of the table,
of its notes as a whole and of each of them. -/
structure Session.Enters (s : Session α) (name : String) (notes : List String)
    (s' : Session α) : Prop where
  options : s'.options = s.options
  styles : s'.styles = s.styles
  warnings : s.warnings <+: s'.warnings
  counters : s'.counters = s.nextTableNumber.2.counters
  registered : s'.labels.entries =
    (s.labels.entries.insert name ⟨"tab:" ++ name, .table⟩).insertAll
      (Labels.ofNotes notes)
  table : s'.labels.entries.get? name = some ⟨"tab:" ++ name, .table⟩
  note : ∀ note ∈ notes, s'.labels.entries.get? note = some ⟨note, .note⟩
  others : ∀ other ≠ name, other ∉ notes →
    s'.labels.entries.get? other = s.labels.entries.get? other
  kept : ∀ other, s.labels.hasLabel other → s'.labels.hasLabel other
  targets : ∀ target, s'.labels.hasTarget target ↔
    target ∈ notes ∨ target = "tn:" ++ name ∨ target = "tab:" ++ name ∨
      s.labels.hasTarget target

/-! ## Entering a table -/

theorem enterTable_name (t : Table α) (s : Session α) :
    (enterTable t.attributes.label s).1.name =
      t.nameFor s.nextTableNumber.1 := by
  rw [Table.nameFor]
  cases h : t.attributes.label with
  | none => rfl
  | some l =>
      by_cases hblank : (Text.trim l).isEmpty <;>
        simp [enterTable, Option.filter, hblank]

theorem enterTable_labels (t : Table α) (s : Session α) :
    (enterTable t.attributes.label s).2.labels =
      (s.labels.register (t.nameFor s.nextTableNumber.1)
        ("tab:" ++ t.nameFor s.nextTableNumber.1) .table).addTarget
          ("tn:" ++ t.nameFor s.nextTableNumber.1) := by
  rw [← enterTable_name]
  rfl

theorem enterTable_notePrefix (t : Table α) (s : Session α) :
    (enterTable t.attributes.label s).1.notePrefix =
      "tn:" ++ t.nameFor s.nextTableNumber.1 := by
  rw [← enterTable_name]
  rfl

/-- Notes touch nothing but the registry. -/
theorem registerNotes_eq (notePrefix : String) (notes : List Note)
    (s : Session α) :
    registerNotes notePrefix notes s =
      { s with labels := s.labels.withNotes (notes.map fun note =>
          notePrefix ++ ":" ++ noteTarget s.options.noteSymbols note.label) } := by
  induction notes generalizing s with
  | nil => rfl
  | cons note notes ih =>
      exact ih (s.registerNote notePrefix
        (noteTarget s.options.noteSymbols note.label)).2

/-- The link of a note is longer than the name of the table in it. -/
theorem ne_noteLink (name rest : String) :
    name ≠ "tn:" ++ name ++ ":" ++ rest := by
  intro h
  have hlength := congrArg String.length h
  simp only [String.length_append] at hlength
  have hprefix : "tn:".length = 3 := rfl
  omega

theorem Table.name_not_mem_noteLinks (t : Table α) (symbols : NoteSymbols)
    (name : String) : name ∉ t.noteLinks symbols name := by
  intro h
  obtain ⟨note, _, heq⟩ := List.mem_map.mp h
  exact ne_noteLink name _ heq.symm

/-- Whatever warnings a table leaves and whichever notes, these are all that it
adds to the session in which it was entered. -/
theorem Session.Enters.of_labels {t : Table α} {s : Session α}
    {name : String} (hname : name = t.nameFor s.nextTableNumber.1)
    {notes : List String} (hnotes : name ∉ notes) (ws : List Warning) :
    s.Enters name notes
      { (enterTable t.attributes.label s).2.warn ws with
        labels :=
          (enterTable t.attributes.label s).2.labels.withNotes notes } := by
  have hentries : (enterTable t.attributes.label s).2.labels.entries =
      s.labels.entries.insert name ⟨"tab:" ++ name, .table⟩ := by
    rw [enterTable_labels, Labels.entries_addTarget, Labels.entries_register,
      hname]
  have hlookup :=
    (enterTable t.attributes.label s).2.labels.get?_withNotes notes
  rw [hentries] at hlookup
  have hother : ∀ other ≠ name, other ∉ notes →
      (((enterTable t.attributes.label s).2.labels.withNotes
        notes).entries.get? other) = s.labels.entries.get? other := by
    intro other hne hfree
    rw [hlookup, if_neg hfree, Entries.get?_insert_of_ne hne]
  refine ⟨rfl, rfl, List.prefix_append _ _, rfl, ?_, ?_, ?_, hother, ?_, ?_⟩
  · rw [Labels.entries_withNotes, hentries]
  · rw [hlookup, if_neg hnotes, Entries.get?_insert_self]
  · intro note hnote
    rw [hlookup, if_pos hnote]
  · intro other hheld
    rw [Labels.hasLabel] at hheld ⊢
    by_cases hnote : other ∈ notes
    · rw [hlookup, if_pos hnote]
      rfl
    · by_cases heq : other = name
      · rw [hlookup, if_neg hnote, heq, Entries.get?_insert_self]
        rfl
      · rw [hother other heq hnote]
        exact hheld
  · intro target
    rw [Labels.hasTarget_withNotes, enterTable_labels,
      Labels.hasTarget_addTarget, Labels.hasTarget_register, hname]

variable [Scalar α]

/-- However the layout of a table ends, the table is counted and registered
under its name, and everything else is as it was, with warnings added. The
notes of the table are registered in their order if it was laid out, and not at
all if it was refused. -/
theorem compile_enters (t : Table α) (s : Session α) :
    let name := t.nameFor s.nextTableNumber.1
    s.Enters name
      (match (compile t s).1 with
        | .error _ => []
        | .ok _ => t.noteLinks s.options.noteSymbols name)
      (compile t s).2 := by
  intro name
  rcases compile_cases t s with ⟨e, ws, h⟩ | ⟨layout, ws, h⟩
  · rw [h]
    exact .of_labels rfl List.not_mem_nil ws
  · rw [h, registerNotes_eq, enterTable_notePrefix]
    exact .of_labels rfl (t.name_not_mem_noteLinks _ name) ws

end Tabulation
