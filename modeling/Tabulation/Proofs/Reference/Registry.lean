import Tabulation.Reference.Label

/-!
# What a registry holds

A registry is only ever added to. A name that is registered leads to its newest
target, and names and targets that are there stay there, though a name may come
to lead elsewhere. Notes are registered under their own targets, so of many
notes at once each leads to itself, in whatever order they come.
-/

namespace Tabulation.Labels

theorem entries_addTarget (ls : Labels) (target : String) :
    (ls.addTarget target).entries = ls.entries := by
  rw [addTarget]
  split <;> rfl

theorem hasTarget_addTarget (ls : Labels) (target other : String) :
    (ls.addTarget target).hasTarget other ↔
      other = target ∨ ls.hasTarget other := by
  rw [addTarget, hasTarget, hasTarget]
  split
  · next h =>
      constructor
      · exact .inr
      · rintro (rfl | hother)
        · exact h
        · exact hother
  · rw [List.contains_iff_mem, List.contains_iff_mem, List.mem_append,
      List.mem_singleton, or_comm]

theorem entries_register (ls : Labels) (name target : String)
    (kind : LabelKind) : (ls.register name target kind).entries =
      ls.entries.insert name ⟨target, kind⟩ := by
  rw [register]
  simp only [entries_addTarget]

theorem hasTarget_register (ls : Labels) (name target other : String)
    (kind : LabelKind) : (ls.register name target kind).hasTarget other ↔
      other = target ∨ ls.hasTarget other :=
  hasTarget_addTarget ls target other

/-- The labels of notes, which lead to themselves. -/
def ofNotes (targets : List String) : Entries Label :=
  targets.map fun target => (target, ⟨target, .note⟩)

/-- A registry with notes registered one after the other. -/
def withNotes (ls : Labels) (targets : List String) : Labels :=
  targets.foldl (fun ls target => ls.register target target .note) ls

theorem entries_withNotes (ls : Labels) (targets : List String) :
    (ls.withNotes targets).entries =
      ls.entries.insertAll (ofNotes targets) := by
  induction targets generalizing ls with
  | nil => rfl
  | cons target targets ih =>
      have h := ih (ls.register target target .note)
      rw [entries_register] at h
      exact h

theorem hasTarget_withNotes (ls : Labels) (targets : List String)
    (other : String) : (ls.withNotes targets).hasTarget other ↔
      other ∈ targets ∨ ls.hasTarget other := by
  induction targets generalizing ls with
  | nil => simp [withNotes]
  | cons target targets ih =>
      have h := ih (ls.register target target .note)
      rw [hasTarget_register] at h
      rw [List.mem_cons, or_assoc, or_left_comm]
      exact h

/-- A note leads to itself, and every other name to where it led before. -/
theorem get?_withNotes (ls : Labels) (targets : List String) (name : String) :
    (ls.withNotes targets).entries.get? name =
      if name ∈ targets then some ⟨name, .note⟩ else ls.entries.get? name := by
  have hnotes : Entries.get? name (ofNotes targets.reverse) =
      if name ∈ targets.reverse then some ⟨name, .note⟩ else none :=
    Entries.get?_keyed (Label.mk · .note) targets.reverse name
  rw [entries_withNotes, Entries.get?_insertAll, ofNotes, ← List.map_reverse,
    ← ofNotes, hnotes]
  simp only [List.mem_reverse]
  split <;> rfl

end Tabulation.Labels
