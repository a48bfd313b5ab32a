import Tabulation.Proofs.Content.Pieces
import Tabulation.Proofs.Leniency.Lockstep
import Tabulation.Proofs.Outcome
import Tabulation.Table.Layout

/-!
# Columns and cells in lockstep

The places where a lenient render goes on are an alignment that is no list of
definitions, a definition that no column can be made of, an alignment of
another length than the table, and an option list in a cell. Each of them
leaves a warning in the same step, so resolving the columns and measuring the
cells run in lockstep.
-/

namespace Tabulation

variable {α : Type} [Scalar α]

namespace Column

theorem readAlignment_lockstep (alignment : String) :
    Lockstep Prod.snd
      (readAlignment (α := α) alignment false)
      (readAlignment alignment true) := by
  rw [readAlignment, readAlignment]
  split
  · exact .same rfl
  · next e _ =>
      refine .refused fun b hb => ?_
      split at hb
      · cases hb; exact List.cons_ne_nil _ _
      · cases hb

theorem recoverEach_lockstep (ds : List (Definition α)) :
    Lockstep Prod.snd (recoverEach false ds) (recoverEach true ds) := by
  induction ds with
  | nil => exact .same rfl
  | cons d ds ih =>
      rw [recoverEach, recoverEach]
      split
      · refine ih.bind (fun b silent => .same silent) fun b c loud hc => ?_
        cases hc
        exact loud
      · refine .refused fun b hb => ?_
        split at hb
        · obtain ⟨_, _, hb⟩ := Except.bind_eq_ok.mp hb
          cases hb
          exact List.cons_ne_nil _ _
        · cases hb

omit [Scalar α] in
/-- What fits columns to a table keeps the complaints about them. -/
theorem tableColumns_kept {columns : List (Specifier α)} {count : Nat}
    {unread replaced : List Warning} {misfit : Warning}
    {c : List (Specifier α) × List Warning} (loud : unread ++ replaced ≠ [])
    (h : (if columns.isEmpty || columns.length = count then
        pure (fitTo count columns, unread ++ replaced)
      else if true then
        pure (fitTo count columns, unread ++ replaced ++ [misfit])
      else throw (.definition (.alignmentCount columns.length count) none) :
        Except Error _) = .ok c) : c.2 ≠ [] := by
  split at h
  · cases h; exact loud
  · cases h; exact List.append_ne_nil_of_left_ne_nil loud _

theorem tableColumns_lockstep (alignment : String) (count : Nat) :
    Lockstep Prod.snd
      (tableColumns (α := α) alignment count false)
      (tableColumns alignment count true) := by
  rw [tableColumns, tableColumns]
  split
  · exact .same rfl
  · refine (readAlignment_lockstep alignment).bind ?_ ?_
    · intro h' hunread
      obtain ⟨ds, unread⟩ := h'
      refine (recoverEach_lockstep ds).bind ?_ ?_
      · intro h' hreplaced
        obtain ⟨columns, replaced⟩ := h'
        simp only [] at hunread hreplaced
        rw [hunread, hreplaced]
        simp only []
        split
        · exact .same rfl
        · refine .refused fun b hb => ?_
          cases hb
          exact List.cons_ne_nil _ _
      · intro h' c loud hc
        obtain ⟨columns, replaced⟩ := h'
        exact tableColumns_kept
          (List.append_ne_nil_of_right_ne_nil _ loud) hc
    · intro h' c loud hc
      obtain ⟨ds, unread⟩ := h'
      obtain ⟨⟨columns, replaced⟩, _, hc⟩ := Except.bind_eq_ok.mp hc
      exact tableColumns_kept (List.append_ne_nil_of_left_ne_nil loud _) hc

end Column

open Column

/-- What is answered with columns that something is made of. -/
def columnsAnswer
    (make : List (Specifier α) → Except Error (List (Specifier α) × List α)) :
    Except Error (List (Specifier α) × List Warning) →
      List Warning × Except Error (List (Specifier α) × List α)
  | .error e => ([], .error e)
  | .ok (columns, warnings) => (warnings, make columns)

omit [Scalar α] in
theorem columnsAnswer_lockstep {strict lenient : Except Error
      (List (Specifier α) × List Warning)}
    (h : Lockstep Prod.snd strict lenient)
    (make : List (Specifier α) →
      Except Error (List (Specifier α) × List α)) :
    Lockstep Prod.snd
      ((columnsAnswer make strict).2.map
        (·, (columnsAnswer make strict).1))
      ((columnsAnswer make lenient).2.map
        (·, (columnsAnswer make lenient).1)) := by
  cases h with
  | @same b silent =>
      rw [columnsAnswer, silent]
      refine .of_silent fun b hb => ?_
      obtain ⟨_, _, rfl⟩ := Except.map_eq_ok.mp hb
      rfl
  | @refused e lenient loud =>
      refine .refused fun b hb => ?_
      obtain ⟨_, hx, rfl⟩ := Except.map_eq_ok.mp hb
      cases lenient with
      | error e' => cases hx
      | ok c => exact loud c rfl

theorem layoutColumns_lockstep (attributes : Attributes α) (count : Nat)
    (total : α) :
    Lockstep Prod.snd
      ((layoutColumns attributes count total false).2.map
        (·, (layoutColumns attributes count total false).1))
      ((layoutColumns attributes count total true).2.map
        (·, (layoutColumns attributes count total true).1)) := by
  have hcolumns := tableColumns_lockstep (α := α) attributes.alignment count
  rw [layoutColumns, layoutColumns]
  generalize tableColumns (α := α) attributes.alignment count false = strict
    at hcolumns ⊢
  generalize tableColumns (α := α) attributes.alignment count true = lenient
    at hcolumns ⊢
  split
  · exact columnsAnswer_lockstep hcolumns _
  · split
    · exact .error _ _
    · split
      · exact .error _ _
      · split
        · refine .of_silent fun b hb => ?_
          obtain ⟨_, _, rfl⟩ := Except.map_eq_ok.mp hb
          rfl
        · exact columnsAnswer_lockstep hcolumns _

namespace Directive

theorem extractFrom_lockstep (content : List Inline) (leading : Bool)
    (d : Directive α) :
    Lockstep (fun p => p.2.2) (extractFrom false leading d content)
      (extractFrom true leading d content) := by
  induction content generalizing leading d with
  | nil => exact .same rfl
  | cons x rest ih =>
      cases reads α leading x with
      | passed hx | indents hx =>
          rw [hx, hx]
          exact ih leading _
      | marks underline extra hx =>
          rw [hx, hx]
          exact ih false _
      | kept hx =>
          rw [hx, hx]
          exact (ih false d).map fun _ => rfl
      | options text hx =>
          subst hx
          cases herror : (d.withOptions text).2 with
          | none =>
              rw [extractFrom_options herror, extractFrom_options herror]
              exact ih leading _
          | some e =>
              rw [extractFrom_stops herror (Bool.false_and _)]
              refine .refused fun b hb => ?_
              cases hdrops : (true && e.isRecoverable) with
              | true =>
                  rw [extractFrom_drops herror hdrops] at hb
                  obtain ⟨_, _, hb⟩ := Except.bind_eq_ok.mp hb
                  cases hb
                  exact List.cons_ne_nil _ _
              | false =>
                  rw [extractFrom_stops herror hdrops] at hb
                  cases hb

theorem extract_lockstep (content : List Inline) :
    Lockstep (fun p => p.2.2) (extract (α := α) content false)
      (extract content true) := by
  refine (extractFrom_lockstep content true {}).bind
    (fun b silent => .same silent) ?_
  intro b c loud heq
  cases heq
  exact loud

end Directive

theorem measureSlot_lockstep (slot : Slot) :
    Lockstep Prod.snd (measureSlot (α := α) false slot)
      (measureSlot true slot) := by
  cases slot with
  | covered => exact .same rfl
  | cell cell =>
      refine (Directive.extract_lockstep cell.content).bind
        (fun b silent => .same silent) ?_
      intro b c loud heq
      cases heq
      exact loud

theorem measureSlots_lockstep (slots : List Slot) :
    Lockstep Prod.snd (measureSlots (α := α) false slots)
      (measureSlots true slots) := by
  induction slots with
  | nil => exact .same rfl
  | cons slot rest ih =>
      exact (measureSlot_lockstep slot).both ih _

theorem measureRows_lockstep (rows : List Row) :
    Lockstep Prod.snd (measureRows (α := α) false rows)
      (measureRows true rows) := by
  induction rows with
  | nil => exact .same rfl
  | cons row rest ih =>
      exact (measureSlots_lockstep row.slots).both ih _

end Tabulation
