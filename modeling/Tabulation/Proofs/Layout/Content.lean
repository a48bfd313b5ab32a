import Mathlib
import Tabulation.Proofs.Content.Pieces
import Tabulation.Proofs.Content.Spaces
import Tabulation.Proofs.Layout.Extent

/-!
# What is set in a cell was written there

Taking the directives out of a cell puts nothing in: the content that is set is
what the table has in one of its cells, with pieces left out. So what holds of
all pieces of a table holds of all that are set. This is used for the pieces
that are written as they are, which a table may have none of.
-/

namespace Tabulation

namespace Inline

mutual

/-- Whether a piece has no raw text of some formats in it. -/
def free (formats : List String) : Inline → Bool
  | .word _ => true
  | .space => true
  | .strong inner => allFree formats inner
  | .raw format _ => !formats.contains format
  | .note _ => true

def allFree (formats : List String) : List Inline → Bool
  | [] => true
  | x :: xs => x.free formats && allFree formats xs

end

theorem allFree_iff {formats : List String} {xs : List Inline} :
    allFree formats xs = true ↔ ∀ x ∈ xs, x.free formats = true := by
  induction xs with
  | nil => simp [allFree]
  | cons x xs ih => rw [allFree, Bool.and_eq_true, ih, List.forall_mem_cons]

end Inline

/-- What is written in a slot. -/
def Slot.content : Slot → List Inline
  | .cell c => c.content
  | .covered => []

section Content

variable {α : Type} [Scalar α]

theorem Directive.extractFrom_sublist {lenient leading : Bool}
    {d d' : Directive α} {content kept : List Inline} {ws : List Warning}
    (h : extractFrom lenient leading d content = .ok (d', kept, ws)) :
    kept.Sublist content := by
  induction content generalizing leading d d' kept ws with
  | nil =>
      rw [extractFrom] at h
      cases h
      exact .slnil
  | cons x rest ih =>
      cases reads α leading x with
      | passed hx | indents hx | marks underline extra hx =>
          rw [hx] at h
          exact (ih h).cons x
      | kept hx =>
          rw [hx] at h
          obtain ⟨⟨e, more, w⟩, hmore, h⟩ := Except.bind_eq_ok.mp h
          cases h
          exact (ih hmore).cons_cons x
      | options text hx =>
          subst hx
          obtain ⟨_, hrest⟩ := extractFrom_pastOptions h
          exact (ih hrest).cons _

theorem Directive.extract_sublist {lenient : Bool} {d : Directive α}
    {content kept : List Inline} {ws : List Warning}
    (h : extract content lenient = .ok (d, kept, ws)) :
    kept.Sublist content := by
  rw [extract] at h
  obtain ⟨⟨d', kept', ws'⟩, hfrom, h⟩ := Except.bind_eq_ok.mp h
  cases h
  exact (Inline.normalize_sublist kept').trans (extractFrom_sublist hfrom)

theorem Compilation.cell_content {t : Table α} {s : Session α}
    (c : Compilation t s) {row : PlacedRow α} (hrow : row ∈ c.layout.rows)
    {cell : PlacedCell α} (hcell : cell ∈ row.cells) :
    ∃ source ∈ t.rows, ∃ slot ∈ source.slots,
      cell.content.Sublist slot.content := by
  obtain ⟨source, hsource, m, ws, hslot, hextract, heq, _⟩ :=
    c.cell_source hrow hcell
  refine ⟨source, hsource, _, hslot, ?_⟩
  rw [heq]
  exact Directive.extract_sublist hextract

end Content

/-- A table without raw text of some formats. -/
structure Table.Free {α : Type} (t : Table α) (formats : List String) :
    Prop where
  cells : ∀ row ∈ t.rows, ∀ slot ∈ row.slots,
    Inline.allFree formats slot.content = true
  caption : Inline.allFree formats t.caption = true
  notes : ∀ note ∈ t.notes, Inline.allFree formats note.definition = true

theorem Compilation.free_cells {α : Type} [Scalar α] {t : Table α}
    {s : Session α} (c : Compilation t s) {formats : List String}
    (h : t.Free formats) : ∀ row ∈ c.layout.rows, ∀ cell ∈ row.cells,
      Inline.allFree formats cell.content = true := by
  intro row hrow cell hcell
  obtain ⟨source, hsource, slot, hslot, hsub⟩ := c.cell_content hrow hcell
  have hfree := Inline.allFree_iff.mp (h.cells source hsource slot hslot)
  exact Inline.allFree_iff.mpr fun x hx => hfree x (hsub.subset hx)

end Tabulation
