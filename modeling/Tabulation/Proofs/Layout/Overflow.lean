import Mathlib
import Tabulation.Proofs.Layout.Placement

/-!
# Where a layout overflows

The stages of a layout can refuse a table, and one of them can do worse: the
column behind a cell and the column behind its rule have to be words, and where
one of them is not there is no layout and no error either. Cells are placed
from left to right, so this takes a cell whose own directive reaches further
than columns can be counted from where the cell stands.
-/

namespace Tabulation

open Column

variable {α : Type}

/-- A cell of the table reaches, with its span or with the rule below it, a
column whose number is no word. -/
def Table.Overflows [Scalar α] (t : Table α) (lenient : Bool) : Prop :=
  ∃ row ∈ t.rows, ∃ i c, row.slots[i]? = some (.cell c) ∧
    ∃ (d : Directive α) (kept : List Inline) (ws : List Warning),
      Directive.extract c.content lenient = .ok (d, kept, ws) ∧
      (2 ^ 64 ≤ i + d.span c.span ∨
        ∃ width, d.underline = some (.columns width) ∧
          2 ^ 64 ≤ i + max width (d.span c.span))

variable [Scalar α]

section Place

variable {f : Frame α}

end Place

end Tabulation
