import Tabulation.Column.Specifier

/-!
# Indentation levels and groups of columns

A column in which cells are indented is split into one column for each level and one for the
content. Each level of a paragraph takes its share of the width that the levels before it left,
and the content takes the rest, so nothing of the width is lost; other columns are repeated. A
cell that begins at a level and covers the columns behind it is set as a group, whose width is
what the levels from there on make up.
-/

namespace Tabulation.Column

variable {α : Type} [Scalar α]

/-- The widths of the given number of levels out of what remains of a width, and last the width
that they leave. -/
def levelWidths (fraction : α) : (levels : Nat) → (remaining : α) → List α
  | 0, remaining => [remaining]
  | levels + 1, remaining =>
      let step := remaining * fraction
      step :: levelWidths fraction levels (remaining - step)

/-- The levels of a split paragraph from the given one on, set as one column of their joint
width. -/
def Paragraph.merge (p : Paragraph α) (level : Nat) : Paragraph α :=
  if p.indentWidths.isEmpty then p
  else
    { p with
      width := p.width.withValue (Scalar.sum (p.indentWidths.drop level))
      indentWidths := []
      renderAs := some .top }

namespace Specifier

/-- The column of one level; only the content keeps the padding to its right. -/
def level (c : Specifier α) (p : Paragraph α) (widths : List α) (isContent : Bool) (width : α) :
    Specifier α :=
  let kind := .paragraph { p with width := p.width.withValue width, indentWidths := widths }
  { c with kind, noRightPadding := c.noRightPadding || !isContent }

/-- One specifier for each level of indentation, and the one of the content last. -/
def indent (c : Specifier α) (levels : Nat) : List (Specifier α) :=
  if levels = 0 then [c]
  else
    match c.kind with
    | .paragraph p =>
        let widths := levelWidths p.indentFraction levels p.width.value
        (widths.take levels).map (c.level p widths false) ++
          (widths.drop levels).map (c.level p widths true)
    | _ => List.replicate (levels + 1) c

/-- The specifier of a group that begins in this column at a level of indentation. -/
def group (c : Specifier α) (level : Nat) : Except Error (Specifier α) :=
  match c.override with
  | .single d => .ok d
  | .indexed ds =>
      match ds[level]? with
      | some d => .ok d
      | none => .error (.missingOverride level ds.length)
  | .itself =>
      let kind := match c.kind with
        | .paragraph p => .paragraph (p.merge level)
        | kind => kind
      .ok { c with kind, noLeftPadding := false, noRightPadding := false }

/-- A paragraph column wider by the given amount, in its own unit. -/
def widened (c : Specifier α) (extra : α) : Specifier α :=
  match c.kind with
  | .paragraph p =>
      { c with kind := .paragraph { p with width := p.width.withValue (p.width.value + extra) } }
  | _ => c

end Specifier

end Tabulation.Column
