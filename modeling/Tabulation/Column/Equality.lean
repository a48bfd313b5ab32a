import Tabulation.Column.Specifier

/-!
# Equality of specifiers

Two specifiers are equal if they are equal part by part, where numbers are compared as numbers are:
the two zeros are one, and what is no number differs from itself. Whether a specifier is read back
from its source text is a question about this equality.
-/

namespace Tabulation.Column

variable {α : Type} [Scalar α]

def Width.same : Width α → Width α → Bool
  | .fraction v, .fraction w => v == w
  | .length v u, .length w t => v == w && u = t
  | _, _ => false

instance : BEq (Width α) := ⟨Width.same⟩

def Paragraph.same (p q : Paragraph α) : Bool :=
  p.anchor = q.anchor && p.width == q.width && p.indentFraction == q.indentFraction &&
    p.text = q.text && p.indentWidths == q.indentWidths && p.renderAs = q.renderAs

instance : BEq (Paragraph α) := ⟨Paragraph.same⟩

mutual

def Value.same : Value α → Value α → Bool
  | .nothing, .nothing => true
  | .bool a, .bool b => a = b
  | .int m, .int n => m = n
  | .number x, .number y => x == y
  | .text s, .text t => s = t
  | .column c, .column d => c.same d
  | .columns cs, .columns ds => sameList cs ds
  | _, _ => false

def Numeric.same : Numeric α → Numeric α → Bool
  | ⟨format, zero, width, alignment, plus, weight⟩,
    ⟨format', zero', width', alignment', plus', weight'⟩ =>
      format.same format' && zero.same zero' && width == width' && alignment.same alignment' &&
        plus.same plus' && weight.same weight'

def Kind.same : Kind α → Kind α → Bool
  | .simple a, .simple b => a = b
  | .paragraph p, .paragraph q => p == q
  | .numeric m, .numeric n => m.same n
  | .autoWidth t, .autoWidth u => t = u
  | _, _ => false

def Override.same : Override α → Override α → Bool
  | .itself, .itself => true
  | .single c, .single d => c.same d
  | .indexed cs, .indexed ds => sameList cs ds
  | _, _ => false

def Specifier.same : Specifier α → Specifier α → Bool
  | ⟨kind, override, noAfter, after, noLeft, noRight⟩,
    ⟨kind', override', noAfter', after', noLeft', noRight'⟩ =>
      kind.same kind' && override.same override' && noAfter = noAfter' && after = after' &&
        noLeft = noLeft' && noRight = noRight'

def sameList : List (Specifier α) → List (Specifier α) → Bool
  | [], [] => true
  | c :: cs, d :: ds => c.same d && sameList cs ds
  | _, _ => false

end

instance : BEq (Value α) := ⟨Value.same⟩

instance : BEq (Specifier α) := ⟨Specifier.same⟩

end Tabulation.Column
