import Tabulation.Column.Alignment
import Tabulation.Proofs.Grammar.Accepts
import Tabulation.Proofs.Source.Numbers

/-!
# What binding makes

Not every specifier can be written down: a column that is one level of another
one cannot, nor can one without its padding. The specifiers that binding makes
can, and this says what they are like. The number that an option was given as
is one that has its own text, since any other stays a text; a width is not
negative; a level of indentation takes less than the whole width; and no line
spacing is a bare number, because points are added to that.
-/

namespace Tabulation.Column

open Decimal

variable {α : Type}

/-! ## The parts of a specifier -/

mutual

/-- The specifiers in a value, at any depth. -/
def Value.within : Value α → List (Specifier α)
  | .column c => c.within
  | .columns cs => withinList cs
  | _ => []

def Kind.within : Kind α → List (Specifier α)
  | .numeric ⟨format, zero, _, alignment, plus, weight⟩ =>
      format.within ++ (zero.within ++ (alignment.within ++
        (plus.within ++ weight.within)))
  | _ => []

def Override.within : Override α → List (Specifier α)
  | .itself => []
  | .single c => c.within
  | .indexed cs => withinList cs

def Specifier.within : Specifier α → List (Specifier α)
  | ⟨kind, override, noSpaceAfter, spaceAfter, noLeft, noRight⟩ =>
      ⟨kind, override, noSpaceAfter, spaceAfter, noLeft, noRight⟩ ::
        (kind.within ++ override.within)

def withinList : List (Specifier α) → List (Specifier α)
  | [] => []
  | c :: cs => c.within ++ withinList cs

end

/-- The widths that a specifier has itself. -/
def Specifier.widths (c : Specifier α) : List (Width α) :=
  match c.kind with
  | .paragraph p => [p.width]
  | .numeric n => n.tableColumnWidth.toList
  | _ => []

/-- The numbers that a specifier has itself. -/
def Specifier.numbers (c : Specifier α) : List α :=
  c.widths.map Width.value ++
    match c.kind with
    | .paragraph p => [p.indentFraction]
    | _ => []

/-- A finite width of which the unit, if there is one, is a word. -/
def Width.Plain : Width Float → Prop
  | .fraction v => v.isFinite = true
  | .length v unit =>
      v.isFinite = true ∧ unit.toList.all Char.isAlpha = true

instance : DecidablePred Width.Plain := fun w =>
  match w with
  | .fraction v => inferInstanceAs (Decidable (v.isFinite = true))
  | .length v unit => inferInstanceAs (Decidable
      (v.isFinite = true ∧ unit.toList.all Char.isAlpha = true))

/-- A specifier of plain widths, of which the numbers are read back. -/
structure Specifier.Plain (c : Specifier Float) : Prop where
  widths : ∀ w ∈ c.widths, w.Plain
  numbers : ∀ x ∈ c.numbers, x.isFinite = true →
    float? (shortestText x) = some x

/-- The values of the options that are kept as they are given. -/
def Kind.values : Kind α → List (Value α)
  | .numeric n =>
      [n.tableFormat, n.addIntegerZero, n.tableNumberAlignment,
        n.retainExplicitPlus, n.detectInlineWeight]
  | _ => []

/-- The value of the option that sets an override. -/
def Override.value : Override α → Value α
  | .itself => .nothing
  | .single c => .column c
  | .indexed cs => .columns cs

theorem Override.value_within (o : Override α) : o.value.within = o.within := by
  cases o with
  | itself => rw [value, Value.within, within]; all_goals intro _ h; cases h
  | single c => rw [value, Value.within, within]
  | indexed cs => rw [value, Value.within, within]

theorem Kind.within_of_mem {k : Kind α} {v : Value α} (h : v ∈ k.values) :
    ∀ c ∈ v.within, c ∈ k.within := by
  intro c hc
  cases k with
  | numeric n =>
      obtain ⟨format, zero, width, alignment, plus, weight⟩ := n
      rw [within]
      simp only [values, List.mem_cons, List.not_mem_nil, or_false] at h
      rcases h with rfl | rfl | rfl | rfl | rfl <;> simp [hc]
  | _ => cases h

theorem Specifier.within_eq (c : Specifier α) :
    c.within = c :: (c.kind.within ++ c.override.within) := by
  obtain ⟨kind, override, noSpaceAfter, spaceAfter, noLeft, noRight⟩ := c
  rw [within]

/-! ## What can be written -/

def Width.Proper (w : Width Float) : Prop :=
  ¬w.value < 0.0 ∧ ∀ v unit, w = .length v unit → unit ≠ ""

def TextSetting.Proper (t : TextSetting) : Prop :=
  ∀ skip, t.baselineskip = some skip → float? skip = none

structure Paragraph.Proper (p : Paragraph Float) : Prop where
  width : p.width.Proper
  nonneg : 0.0 ≤ p.indentFraction
  fraction : p.indentFraction < 1.0
  text : p.text.Proper
  whole : p.indentWidths = []
  alone : p.renderAs = none

def Kind.Proper : Kind Float → Prop
  | .simple _ => True
  | .paragraph p => p.Proper
  | .numeric n => ∀ w, n.tableColumnWidth = some w → w.Proper
  | .autoWidth t => t.Proper

/-- What can be written: a value, a specifier or several of these. -/
inductive Node where
  | value (v : Value Float)
  | specifier (c : Specifier Float)
  | specifiers (cs : List (Specifier Float))

inductive Writable : Node → Prop where
  | nothing : Writable (.value .nothing)
  | bool {b : Bool} : Writable (.value (.bool b))
  | int {n : Int} :
      IsNumeral (toString n).toList →
      (∀ start, numberLiteral (toString n) start =
        .ok (.int n : Literal Float)) →
      Writable (.value (.int n))
  | number {x : Float} :
      IsNumeral (Scalar.pointedText x).toList →
      (∀ start, numberLiteral (Scalar.pointedText x) start =
        .ok (.number x : Literal Float)) →
      Writable (.value (.number x))
  | text {s : String} : Writable (.value (.text s))
  | column {c : Specifier Float} :
      Writable (.specifier c) → Writable (.value (.column c))
  | columns {cs : List (Specifier Float)} :
      cs ≠ [] → Writable (.specifiers cs) → Writable (.value (.columns cs))
  | specifier {c : Specifier Float} :
      (∀ v ∈ c.kind.values, Writable (.value v)) → c.kind.Proper →
      Writable (.value c.override.value) → c.noLeftPadding = false →
      c.noRightPadding = false → Writable (.specifier c)
  | nil : Writable (.specifiers [])
  | cons {c : Specifier Float} {cs : List (Specifier Float)} :
      Writable (.specifier c) → Writable (.specifiers cs) →
      Writable (.specifiers (c :: cs))

end Tabulation.Column
