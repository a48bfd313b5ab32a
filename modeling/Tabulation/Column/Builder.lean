import Tabulation.Column.Definition
import Tabulation.Column.Source
import Tabulation.Entries

/-!
# From definitions to specifiers

A kind of column takes the options it knows by name; the one option that some kinds require may
also be the one positional argument. Nothing that is given may be left over. Arguments are bound
before anything is made of them, nested definitions included, so the first fault of a definition
is the first one in this order: its arguments from left to right, then its own options.
-/

namespace Tabulation.Column

variable {α : Type} [Scalar α]

namespace Value

def bool? : Value α → Option Bool
  | .bool b => some b
  | _ => none

/-- A count: a whole number, or a text that spells one. -/
def nat? : Value α → Option Nat
  | .int n => if 0 ≤ n then some n.toNat else none
  | .text s => Decimal.nat64? (String.ofList (s.toList.dropWhile (· = '+')))
  | _ => none

def number? : Value α → Option α
  | .int n => some (Scalar.ofInt n)
  | .number x => some x
  | .text s => Scalar.read? (Text.trim s)
  | _ => none

def text? : Value α → Option String
  | .text s => some s
  | _ => none

def column? : Value α → Option (Specifier α)
  | .column c => some c
  | _ => none

end Value

namespace Width

/-- A number is a fraction, a text may have a unit. -/
def read : Value α → Except Error (Width α)
  | .number x => .ok (.fraction x)
  | .int n => .ok (.fraction (Scalar.ofInt n))
  | .text s => parse s
  | other => .error (.width other.source .notALength)

/-- The width that an option gives. -/
def ofValue (value : Value α) : Except Error (Width α) := do
  let width ← read value
  if width.value < 0.0 then .error (.width width.source .negative) else .ok width

end Width

/-- The arguments of a column, bound to values. -/
structure Bound (α : Type) where
  identifier : Char
  offset : Option Nat
  positional : List (Value α)
  named : Entries (Value α)

namespace Bound

/-- A complaint about the column as a whole. -/
def fault (b : Bound α) (cause : ColumnFault) : Error :=
  .definition (.column b.identifier cause) b.offset

/-- A named argument, or else the first positional one. -/
def required (b : Bound α) (name : String) : Except Error (Value α) :=
  match b.named.get? name with
  | some value => .ok value
  | none =>
      match b.positional with
      | value :: _ => .ok value
      | [] => .error (.missingOption b.identifier.toString name)

/-- The positional arguments that are left once the required options took theirs. -/
def unclaimed (b : Bound α) (required : List String) : List (Value α) :=
  b.positional.drop (required.countP fun name => (b.named.get? name).isNone)

/-- Refuses whatever no option took. -/
def finish (b : Bound α) (required options : List String) : Except Error Unit := do
  if let value :: _ := b.unclaimed required then
    throw (b.fault (.extraPositional value.source))
  if let some key := b.named.keys.find? fun key => !options.contains key then
    throw (b.fault (.extraOption key))

/-- A truth value, which is false unless an option sets it. -/
def flag (b : Bound α) (name : String) (complaint : ColumnFault) : Except Error Bool :=
  match b.named.get? name with
  | none => .ok false
  | some value =>
      match value.bool? with
      | some flag => .ok flag
      | none => .error (b.fault complaint)

/-- The line spacing. A number without a unit is in points. -/
def baselineskip (b : Bound α) : Except Error (Option String) :=
  match b.named.get? "baselineskip" with
  | none => .ok ({} : TextSetting).baselineskip
  | some .nothing => .ok none
  | some (.bool false) => .ok none
  | some (.text s) => .ok (some (if (Scalar.read? s : Option α).isSome then s ++ "pt" else s))
  | some (.int n) => .ok (some (toString n ++ "pt"))
  | some (.number x) => .ok (some (Scalar.text x ++ "pt"))
  | some other => .error (b.fault (.baselineskip other.source))

/-- The part of the width that a level of indentation takes. -/
def indentFraction (b : Bound α) : Except Error α :=
  match b.named.get? "indent_fraction" with
  | none => .ok defaultIndentFraction
  | some value =>
      match value.number? with
      | some x => .ok x
      | none => .error (b.fault .indentFraction)

/-- The width of a column of numbers. -/
def tableColumnWidth (b : Bound α) : Except Error (Option (Width α)) :=
  match b.named.get? "table_column_width" with
  | none => .ok none
  | some .nothing => .ok none
  | some value => (Width.ofValue value).map some

/-- What is put behind the column in place of the usual space. -/
def spaceAfter (b : Bound α) : Except Error (Option String) :=
  match b.named.get? "space_after" with
  | none => .ok none
  | some .nothing => .ok none
  | some (.text s) => .ok (some s)
  | some other => .error (b.fault (.spaceAfter other.source))

end Bound

def TextSetting.ofBound (b : Bound α) : Except Error TextSetting := do
  let baselineskip ← b.baselineskip
  let raggedright ← b.flag "raggedright" .raggedright
  return { baselineskip, raggedright }

def Paragraph.ofBound (anchor : Anchor) (b : Bound α) : Except Error (Paragraph α) := do
  let width ← Width.ofValue (← b.required "width")
  let indentFraction ← b.indentFraction
  unless 0.0 ≤ indentFraction ∧ indentFraction < 1.0 do
    throw (b.fault (.indentFractionRange (Scalar.text indentFraction)))
  return { anchor, width, indentFraction, text := ← TextSetting.ofBound b }

def Numeric.ofBound (b : Bound α) : Except Error (Numeric α) := do
  let option (key : String) (value : Value α) : Value α := (b.named.get? key).getD value
  return {
    tableFormat := option "table_format" Numeric.default.tableFormat
    addIntegerZero := option "add_integer_zero" Numeric.default.addIntegerZero
    tableColumnWidth := ← b.tableColumnWidth
    tableNumberAlignment := option "table_number_alignment" Numeric.default.tableNumberAlignment
    retainExplicitPlus := option "retain_explicit_plus" Numeric.default.retainExplicitPlus
    detectInlineWeight := option "detect_inline_weight" Numeric.default.detectInlineWeight }

def Kind.ofBound (b : Bound α) : Except Error (Kind α) :=
  match b.identifier with
  | 'l' => .ok (.simple .left)
  | 'r' => .ok (.simple .right)
  | 'c' => .ok (.simple .center)
  | 'p' => .paragraph <$> Paragraph.ofBound .top b
  | 'm' => .paragraph <$> Paragraph.ofBound .middle b
  | 'b' => .paragraph <$> Paragraph.ofBound .bottom b
  | 'S' => .numeric <$> Numeric.ofBound b
  | 'X' => .autoWidth <$> TextSetting.ofBound b
  | _ => .error (b.fault .unknownIdentifier)

/-- The options that a kind of column takes, those of every kind apart. -/
def Kind.options : Kind α → List String
  | .simple _ => []
  | .paragraph _ => ["width", "indent_fraction", "baselineskip", "raggedright"]
  | .numeric _ =>
      ["table_format", "add_integer_zero", "table_number_alignment", "retain_explicit_plus",
        "detect_inline_weight", "table_column_width"]
  | .autoWidth _ => ["baselineskip", "raggedright"]

/-- The options that every kind of column takes. -/
def sharedOptions : List String := ["multicolumn_definitions", "no_space_after", "space_after"]

def Override.ofBound (default : Override α) (b : Bound α) : Except Error (Override α) :=
  match b.named.get? "multicolumn_definitions" with
  | none => .ok default
  | some .nothing => .ok .itself
  | some (.column c) => .ok (.single c)
  | some (.columns cs) => .ok (.indexed cs)
  | some other => .error (b.fault (.override other.source))

def Specifier.ofBound (b : Bound α) : Except Error (Specifier α) := do
  let kind ← Kind.ofBound b
  let plain := Specifier.ofKind kind
  let override ← Override.ofBound plain.override b
  let noSpaceAfter ← b.flag "no_space_after" .noSpaceAfter
  let spaceAfter ← b.spaceAfter
  b.finish kind.requiredOptions (kind.options ++ sharedOptions)
  return { plain with override, noSpaceAfter, spaceAfter }

mutual

/-- The value of an argument, with the specifiers it defines. -/
def Value.ofLiteral : Literal α → Except Error (Value α)
  | .nothing => .ok .nothing
  | .bool b => .ok (.bool b)
  | .int n => .ok (.int n)
  | .number x => .ok (.number x)
  | .text s => .ok (.text s)
  | .column d => do return .column (← Specifier.ofDefinition d)
  | .columns ds => do return .columns (← specifiersOf ds)

def valuesOf : List (Literal α) → Except Error (List (Value α))
  | [] => .ok []
  | l :: ls => do
      let value ← Value.ofLiteral l
      return value :: (← valuesOf ls)

/-- The named arguments in order: a later one replaces an earlier one of its name, and a flag is
true. -/
def bindNamed (bound : Entries (Value α)) :
    List (NamedArgument α) → Except Error (Entries (Value α))
  | [] => .ok bound
  | .assign key literal :: rest => do
      let value ← Value.ofLiteral literal
      bindNamed (bound.insert key value) rest
  | .flag name :: rest => bindNamed (bound.insert name (.bool true)) rest

/-- The specifier that a definition means. -/
def Specifier.ofDefinition : Definition α → Except Error (Specifier α)
  | ⟨identifier, ⟨positional, named⟩, offset⟩ => do
      let positional ← valuesOf positional
      let named ← bindNamed [] named
      Specifier.ofBound { identifier, offset := some offset, positional, named }

def specifiersOf : List (Definition α) → Except Error (List (Specifier α))
  | [] => .ok []
  | d :: ds => do
      let specifier ← Specifier.ofDefinition d
      return specifier :: (← specifiersOf ds)

end

/-- A specifier from values that no text was read for. -/
def Specifier.ofValues (identifier : Char) (positional : List (Value α))
    (named : Entries (Value α)) : Except Error (Specifier α) :=
  Specifier.ofBound { identifier, offset := none, positional, named }

end Tabulation.Column
