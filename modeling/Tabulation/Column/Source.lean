import Tabulation.Column.Specifier

/-!
# Writing specifiers in their own language

The source text of a specifier is a definition that means the specifier. Options that have their
default value are left out, and the rest come in one fixed order, so each meaning has one source
text, however it was written at first. Padding, indentation levels and what a group is set as are
not part of a definition and are not written.
-/

namespace Tabulation.Column

variable {α : Type} [Scalar α]

/-- A text between single quotes, as the reader of tokens takes it apart again. -/
def quote (text : String) : String :=
  "'" ++ String.ofList (text.toList.flatMap fun c =>
    if c = '\\' ∨ c = '\'' then ['\\', c] else [c]) ++ "'"

/-- Arguments between brackets, and no brackets around none. -/
def bracketed (arguments : List String) : String :=
  if arguments.isEmpty then "" else "[" ++ String.intercalate "," arguments ++ "]"

def TextSetting.sources (t : TextSetting) : List String :=
  (match t.baselineskip with
    | some skip => if skip = "10pt" then [] else ["baselineskip=" ++ quote skip]
    | none => ["baselineskip=false"]) ++
  (if t.raggedright then ["raggedright=true"] else [])

def Paragraph.sources (p : Paragraph α) : List String :=
  [p.width.source] ++
  (if p.indentFraction == defaultIndentFraction then []
    else ["indent_fraction=" ++ Scalar.pointedText p.indentFraction]) ++
  p.text.sources

/-- Whether a value is the given text. -/
def Value.isText (s : String) : Value α → Bool
  | .text t => t = s
  | _ => false

def Value.isNothing : Value α → Bool
  | .nothing => true
  | _ => false

/-- An option that is written unless it has its default. -/
def sourceUnless (isDefault : Bool) (key value : String) : List String :=
  if isDefault then [] else [key ++ "=" ++ value]

mutual

def Value.source : Value α → String
  | .nothing => "none"
  | .bool b => toString b
  | .int n => toString n
  | .number x => Scalar.pointedText x
  | .text s => quote s
  | .column c => c.source
  | .columns cs => "[" ++ String.intercalate "," (sourceList cs) ++ "]"

def sourceList : List (Specifier α) → List String
  | [] => []
  | c :: cs => c.source :: sourceList cs

def Kind.sources : Kind α → List String
  | .simple _ => []
  | .paragraph p => p.sources
  | .numeric ⟨format, zero, width, alignment, plus, weight⟩ =>
      sourceUnless (format.isText "3.2") "table_format" format.source ++
      sourceUnless zero.isNothing "add_integer_zero" zero.source ++
      sourceUnless alignment.isNothing "table_number_alignment" alignment.source ++
      sourceUnless plus.isNothing "retain_explicit_plus" plus.source ++
      sourceUnless (weight.isText "math") "detect_inline_weight" weight.source ++
      (match width with
        | some w => ["table_column_width=" ++ w.source]
        | none => [])
  | .autoWidth t => t.sources

def Override.source : Override α → String
  | .itself => "none"
  | .single c => c.source
  | .indexed cs => "[" ++ String.intercalate "," (sourceList cs) ++ "]"

def Specifier.source : Specifier α → String
  | ⟨kind, override, noSpaceAfter, spaceAfter, noLeft, noRight⟩ =>
      let whole : Specifier α := ⟨kind, override, noSpaceAfter, spaceAfter, noLeft, noRight⟩
      kind.identifier.toString ++ bracketed (
        kind.sources ++
        sourceUnless whole.hasDefaultOverride "multicolumn_definitions" override.source ++
        (if noSpaceAfter then ["no_space_after=true"] else []) ++
        (match spaceAfter with
          | some space => ["space_after=" ++ quote space]
          | none => []))

end

end Tabulation.Column
