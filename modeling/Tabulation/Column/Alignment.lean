import Tabulation.Column.Builder
import Tabulation.Column.Grammar
import Tabulation.Text.Pieces

/-!
# The columns of a table

An alignment is a list of definitions, or of plain names such as `center`. For a table of a known
number of columns a lenient reading never fails on what the alignment says about one column: the
plain left column takes the place of a definition that cannot be used, missing columns are added
and surplus ones cut, and each of these leaves a warning. A strict reading refuses them all.
-/

namespace Tabulation.Column

variable {α : Type} [Scalar α]

/-- The identifier that an alignment name stands for. -/
def namedAlignment? (name : String) : Option String :=
  match name with
  | "AlignLeft" => some "l"
  | "AlignDefault" => some "l"
  | "AlignRight" => some "r"
  | "AlignCenter" => some "c"
  | "left" => some "l"
  | "right" => some "r"
  | "center" => some "c"
  | _ => none

/-- Replaces alignment names by identifiers if all of a text consists of them. -/
def expandNames (text : String) : String :=
  let items := (Text.split ',' text).map fun piece => namedAlignment? (Text.trim piece)
  if items.all Option.isSome then String.intercalate "," (items.filterMap id) else text

/-- The specifiers that a text defines. -/
def parseSpecifiers (text : String) : Except Error (List (Specifier α)) := do
  specifiersOf (← parseDefinitions (expandNames text))

/-- Makes a list as long as a table is wide. -/
def fitTo (count : Nat) (columns : List (Specifier α)) : List (Specifier α) :=
  columns.take count ++ List.replicate (count - columns.length) .plainLeft

/-- The specifiers of definitions one by one, with plain columns for those that a lenient reading
may replace. -/
def recoverEach (lenient : Bool) :
    List (Definition α) → Except Error (List (Specifier α) × List Warning)
  | [] => .ok ([], [])
  | d :: ds =>
      match Specifier.ofDefinition d with
      | .ok c => do
          let (cs, warnings) ← recoverEach lenient ds
          return (c :: cs, warnings)
      | .error e =>
          if lenient && e.isRecoverable then do
            let (cs, warnings) ← recoverEach lenient ds
            let warning : Warning :=
              ⟨e.message, some ("column '" ++ d.identifier.toString ++ "' rendered as 'l'")⟩
            return (.plainLeft :: cs, warning :: warnings)
          else .error e

/-- The definitions of an alignment; a lenient reading takes one that is no list of definitions
as empty. -/
def readAlignment (alignment : String) (lenient : Bool) :
    Except Error (List (Definition α) × List Warning) :=
  match parseDefinitions (expandNames alignment) with
  | .ok ds => .ok (ds, [])
  | .error e =>
      if lenient && e.isRecoverable then
        let text := "could not parse column definition " ++ Text.quoted alignment ++ ": " ++
          e.message
        .ok ([], [⟨text, some "all columns rendered as 'l'"⟩])
      else .error e

/-- The specifiers of a table with `count` columns, and what had to be replaced. -/
def tableColumns (alignment : String) (count : Nat) (lenient : Bool) :
    Except Error (List (Specifier α) × List Warning) := do
  if (Text.trim alignment).isEmpty then return (List.replicate count .plainLeft, [])
  let (definitions, unread) ← readAlignment alignment lenient
  let (columns, replaced) ← recoverEach lenient definitions
  let misfit := DefinitionFault.alignmentCount columns.length count
  if columns.isEmpty || columns.length = count then
    return (fitTo count columns, unread ++ replaced)
  else if lenient then
    return (fitTo count columns, unread ++ replaced ++ [⟨misfit.message, none⟩])
  else
    throw (.definition misfit none)

end Tabulation.Column
