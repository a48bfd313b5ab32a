import Tabulation.Column.Schema
import Tabulation.Content.Inline

/-!
# Layout directives in cell content

A cell says in its own content how it wants to be laid out: `~~~` words in front indent it, a raw
piece of the format `multicolumn` holds an option list, and words made of `_` and `>` with counts
ask for a rule below the cell and for a span. Extraction takes all of them out and collects what
they ask for. An option list takes effect piece by piece, so the options in front of one that is
refused stay in effect.
-/

namespace Tabulation

open Column

variable {α : Type} [Scalar α]

/-- The rule asked for below a cell. -/
inductive Underline where
  /-- Over a number of logical columns, those of the cell at least. -/
  | columns (width : Nat)
  /-- Across the whole table. -/
  | midrule
deriving Repr, DecidableEq

structure Directive (α : Type) where
  indent : Nat := 0
  /-- The columns to cover, if the content says so. -/
  columns : Option Nat := none
  underline : Option Underline := none
  /-- What the cell is set as when it is set as a group. -/
  specifier : Option (Specifier α) := none
  /-- Set the cell as a group even if it covers one column. -/
  force : Bool := false

namespace Directive

/-- The columns covered by a cell that declares a span of its own. -/
def span (d : Directive α) (declared : Nat) : Nat :=
  max (max declared (d.columns.getD 1)) 1

def indentMarker : String := "~~~"

def optionFormat : String := "multicolumn"

/-- A mark with a count of one or two digits in front of it, which is one if it is missing, and
what follows the mark. -/
def counted? (mark : Char) (cs : List Char) : Option (Nat × List Char) :=
  let digit (c : Char) : Nat := c.toNat - '0'.toNat
  match cs with
  | [] => none
  | a :: rest =>
      if a = mark then some (1, rest)
      else if a.isDigit && a ≠ '0' then
        match rest with
        | [] => none
        | b :: rest =>
            if b = mark then some (digit a, rest)
            else if b.isDigit then
              match rest with
              | c :: rest => if c = mark then some (10 * digit a + digit b, rest) else none
              | [] => none
            else none
      else none

/-- What a short word such as `_`, `2_`, `>` or `2_3>` asks for: the columns of a rule, and the
columns to cover besides the first. -/
def marks? (word : String) : Option (Option Nat × Option Nat) :=
  let optional (mark : Char) (cs : List Char) : Option Nat × List Char :=
    match counted? mark cs with
    | some (n, rest) => (some n, rest)
    | none => (none, cs)
  let (underline, rest) := optional '_' word.toList
  let (extra, rest) := optional '>' rest
  if rest.isEmpty && (underline.isSome || extra.isSome) then some (underline, extra) else none

def withMarks (d : Directive α) (underline extra : Option Nat) : Directive α :=
  { d with
    underline := (underline.map Underline.columns).or d.underline
    columns := (extra.map (· + 1)).or d.columns }

/-- The options of a cell. -/
def schema : Schema α where
  name := "multicolumn"
  required := ["columns", "column_specifier"]
  defaults :=
    [("columns", .int 1), ("column_specifier", .nothing), ("underline", .nothing),
      ("force_multicolumn", .bool false)]
  aliases := [("ul", "underline"), ("fm", "force_multicolumn"), ("mr", "midrule")]
  tokens := [("midrule", ("underline", .text "midrule"))]

def optionKeys : List String := ["columns", "column_specifier", "underline", "force_multicolumn"]

def refuse (fault : DefinitionFault) : Error := .definition fault none

/-- The number of columns to cover; `current` if nothing is said. -/
def columnsOption (current : Option Nat) (options : Entries (Value α)) :
    Except Error (Option Nat) :=
  match options.get? "columns" with
  | none => .ok current
  | some value =>
      match value.nat? with
      | some (n + 1) => .ok (some (n + 1))
      | _ => .error (refuse (.cellColumns value.source))

def specifierOption (current : Option (Specifier α)) (options : Entries (Value α)) :
    Except Error (Option (Specifier α)) :=
  match options.get? "column_specifier" with
  | none => .ok current
  | some .nothing => .ok current
  | some (.column c) => .ok (some c)
  | some other => .error (refuse (.cellSpecifier other.source))

def underlineOption (options : Entries (Value α)) : Except Error (Option Underline) :=
  match options.get? "underline" with
  | none => .ok none
  | some .nothing => .ok none
  | some (.bool false) => .ok none
  | some (.bool true) => .ok (some (.columns 1))
  | some value =>
      if value.isText "midrule" then .ok (some .midrule)
      else
        match value.nat? with
        | some (n + 1) => .ok (some (.columns (n + 1)))
        | _ => .error (refuse (.cellUnderline value.source))

def forceOption (options : Entries (Value α)) : Bool :=
  ((options.get? "force_multicolumn").bind Value.bool?).getD false

/-- Applies options in order, and stops at the first that is refused. -/
def withBound (d : Directive α) (options : Entries (Value α)) : Directive α × Option Error :=
  match options.keys.find? fun key => !optionKeys.contains key with
  | some key => (d, some (refuse (.unknownCellOption key)))
  | none =>
      match columnsOption d.columns options with
      | .error e => (d, some e)
      | .ok columns =>
          let d := { d with columns }
          match specifierOption d.specifier options with
          | .error e => (d, some e)
          | .ok specifier =>
              let d := { d with specifier }
              match underlineOption options with
              | .error e => (d, some e)
              | .ok underline =>
                  ({ d with underline, force := forceOption options }, none)

/-- Applies an option list as it is written in a cell. -/
def withOptions (d : Directive α) (text : String) : Directive α × Option Error :=
  match (schema (α := α)).parse text with
  | .error e => (d, some e)
  | .ok options => d.withBound options

/-- Reads a cell's content behind what `d` collected already. `leading` says that only markers,
spaces and option lists came before. -/
def extractFrom (lenient leading : Bool) (d : Directive α) :
    List Inline → Except Error (Directive α × List Inline × List Warning)
  | [] => .ok (d, [], [])
  | .raw format text :: rest =>
      if format = optionFormat then
        match d.withOptions text with
        | (d, none) => extractFrom lenient leading d rest
        | (d, some e) =>
            if lenient && e.isRecoverable then do
              let (d, kept, warnings) ← extractFrom lenient leading d rest
              let text := "ignored cell options " ++ Text.quoted text ++ ": " ++ e.message
              return (d, kept, ⟨text, none⟩ :: warnings)
            else .error e
      else do
        let (d, kept, warnings) ← extractFrom lenient false d rest
        return (d, .raw format text :: kept, warnings)
  | .space :: rest =>
      if leading then extractFrom lenient leading d rest
      else do
        let (d, kept, warnings) ← extractFrom lenient leading d rest
        return (d, .space :: kept, warnings)
  | .word text :: rest =>
      if leading && text = indentMarker then
        extractFrom lenient leading { d with indent := d.indent + 1 } rest
      else
        match marks? text with
        | some (underline, extra) =>
            extractFrom lenient false (d.withMarks underline extra) rest
        | none => do
            let (d, kept, warnings) ← extractFrom lenient false d rest
            return (d, .word text :: kept, warnings)
  | other :: rest => do
      let (d, kept, warnings) ← extractFrom lenient false d rest
      return (d, other :: kept, warnings)

/-- What a cell's content asks for, the content without it, and what was ignored. -/
def extract (content : List Inline) (lenient : Bool) :
    Except Error (Directive α × List Inline × List Warning) := do
  let (d, kept, warnings) ← extractFrom lenient true {} content
  return (d, Inline.normalize kept, warnings)

end Directive

end Tabulation
