import Tabulation.Markup.Reader
import Tabulation.Table.Latex
import Tabulation.Table.Odt

/-!
# Documents

The blocks of a document are rendered in order in one session. Where a lenient render meets a
table that fails, an error marker takes its place and a warning says so, and the tables behind it
are rendered as if it had succeeded; a strict render fails with the first table that does. A
render that meets an overflow ends there in either mode.
-/

namespace Tabulation

open Markup (Block)

inductive Format where
  | latex
  | odt
deriving Repr, DecidableEq

/-- The format of a name, in letters of either case. -/
def Format.parse (name : String) : Except Error Format :=
  let n := String.map Char.toLower (Text.trim name)
  if n = "latex" ∨ n = "tex" then .ok .latex
  else if n = "odt" ∨ n = "opendocument" then .ok .odt
  else .error (.markup (.unknownFormat n) none)

structure Rendered where
  output : String
  warnings : List Warning
  /-- How many tables and float rows an error marker stands for. -/
  failures : Nat
deriving Repr, DecidableEq

/-- The lines of a text of which the current line has been read up to some character, given
backwards. A line ends at a line feed, and at a carriage return in front of it; what follows the
last line feed is a line only if there is anything. -/
def linesFrom (line : List Char) : List Char → List String
  | [] => if line.isEmpty then [] else [String.ofList line.reverse]
  | '\n' :: cs =>
      let ended := match line with
        | '\r' :: rest => rest
        | _ => line
      String.ofList ended.reverse :: linesFrom [] cs
  | c :: cs => linesFrom (c :: line) cs

def textLines (text : String) : List String :=
  linesFrom [] text.toList

/-- Replaces each pair of hyphens, from left to right, by two that are apart. -/
def splitHyphens : List Char → List Char
  | '-' :: '-' :: cs => '-' :: ' ' :: '-' :: splitHyphens cs
  | c :: cs => c :: splitHyphens cs
  | [] => []

/-- What stands in the output for a table that failed. -/
def failureMark (format : Format) (e : Error) : String :=
  match format with
  | .latex => String.intercalate "\n" ((textLines e.message).map ("% tabset: " ++ ·))
  | .odt =>
      "<!-- tabset: " ++ Xml.escape (String.ofList (splitHyphens e.message.toList)) ++ " -->"

/-- The warning that a table was not rendered. -/
def failureWarning (e : Error) : Warning :=
  ⟨"table not rendered: " ++ e.message, some "the table was replaced by an error marker"⟩

/-- Renders a table or a float row; a heading only counts and renders to nothing. -/
def renderBlock (format : Format) (block : Block Float) (s : Session Float) :
    Option (Except Failure String) × Session Float :=
  match block, format with
  | .heading level, _ => (none, s.enterHeading level)
  | .table t, .latex =>
      let (rendered, s) := renderLatex t s
      (some (rendered.map LatexTable.float), s)
  | .table t, .odt =>
      let (rendered, s) := renderOdt t s
      (some rendered, s)
  | .floatRow ts, .latex =>
      let (rendered, s) := renderFloatRow ts s
      (some rendered, s)
  | .floatRow ts, .odt =>
      let (rendered, s) := renderAllOdt s ts
      (some rendered, s)

/-- What the blocks of a document came to. -/
structure Parts where
  parts : List String
  failures : Nat
  session : Session Float

/-- Renders blocks in order. -/
def renderBlocks (format : Format) (s : Session Float) :
    List (Block Float) → Except Failure Parts
  | [] => .ok ⟨[], 0, s⟩
  | block :: rest =>
      match renderBlock format block s with
      | (none, s) => renderBlocks format s rest
      | (some (.ok part), s) =>
          (renderBlocks format s rest).map fun p => { p with parts := part :: p.parts }
      | (some (.error .overflow), _) => .error .overflow
      | (some (.error (.refused e)), s) =>
          if s.options.lenient then
            (renderBlocks format (s.warn [failureWarning e]) rest).map fun p =>
              { p with parts := failureMark format e :: p.parts, failures := p.failures + 1 }
          else .error (.refused e)

/-- The document around its rendered parts. -/
def assemble (format : Format) (p : Parts) : String :=
  match format with
  | .latex => String.intercalate "\n\n" p.parts
  | .odt =>
      (Odt.document p.session.options.outlineLevel p.session.styles (String.join p.parts)).render

/-- Renders a document. -/
def renderDocument (markup : String) (format : Format) (options : Options Float) :
    Except Failure Rendered := do
  options.validate.mapError .refused
  let blocks ← (Markup.parseDocument markup).mapError .refused
  let p ← renderBlocks format { options } blocks
  return { output := assemble format p, warnings := p.session.warnings, failures := p.failures }

end Tabulation
