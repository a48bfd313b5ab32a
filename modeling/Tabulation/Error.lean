import Tabulation.Column.Fault
import Tabulation.Markup.Fault

/-!
# Errors and warnings

A table is refused for one of the causes below. Faults of definitions and of widths are
recoverable: a lenient render replaces what they concern and leaves a warning; every other cause
fails the table. Numbers of columns are words of 64 bits, and where one of them leaves that range
the render has no result at all, in either mode.
-/

namespace Tabulation

inductive Error where
  /-- A column definition or an option list, with the byte offset of the fault if one is known. -/
  | definition (fault : Column.DefinitionFault) (position : Option Nat)
  | missingOption (owner option : String)
  | columnCount (row expected actual : Nat)
  | missingOverride (index available : Nat)
  | width (value : String) (fault : Column.WidthFault)
  | ruleOutside (row first last columns : Nat)
  | markup (fault : Markup.Fault) (position : Option Nat)
  | xml (fault : Xml.Fault)
deriving Repr, DecidableEq

namespace Error

def message : Error → String
  | .definition fault (some p) =>
      "definition error at offset " ++ toString p ++ ": " ++ fault.message
  | .definition fault none => "definition error: " ++ fault.message
  | .missingOption owner option =>
      "'" ++ option ++ "' is a required option of '" ++ owner ++ "' and wasn't given"
  | .columnCount row expected actual =>
      "row " ++ toString row ++ ": expected " ++ toString expected ++ " columns but got " ++
        toString actual
  | .missingOverride index available =>
      "no multicolumn definition for index " ++ toString index ++ " (only " ++
        toString available ++ " defined)"
  | .width value fault => "invalid width " ++ Text.quoted value ++ ": " ++ fault.message
  | .ruleOutside row first last columns =>
      "row " ++ toString row ++ ": underline " ++ toString first ++ "-" ++ toString last ++
        " is outside of 1-" ++ toString columns
  | .markup fault (some p) =>
      "table markup error: " ++ fault.message ++ " (at byte " ++ toString p ++ ")"
  | .markup fault none => "table markup error: " ++ fault.message
  | .xml fault => "XML error: " ++ fault.message

/-- Whether a lenient render may replace what the error concerns and go on. -/
def isRecoverable : Error → Bool
  | .definition .. => true
  | .width .. => true
  | _ => false

end Error

/-- Why a render has no output. -/
inductive Failure where
  | refused (e : Error)
  /-- The column behind a cell or behind a rule is no word. This is not reported as a fault of
  the table, and nothing is rendered behind it. -/
  | overflow
deriving Repr, DecidableEq

/-- Something that did not stop the render. -/
structure Warning where
  text : String
  suggestion : Option String
deriving Repr, DecidableEq

def Warning.message (w : Warning) : String :=
  "Warning: " ++ w.text ++
    match w.suggestion with
    | some s => " (" ++ s ++ ")"
    | none => ""

end Tabulation
