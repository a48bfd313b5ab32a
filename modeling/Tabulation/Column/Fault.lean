import Tabulation.Column.Token
import Tabulation.Text.Quoted

/-!
# What can be wrong with a column definition

The causes for which a definition, an option list or an alignment is refused, and the wording of
each. A cause that shows a value holds the value's source text.
-/

namespace Tabulation.Column

/-- What a reader of tokens looked for. -/
inductive Expectation where
  | identifier
  | closeBracket
  | value
  | finish
deriving Repr, DecidableEq

/-- What one column does not accept. -/
inductive ColumnFault where
  | unknownIdentifier
  | baselineskip (got : String)
  | raggedright
  | indentFraction
  | indentFractionRange (got : String)
  | override (got : String)
  | noSpaceAfter
  | spaceAfter (got : String)
  | extraPositional (got : String)
  | extraOption (key : String)
deriving Repr, DecidableEq

inductive DefinitionFault where
  | unexpectedCharacter (c : Char)
  | unterminated (quote : Char)
  | expected (wanted : Expectation) (found : Option Lexeme)
  | positionalAfterNamed
  | invalidInteger (text : String)
  | invalidNumber (text : String)
  | shortAlias (name : String)
  | extraPositionals (owner : String) (taken given : Nat)
  | column (identifier : Char) (fault : ColumnFault)
  | unknownCellOption (key : String)
  | cellColumns (got : String)
  | cellSpecifier (got : String)
  | cellUnderline (got : String)
  | alignmentCount (defined columns : Nat)
deriving Repr, DecidableEq

/-- What a width can have wrong with it. -/
inductive WidthFault where
  | notANumber (text : String)
  | notALength
  | negative
  | count (expected : Nat)
  | negativeColumn
  | total
  | excess
deriving Repr, DecidableEq

def Lexeme.description : Lexeme → String
  | .word w => "'" ++ w ++ "'"
  | .number n => "'" ++ n ++ "'"
  | .length l => "'" ++ l ++ "'"
  | .quoted s => "string " ++ Text.quoted s
  | .openBracket => "'['"
  | .closeBracket => "']'"
  | .comma => "','"
  | .equals => "'='"

def Expectation.message : Expectation → String
  | .identifier => "expected a one-letter column identifier"
  | .closeBracket => "expected ']'"
  | .value => "expected a value"
  | .finish => "unexpected trailing input"

def ColumnFault.message (identifier : Char) : ColumnFault → String
  | .unknownIdentifier =>
      "could not find a column class with the identifier '" ++ identifier.toString ++ "'"
  | .baselineskip got => "baselineskip must be a length, got " ++ got
  | .raggedright => "raggedright must be true or false"
  | .indentFraction => "indent_fraction must be a number"
  | .indentFractionRange got => "indent_fraction must lie in [0, 1), got " ++ got
  | .override got =>
      "multicolumn_definitions must be a column or a list of columns, got " ++ got
  | .noSpaceAfter => "no_space_after must be true or false"
  | .spaceAfter got => "space_after must be a length, got " ++ got
  | .extraPositional got => "unexpected positional argument " ++ got
  | .extraOption key => "unexpected option '" ++ key ++ "'"

def DefinitionFault.message : DefinitionFault → String
  | .unexpectedCharacter c => "unexpected character " ++ Text.quotedChar c
  | .unterminated quote => "unterminated string starting with " ++ quote.toString
  | .expected wanted none => wanted.message ++ ", found end of input"
  | .expected wanted (some lexeme) => wanted.message ++ ", found " ++ lexeme.description
  | .positionalAfterNamed => "positional argument follows a named option"
  | .invalidInteger text => "invalid integer " ++ Text.quoted text
  | .invalidNumber text => "invalid number " ++ Text.quoted text
  | .shortAlias name =>
      "alias " ++ Text.quoted name ++
        " is too short: aliases must consist of at least two characters"
  | .extraPositionals owner taken given =>
      owner ++ " takes " ++ toString taken ++ " positional argument(s) but " ++
        toString given ++ " were given"
  | .column identifier fault =>
      "column '" ++ identifier.toString ++ "': " ++ fault.message identifier
  | .unknownCellOption key => "unknown multicolumn option '" ++ key ++ "'"
  | .cellColumns got => "multicolumn columns must be a positive integer, got " ++ got
  | .cellSpecifier got => "column_specifier must be a column definition, got " ++ got
  | .cellUnderline got => "underline must be true, a column count or 'midrule', got " ++ got
  | .alignmentCount defined columns =>
      "alignment defines " ++ toString defined ++ " columns but the table has " ++
        toString columns

def WidthFault.message : WidthFault → String
  | .notANumber text => "could not convert " ++ Text.quoted text ++ " to a number"
  | .notALength => "expected a number or a length"
  | .negative => "width must not be negative"
  | .count expected => "expected " ++ toString expected ++ " widths"
  | .negativeColumn => "column widths must be non-negative"
  | .total => "total width must be a positive number"
  | .excess => "column widths add up to more than 1"

end Tabulation.Column
