import Tabulation.Xml.Fault

/-!
# What can be wrong with table markup

Faults of well-formed markup: elements out of place, repeated or missing ones, and attributes
whose values cannot be used.
-/

namespace Tabulation.Markup

/-- What can be wrong with the value of an attribute. -/
inductive AttributeFault where
  | environment (got : String)
  | notABoolean (key got : String)
  | notACount (key got : String)
  | notANumber (key got : String)
  | heading (got : String)
deriving Repr, DecidableEq

inductive Fault where
  | noColumns
  | unknownEnvironment (name : String)
  | unknownFormat (name : String)
  | noRows
  | noTable
  | unexpected (name : String)
  | unexpectedEmpty (name : String)
  /-- An element at a place, such as a row or a cell, that does not take it. -/
  | unexpectedIn (name place : String)
  | unexpectedEmptyIn (name place : String)
  | secondOptions
  | secondCaption
  | unclosed (name : String)
  | emptyFloatRow
  | noteWithoutLabel
  | attribute (fault : AttributeFault)
  /-- Attributes that could not be read at all. -/
  | unreadable (fault : Xml.Fault)
deriving Repr, DecidableEq

def AttributeFault.message : AttributeFault → String
  | .environment got => "unknown table environment " ++ Text.quoted got
  | .notABoolean key got => key ++ " must be true or false, got " ++ Text.quoted got
  | .notACount key got => key ++ " must be a positive integer, got " ++ Text.quoted got
  | .notANumber key got => key ++ " must be a number, got " ++ Text.quoted got
  | .heading got => "heading must be 0, 1 or 2, got " ++ Text.quoted got

def Fault.message : Fault → String
  | .noColumns => "table has no columns"
  | .unknownEnvironment name => "unknown table environment '" ++ name ++ "'"
  | .unknownFormat name => "unknown output format '" ++ name ++ "'"
  | .noRows => "table has no rows"
  | .noTable => "no <table> element found"
  | .unexpected name => "unexpected element <" ++ name ++ ">"
  | .unexpectedEmpty name => "unexpected empty element <" ++ name ++ "/>"
  | .unexpectedIn name place => "unexpected element <" ++ name ++ "> in " ++ place
  | .unexpectedEmptyIn name place => "unexpected element <" ++ name ++ "/> in " ++ place
  | .secondOptions => "there should only be one set of options"
  | .secondCaption => "there should only be one caption"
  | .unclosed name => "unclosed <" ++ name ++ ">"
  | .emptyFloatRow => "floatrow contains no tables"
  | .noteWithoutLabel => "note without a label"
  | .attribute fault => fault.message
  | .unreadable fault => "XML error: " ++ fault.message

end Tabulation.Markup
