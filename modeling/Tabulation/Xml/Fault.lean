import Tabulation.Text.Quoted

/-!
# What can be wrong with markup as a text

Faults of the characters themselves, before any element has a meaning: a construct that does not
end, tags that do not match, attributes and character references that cannot be read. Positions
count bytes from the start of the piece that was being read.
-/

namespace Tabulation.Xml

/-- What was being read when the input ended. -/
inductive Construct where
  | bang
  | comment
  | cdata
  | doctype
  | declaration
  /-- Everything up to the end tag of an element. -/
  | element (name : String)
deriving Repr, DecidableEq

inductive AttributeFault where
  | noEquals (position : Nat)
  | noValue (position : Nat)
  | unquoted (position : Nat)
  | unclosed (position : Nat) (quote : Char)
  | duplicate (position previous : Nat)
deriving Repr, DecidableEq

/-- What is wrong with a reference such as `&lt;` or `&#65;`. -/
inductive ReferenceFault where
  | unterminated (start stop : Nat)
  | unknown (start stop : Nat) (name : String)
  | longDecimal
  | longHexadecimal
  | badDecimal (c : Char)
  | badHexadecimal (c : Char)
  | null (start stop : Nat)
  | notACharacter (code : Nat)
deriving Repr, DecidableEq

inductive Fault where
  | unexpectedEnd (reading : Construct)
  | unexpectedBang (symbol : Char)
  | emptyDoctype
  | mismatch (expected found : String)
  | attribute (fault : AttributeFault)
  | reference (fault : ReferenceFault)
deriving Repr, DecidableEq

def Construct.name : Construct → String
  | .bang => "Bang"
  | .comment => "Comment"
  | .cdata => "CData"
  | .doctype => "DOCTYPE"
  | .declaration => "XmlDecl"
  | .element name => "</Ok(" ++ Text.quoted name ++ ")>"

def AttributeFault.message : AttributeFault → String
  | .noEquals p =>
      "position " ++ toString p ++ ": attribute key must be directly followed by \x60=\x60 or space"
  | .noValue p =>
      "position " ++ toString p ++ ": \x60=\x60 must be followed by an attribute value"
  | .unquoted p =>
      "position " ++ toString p ++
        ": attribute value must be enclosed in \x60\"\x60 or \x60'\x60"
  | .unclosed p quote =>
      "position " ++ toString p ++ ": missing closing quote \x60" ++ quote.toString ++
        "\x60 in attribute value"
  | .duplicate p previous =>
      "position " ++ toString p ++ ": duplicated attribute, previous declaration at position " ++
        toString previous

/-- A range of positions inside a text with references. -/
def rangeText (start stop : Nat) : String :=
  "Error while escaping character at range " ++ toString start ++ ".." ++ toString stop ++ ": "

def ReferenceFault.message : ReferenceFault → String
  | .unterminated start stop => rangeText start stop ++ "Cannot find ';' after '&'"
  | .unknown start stop name =>
      rangeText start stop ++ "Unrecognized escape symbol: " ++ Text.quoted name
  | .longDecimal => "Cannot convert decimal to utf8"
  | .longHexadecimal => "Cannot convert hexadecimal to utf8"
  | .badDecimal c => "'" ++ c.toString ++ "' is not a valid decimal character"
  | .badHexadecimal c => "'" ++ c.toString ++ "' is not a valid hexadecimal character"
  | .null start stop => rangeText start stop ++ "Null character entity not allowed"
  | .notACharacter code => "'" ++ toString code ++ "' is not a valid codepoint"

def Fault.message : Fault → String
  | .unexpectedEnd reading => "Unexpected EOF during reading " ++ reading.name
  | .unexpectedBang symbol =>
      "Only Comment (\x60--\x60), CDATA (\x60[CDATA[\x60) and DOCTYPE (\x60DOCTYPE\x60) nodes " ++
        "can start with a '!', but symbol \x60" ++ symbol.toString ++ "\x60 found"
  | .emptyDoctype => "DOCTYPE declaration must not be empty"
  | .mismatch expected found => "Expecting </" ++ expected ++ "> found </" ++ found ++ ">"
  | .attribute fault => "error while parsing attribute: " ++ fault.message
  | .reference fault => fault.message

end Tabulation.Xml
