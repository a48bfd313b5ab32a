import Tabulation.Text.Unprintable

/-!
# Quoted text in messages

A message shows a text that came from outside between quotes, in a form that keeps it on one
line and makes its ends visible: the quote in use and the backslash are escaped, the common
controls have their letters, and every other unprintable character is given by its number in
lowercase hexadecimal.
-/

namespace Tabulation.Text

/-- The lowercase hexadecimal digits of a number, none in front. -/
def hexDigits (n : Nat) : String :=
  String.ofList (Nat.toDigits 16 n)

/-- One character inside quotes of the kind `quote`. -/
def escapeQuoted (quote : Char) (c : Char) : String :=
  if c = '\x00' then "\\0"
  else if c = '\t' then "\\t"
  else if c = '\r' then "\\r"
  else if c = '\n' then "\\n"
  else if c = '\\' then "\\\\"
  else if c = quote then "\\" ++ quote.toString
  else if isUnprintable c then "\\u\x7b" ++ hexDigits c.toNat ++ "\x7d"
  else c.toString

/-- A text between double quotes. -/
def quoted (s : String) : String :=
  "\"" ++ String.join (s.toList.map (escapeQuoted '"')) ++ "\""

/-- A character between single quotes. -/
def quotedChar (c : Char) : String :=
  "'" ++ escapeQuoted '\'' c ++ "'"

end Tabulation.Text
