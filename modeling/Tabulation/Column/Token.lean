/-!
# Tokens of a column definition

A definition such as `p[0.2,indent_fraction=0.15]` is a sequence of words, numbers, lengths,
quoted texts and four punctuation marks. A token keeps the position it starts at, because every
complaint about a definition points into the text.
-/

namespace Tabulation.Column

inductive Lexeme where
  /-- An identifier, a key or a bare word. -/
  | word (text : String)
  /-- A number as it is written. -/
  | number (text : String)
  /-- A number with a unit right behind it. -/
  | length (text : String)
  /-- The text that stood between quotes. -/
  | quoted (text : String)
  | openBracket
  | closeBracket
  | comma
  | equals
deriving Repr, DecidableEq

structure Token where
  lexeme : Lexeme
  offset : Nat
deriving Repr, DecidableEq

end Tabulation.Column
