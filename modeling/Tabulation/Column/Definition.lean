/-!
# Column definitions as written

A definition is a one-letter identifier and arguments; an argument may itself be a definition or
a list of them. Nothing is bound yet: the names of options, their defaults and the meaning of the
identifier come later.
-/

namespace Tabulation.Column

mutual

/-- The value of an argument. -/
inductive Literal (α : Type) where
  | nothing
  | bool (b : Bool)
  | int (n : Int)
  | number (x : α)
  | text (s : String)
  | column (definition : Definition α)
  | columns (definitions : List (Definition α))

inductive NamedArgument (α : Type) where
  | assign (key : String) (value : Literal α)
  | flag (name : String)

structure Arguments (α : Type) where
  positional : List (Literal α)
  named : List (NamedArgument α)

structure Definition (α : Type) where
  identifier : Char
  arguments : Arguments α
  /-- Where the identifier stands in the text. -/
  offset : Nat

end

def Arguments.none {α : Type} : Arguments α := ⟨[], []⟩

end Tabulation.Column
