import Tabulation.Column.Builder
import Tabulation.Column.Grammar

/-!
# Option lists bound to a schema

A schema names the options that may be given by position, the values of those that are not given,
other names for options, and words that stand for an option with a value. Named arguments are
bound first, the last one of a name winning; the options that may be given by position and were
not named then take the positional arguments from left to right.
-/

namespace Tabulation.Column

variable {α : Type} [Scalar α]

structure Schema (α : Type) where
  /-- What the option list belongs to, for messages. -/
  name : String
  required : List String := []
  defaults : Entries (Value α) := []
  aliases : Entries String := []
  /-- Words that stand for an option and its value. -/
  tokens : Entries (String × Value α) := []

namespace Schema

def canonical (s : Schema α) (key : String) : String :=
  (s.aliases.get? key).getD key

/-- The option that a bare word stands for; a word of no other meaning sets itself. -/
def ofFlag (s : Schema α) (word : String) : String × Value α :=
  let word := s.canonical word
  match s.tokens.get? word with
  | some (key, value) => (s.canonical key, value)
  | none => (word, .bool true)

/-- The named arguments under their canonical names. -/
def bindNamed (s : Schema α) (bound : Entries (Value α)) :
    List (NamedArgument α) → Except Error (Entries (Value α))
  | [] => .ok bound
  | .assign key literal :: rest => do
      let value ← Value.ofLiteral literal
      bindNamed s (bound.insert (s.canonical key) value) rest
  | .flag word :: rest =>
      let (key, value) := s.ofFlag word
      bindNamed s (bound.insert key value) rest

/-- What is bound while the required options are gone through: the answer so far, the named
arguments that no required option took, and the positional ones that are left. -/
structure Binding (α : Type) where
  bound : Entries (Value α)
  named : Entries (Value α)
  positional : List (Value α)

/-- Binds one option: by name, by position, or to its default. -/
def bindOne (s : Schema α) (b : Binding α) (name : String) : Except Error (Binding α) :=
  match b.named.get? name with
  | some value =>
      .ok { b with bound := b.bound.insert name value, named := b.named.erase name }
  | none =>
      match b.positional with
      | value :: rest => .ok { b with bound := b.bound.insert name value, positional := rest }
      | [] =>
          if (s.defaults.get? name).isSome then .ok b
          else .error (.missingOption s.name name)

def bindRequired (s : Schema α) (b : Binding α) : List String → Except Error (Binding α)
  | [] => .ok b
  | name :: rest => do bindRequired s (← s.bindOne b name) rest

/-- The value of every option, those of the defaults first. -/
def resolve (s : Schema α) (arguments : Arguments α) : Except Error (Entries (Value α)) := do
  let positional ← valuesOf arguments.positional
  let named ← s.bindNamed [] arguments.named
  let b ← s.bindRequired { bound := s.defaults, named, positional } s.required
  unless b.positional.isEmpty do
    throw (.definition (.extraPositionals s.name s.required.length
      (s.required.length + b.positional.length)) none)
  return b.bound.insertAll b.named

/-- Another name for an option must be longer than one letter, which would read as a column. -/
def checkAliases (s : Schema α) : Except Error Unit :=
  match s.aliases.keys.find? fun short => short.length < 2 with
  | some short => .error (.definition (.shortAlias short) none)
  | none => .ok ()

/-- Reads an option list and binds it. -/
def parse (s : Schema α) (text : String) : Except Error (Entries (Value α)) := do
  s.checkAliases
  s.resolve (← parseArguments text)

end Schema

end Tabulation.Column
