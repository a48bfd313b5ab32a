import Tabulation.Column.Definition
import Tabulation.Column.Lexer
import Tabulation.Scalar

/-!
# The grammar of column definitions

    definitions := definition (',' definition)*
    definition  := IDENTIFIER ['[' [arguments] ']']
    arguments   := argument (',' argument)*        positional ones first
    argument    := WORD '=' value | FLAG | value
    value       := definition | '[' definitions ']' | WORD | NUMBER | LENGTH | QUOTED

An identifier is a word of one letter that no `=` follows. A flag is any other word that does not
spell a truth value. Each rule looks one token ahead, never goes back, and answers with the tokens
it left. A rule calls another one at most four times before a token is consumed, so five calls for
each token are enough, and that number bounds the depth of the recursion.
-/

namespace Tabulation.Column

variable {α : Type} [Scalar α]

/-- Where the next token stands, or where the text ends. -/
def position (finish : Nat) : List Token → Nat
  | [] => finish
  | t :: _ => t.offset

/-- The complaint that the next token is not what was looked for. -/
def unexpected (finish : Nat) (wanted : Expectation) (ts : List Token) : Error :=
  .definition (.expected wanted (ts.head?.map Token.lexeme)) (some (position finish ts))

/-- The letter of a one-letter word. -/
def identifier? (word : String) : Option Char :=
  match word.toList with
  | [c] => if c.isAlpha then some c else none
  | _ => none

def truth? (word : String) : Option Bool :=
  if word = "true" ∨ word = "True" then some true
  else if word = "false" ∨ word = "False" then some false
  else none

/-- Keys may be written with hyphens; they are stored with underscores. -/
def storedKey (key : String) : String :=
  String.ofList (key.toList.map fun c => if c = '-' then '_' else c)

/-- The identifier of the definition that begins here, if one does. -/
def leadingIdentifier? : List Token → Option Char
  | ⟨.word _, _⟩ :: ⟨.equals, _⟩ :: _ => none
  | ⟨.word w, _⟩ :: _ => identifier? w
  | _ => none

/-- A number whose own text is not what would be written for it stays a text, so that it reaches
the output unchanged. -/
def numberLiteral (text : String) (offset : Nat) : Except Error (Literal α) :=
  if text.toList.contains '.' then
    match Scalar.read? text with
    | none => .error (.definition (.invalidNumber text) (some offset))
    | some (x : α) => .ok (if Scalar.pointedText x = text then .number x else .text text)
  else
    match Decimal.int64? text with
    | none => .error (.definition (.invalidInteger text) (some offset))
    | some n => .ok (if toString n = text then .int n else .text text)

def wordLiteral (word : String) : Literal α :=
  match truth? word with
  | some b => .bool b
  | none => if word = "none" ∨ word = "None" then .nothing else .text word

/-- Consumes a closing bracket. -/
def closing (finish : Nat) : List Token → Except Error (List Token)
  | ⟨.closeBracket, _⟩ :: ts => .ok ts
  | ts => .error (unexpected finish .closeBracket ts)

mutual

def definitions (finish : Nat) : (depth : Nat) → List Token →
    Except Error (List (Definition α) × List Token)
  | 0, ts => .error (unexpected finish .identifier ts)
  | depth + 1, ts => do
      let (first, ts) ← definition finish depth ts
      match ts with
      | ⟨.comma, _⟩ :: ts =>
          let (rest, ts) ← definitions finish depth ts
          return (first :: rest, ts)
      | ts => return ([first], ts)

def definition (finish : Nat) : (depth : Nat) → List Token →
    Except Error (Definition α × List Token)
  | 0, ts => .error (unexpected finish .identifier ts)
  | depth + 1, ts =>
      match leadingIdentifier? ts with
      | none => .error (unexpected finish .identifier ts)
      | some c =>
          let offset := position finish ts
          match ts.tail with
          | ⟨.openBracket, _⟩ :: ⟨.closeBracket, _⟩ :: ts => .ok (⟨c, .none, offset⟩, ts)
          | ⟨.openBracket, _⟩ :: ts => do
              let (arguments, ts) ← arguments finish depth false ts
              let ts ← closing finish ts
              return (⟨c, arguments, offset⟩, ts)
          | ts => .ok (⟨c, .none, offset⟩, ts)

/-- `named` says that a named argument has been read already. -/
def arguments (finish : Nat) : (depth : Nat) → (named : Bool) → List Token →
    Except Error (Arguments α × List Token)
  | 0, _, ts => .error (unexpected finish .value ts)
  | depth + 1, named, ts => do
      let offset := position finish ts
      let (item, ts) ← argument finish depth ts
      match item with
      | .inl value =>
          if named then throw (.definition .positionalAfterNamed (some offset))
          match ts with
          | ⟨.comma, _⟩ :: ts =>
              let (rest, ts) ← arguments finish depth false ts
              return ({ rest with positional := value :: rest.positional }, ts)
          | ts => return (⟨[value], []⟩, ts)
      | .inr item =>
          match ts with
          | ⟨.comma, _⟩ :: ts =>
              let (rest, ts) ← arguments finish depth true ts
              return ({ rest with named := item :: rest.named }, ts)
          | ts => return (⟨[], [item]⟩, ts)

def argument (finish : Nat) : (depth : Nat) → List Token →
    Except Error ((Literal α ⊕ NamedArgument α) × List Token)
  | 0, ts => .error (unexpected finish .value ts)
  | depth + 1, ts =>
      match ts with
      | ⟨.word w, _⟩ :: ⟨.equals, _⟩ :: ts => do
          let (value, ts) ← literal finish depth ts
          return (.inr (.assign (storedKey w) value), ts)
      | ⟨.word w, offset⟩ :: ts =>
          if (identifier? w).isNone && (truth? w).isNone then
            .ok (.inr (.flag (storedKey w)), ts)
          else do
            let (value, ts) ← literal finish depth (⟨.word w, offset⟩ :: ts)
            return (.inl value, ts)
      | ts => do
          let (value, ts) ← literal finish depth ts
          return (.inl value, ts)

def literal (finish : Nat) : (depth : Nat) → List Token →
    Except Error (Literal α × List Token)
  | 0, ts => .error (unexpected finish .value ts)
  | depth + 1, ts =>
      if (leadingIdentifier? ts).isSome then do
        let (d, ts) ← definition finish depth ts
        return (.column d, ts)
      else
        match ts with
        | ⟨.openBracket, _⟩ :: ts => do
            let (ds, ts) ← definitions finish depth ts
            let ts ← closing finish ts
            return (.columns ds, ts)
        | ⟨.word w, _⟩ :: ts => .ok (wordLiteral w, ts)
        | ⟨.number n, offset⟩ :: ts => (numberLiteral n offset).map (·, ts)
        | ⟨.length l, _⟩ :: ts => .ok (.text l, ts)
        | ⟨.quoted s, _⟩ :: ts => .ok (.text s, ts)
        | ts => .error (unexpected finish .value ts)

end

/-- Applies a rule to all of a text. Nothing may be left behind what the rule reads, and a text
without tokens reads as `empty`. -/
def readAll {β : Type} (empty : β)
    (rule : (finish depth : Nat) → List Token → Except Error (β × List Token)) (text : String) :
    Except Error β := do
  let ts ← tokenize text
  let finish := text.utf8ByteSize
  if ts.isEmpty then return empty
  match ← rule finish (5 * ts.length + 5) ts with
  | (b, []) => return b
  | (_, ts) => throw (unexpected finish .finish ts)

/-- Reads a list of column definitions separated by commas. -/
def parseDefinitions (text : String) : Except Error (List (Definition α)) :=
  readAll [] definitions text

/-- Reads an argument list that stands by itself. -/
def parseArguments (text : String) : Except Error (Arguments α) :=
  readAll .none (fun finish depth ts => arguments finish depth false ts) text

end Tabulation.Column
