import Tabulation.Column.Grammar

/-!
# Derivations

The grammar of column definitions as a relation between tokens and the tree
that they make, without a parser in sight: no token to look ahead to, no depth
and no complaints. A phrase is what one rule of the grammar makes, and
`Derives` has one constructor for each alternative of a rule. What a positional
argument and an assigned value have in common is an operand; they differ only
in the words that they may be.
-/

namespace Tabulation.Column

variable {α : Type}

/-- What the rules of the grammar make. -/
inductive Phrase (α : Type) where
  | definitions (ds : List (Definition α))
  | definition (d : Definition α)
  /-- `named` says that a named argument came before. -/
  | arguments (named : Bool) (as : Arguments α)
  | positional (l : Literal α)
  | named (n : NamedArgument α)
  | value (l : Literal α)
  | operand (l : Literal α)

inductive Derives [Scalar α] : Phrase α → List Token → Prop where
  | lastDefinition {d : Definition α} {ts : List Token} :
      Derives (.definition d) ts → Derives (.definitions [d]) ts
  | moreDefinitions {d : Definition α} {ds : List (Definition α)}
      {ts us : List Token} {comma : Nat} :
      Derives (.definition d) ts → Derives (.definitions ds) us →
      Derives (.definitions (d :: ds)) (ts ++ ⟨.comma, comma⟩ :: us)
  | bare {w : String} {c : Char} {start : Nat} :
      identifier? w = some c →
      Derives (.definition ⟨c, .none, start⟩) [⟨.word w, start⟩]
  | empty {w : String} {c : Char} {start opened closed : Nat} :
      identifier? w = some c →
      Derives (.definition ⟨c, .none, start⟩)
        [⟨.word w, start⟩, ⟨.openBracket, opened⟩, ⟨.closeBracket, closed⟩]
  | withArguments {w : String} {c : Char} {as : Arguments α}
      {ts : List Token} {start opened closed : Nat} :
      identifier? w = some c → Derives (.arguments false as) ts →
      Derives (.definition ⟨c, as, start⟩)
        (⟨.word w, start⟩ :: ⟨.openBracket, opened⟩ ::
          (ts ++ [⟨.closeBracket, closed⟩]))
  | lastPositional {l : Literal α} {ts : List Token} :
      Derives (.positional l) ts → Derives (.arguments false ⟨[l], []⟩) ts
  | morePositional {l : Literal α} {as : Arguments α} {ts us : List Token}
      {comma : Nat} :
      Derives (.positional l) ts → Derives (.arguments false as) us →
      Derives (.arguments false { as with positional := l :: as.positional })
        (ts ++ ⟨.comma, comma⟩ :: us)
  | lastNamed {named : Bool} {n : NamedArgument α} {ts : List Token} :
      Derives (.named n) ts → Derives (.arguments named ⟨[], [n]⟩) ts
  | moreNamed {named : Bool} {n : NamedArgument α} {as : Arguments α}
      {ts us : List Token} {comma : Nat} :
      Derives (.named n) ts → Derives (.arguments true as) us →
      Derives (.arguments named { as with named := n :: as.named })
        (ts ++ ⟨.comma, comma⟩ :: us)
  | assign {w : String} {l : Literal α} {ts : List Token}
      {start equals : Nat} :
      Derives (.value l) ts →
      Derives (.named (.assign (storedKey w) l))
        (⟨.word w, start⟩ :: ⟨.equals, equals⟩ :: ts)
  | flag {w : String} {start : Nat} :
      identifier? w = none → truth? w = none →
      Derives (.named (.flag (storedKey w))) [⟨.word w, start⟩]
  | truth {w : String} {b : Bool} {start : Nat} :
      truth? w = some b →
      Derives (.positional (.bool b)) [⟨.word w, start⟩]
  | positional {l : Literal α} {ts : List Token} :
      Derives (.operand l) ts → Derives (.positional l) ts
  | word {w : String} {start : Nat} :
      identifier? w = none →
      Derives (.value (wordLiteral w)) [⟨.word w, start⟩]
  | value {l : Literal α} {ts : List Token} :
      Derives (.operand l) ts → Derives (.value l) ts
  | column {d : Definition α} {ts : List Token} :
      Derives (.definition d) ts → Derives (.operand (.column d)) ts
  | columns {ds : List (Definition α)} {ts : List Token}
      {opened closed : Nat} :
      Derives (.definitions ds) ts →
      Derives (.operand (.columns ds))
        (⟨.openBracket, opened⟩ :: (ts ++ [⟨.closeBracket, closed⟩]))
  | number {n : String} {l : Literal α} {start : Nat} :
      numberLiteral n start = .ok l →
      Derives (.operand l) [⟨.number n, start⟩]
  | length {s : String} {start : Nat} :
      Derives (.operand (.text s)) [⟨.length s, start⟩]
  | quoted {s : String} {start : Nat} :
      Derives (.operand (.text s)) [⟨.quoted s, start⟩]

/-- The symbols of the grammar. -/
inductive Symbol where
  | definitions
  | definition
  | arguments (named : Bool)
  | positional
  | named
  | value
  | operand
deriving Repr, DecidableEq

/-- The number of a signed whole number fits into 64 bits. -/
def FitsInt64 (n : String) : Prop :=
  let (negative, digits) := Decimal.splitSign n.toList
  if negative then Decimal.ofDigits digits ≤ Decimal.twoTo 63
  else Decimal.ofDigits digits < Decimal.twoTo 63

/-- The same grammar as it is written down, with lexemes and without trees. An
identifier is a word of one letter. -/
inductive Derivable : Symbol → List Lexeme → Prop where
  | lastDefinition {ls : List Lexeme} :
      Derivable .definition ls → Derivable .definitions ls
  | moreDefinitions {ls ms : List Lexeme} :
      Derivable .definition ls → Derivable .definitions ms →
      Derivable .definitions (ls ++ .comma :: ms)
  | bare {w : String} :
      (identifier? w).isSome → Derivable .definition [.word w]
  | empty {w : String} :
      (identifier? w).isSome →
      Derivable .definition [.word w, .openBracket, .closeBracket]
  | withArguments {w : String} {ls : List Lexeme} :
      (identifier? w).isSome → Derivable (.arguments false) ls →
      Derivable .definition
        (.word w :: .openBracket :: (ls ++ [.closeBracket]))
  | lastPositional {ls : List Lexeme} :
      Derivable .positional ls → Derivable (.arguments false) ls
  | morePositional {ls ms : List Lexeme} :
      Derivable .positional ls → Derivable (.arguments false) ms →
      Derivable (.arguments false) (ls ++ .comma :: ms)
  | lastNamed {named : Bool} {ls : List Lexeme} :
      Derivable .named ls → Derivable (.arguments named) ls
  | moreNamed {named : Bool} {ls ms : List Lexeme} :
      Derivable .named ls → Derivable (.arguments true) ms →
      Derivable (.arguments named) (ls ++ .comma :: ms)
  | assign {w : String} {ls : List Lexeme} :
      Derivable .value ls → Derivable .named (.word w :: .equals :: ls)
  | flag {w : String} :
      identifier? w = none → truth? w = none → Derivable .named [.word w]
  | truth {w : String} :
      (truth? w).isSome → Derivable .positional [.word w]
  | positional {ls : List Lexeme} :
      Derivable .operand ls → Derivable .positional ls
  | word {w : String} : identifier? w = none → Derivable .value [.word w]
  | value {ls : List Lexeme} :
      Derivable .operand ls → Derivable .value ls
  | column {ls : List Lexeme} :
      Derivable .definition ls → Derivable .operand ls
  | columns {ls : List Lexeme} :
      Derivable .definitions ls →
      Derivable .operand (.openBracket :: (ls ++ [.closeBracket]))
  | number {n : String} :
      '.' ∈ n.toList ∨ FitsInt64 n → Derivable .operand [.number n]
  | length {s : String} : Derivable .operand [.length s]
  | quoted {s : String} : Derivable .operand [.quoted s]

end Tabulation.Column
