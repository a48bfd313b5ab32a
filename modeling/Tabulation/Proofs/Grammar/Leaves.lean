import Mathlib.Data.List.Forall2
import Tabulation.Proofs.Grammar.Derivation

/-!
# The leaves of a tree

Brackets, commas and equals signs are the shape of a tree; every other token is
one of its leaves. A leaf stands for its token: an identifier with its
position, a key or a flag with underscores for hyphens, and a value that still
has the text it was written with. Read from left to right, the leaves of what
is derived are the tokens in their order, one for one.
-/

namespace Tabulation.Column

variable {α : Type}

inductive Leaf (α : Type) where
  | identifier (c : Char) (start : Nat)
  | key (key : String)
  | flag (name : String)
  | value (l : Literal α)

mutual

def Literal.leaves : Literal α → List (Leaf α)
  | .column d => d.leaves
  | .columns ds => definitionsLeaves ds
  | .nothing => [.value .nothing]
  | .bool b => [.value (.bool b)]
  | .int n => [.value (.int n)]
  | .number x => [.value (.number x)]
  | .text s => [.value (.text s)]

def literalsLeaves : List (Literal α) → List (Leaf α)
  | [] => []
  | l :: ls => l.leaves ++ literalsLeaves ls

def namedLeaves : List (NamedArgument α) → List (Leaf α)
  | [] => []
  | .assign key l :: rest => .key key :: (l.leaves ++ namedLeaves rest)
  | .flag name :: rest => .flag name :: namedLeaves rest

def Definition.leaves : Definition α → List (Leaf α)
  | ⟨c, ⟨positional, named⟩, start⟩ =>
      .identifier c start :: (literalsLeaves positional ++ namedLeaves named)

def definitionsLeaves : List (Definition α) → List (Leaf α)
  | [] => []
  | d :: ds => d.leaves ++ definitionsLeaves ds

end

def Arguments.leaves (as : Arguments α) : List (Leaf α) :=
  literalsLeaves as.positional ++ namedLeaves as.named

theorem Definition.leaves_eq (d : Definition α) :
    d.leaves = .identifier d.identifier d.offset :: d.arguments.leaves := by
  obtain ⟨c, ⟨positional, named⟩, start⟩ := d
  rw [Definition.leaves, Arguments.leaves]

theorem Arguments.none_leaves : (Arguments.none : Arguments α).leaves = [] := by
  rw [Arguments.none, Arguments.leaves, literalsLeaves, namedLeaves]
  rfl

def Phrase.leaves : Phrase α → List (Leaf α)
  | .definitions ds => definitionsLeaves ds
  | .definition d => d.leaves
  | .arguments _ as => as.leaves
  | .positional l => l.leaves
  | .named n => namedLeaves [n]
  | .value l => l.leaves
  | .operand l => l.leaves

/-- The tokens that are no punctuation. -/
def Token.isLeaf (t : Token) : Bool :=
  match t.lexeme with
  | .openBracket => false
  | .closeBracket => false
  | .comma => false
  | .equals => false
  | _ => true

theorem filter_bracketed (ts : List Token) (closed : Nat) :
    (ts ++ [(⟨.closeBracket, closed⟩ : Token)]).filter Token.isLeaf =
      ts.filter Token.isLeaf := by
  rw [List.filter_append]
  exact List.append_nil _

/-- The text of the numeral that a literal was read from. -/
def Literal.numeral? [Scalar α] : Literal α → Option String
  | .int n => some (toString n)
  | .number x => some (Scalar.pointedText x)
  | .text s => some s
  | _ => none

/-- A leaf stands for a token. -/
def Leaf.Reads [Scalar α] : Leaf α → Token → Prop
  | .identifier c start, t =>
      t.offset = start ∧ t.lexeme = .word c.toString ∧ c.isAlpha
  | .key stored, t => ∃ w, t.lexeme = .word w ∧ stored = storedKey w
  | .flag stored, t => ∃ w, t.lexeme = .word w ∧ stored = storedKey w
  | .value l, t =>
      match t.lexeme with
      | .word w => l = wordLiteral w
      | .number n => l.numeral? = some n
      | .length s => l = .text s
      | .quoted s => l = .text s
      | _ => False

variable [Scalar α]

theorem numberLiteral_numeral {n : String} {start : Nat} {l : Literal α}
    (h : numberLiteral n start = .ok l) :
    l.numeral? = some n ∧ l.leaves = [.value l] := by
  rw [numberLiteral] at h
  split at h
  · split at h
    · cases h
    · cases h
      split
      · next x _ hx => exact ⟨congrArg some hx, by rw [Literal.leaves]⟩
      · exact ⟨rfl, by rw [Literal.leaves]⟩
  · split at h
    · cases h
    · cases h
      split
      · next k _ hk => exact ⟨congrArg some hk, by rw [Literal.leaves]⟩
      · exact ⟨rfl, by rw [Literal.leaves]⟩

omit [Scalar α] in
theorem wordLiteral_leaves (w : String) :
    (wordLiteral w : Literal α).leaves = [.value (wordLiteral w)] := by
  rw [wordLiteral]
  split
  · rw [Literal.leaves]
  · split <;> rw [Literal.leaves]

theorem identifier?_eq_some {w : String} {c : Char}
    (h : identifier? w = some c) : w = c.toString ∧ c.isAlpha = true := by
  rw [identifier?] at h
  split at h
  · next d hd =>
      split at h
      · next halpha =>
          cases h
          exact ⟨by rw [← String.toList_inj, hd]; simp, halpha⟩
      · cases h
  · cases h

/-- Behind a named argument there is no positional one. -/
theorem Derives.positional_eq_nil {as : Arguments α} {ts : List Token}
    (h : Derives (.arguments true as) ts) : as.positional = [] := by
  generalize hp : Phrase.arguments true as = p at h
  induction h generalizing as with
  | lastNamed => cases hp; rfl
  | moreNamed _ _ _ ih =>
      cases hp
      have hrest := ih rfl
      exact hrest
  | _ => cases hp

theorem Derives.leaves {p : Phrase α} {ts : List Token} (h : Derives p ts) :
    List.Forall₂ Leaf.Reads p.leaves (ts.filter Token.isLeaf) := by
  induction h with
  | lastDefinition _ ih =>
      rw [Phrase.leaves, definitionsLeaves, definitionsLeaves, List.append_nil]
      exact ih
  | moreDefinitions _ _ ihd ihds =>
      rw [Phrase.leaves, definitionsLeaves, List.filter_append]
      exact List.rel_append ihd ihds
  | bare hw =>
      obtain ⟨rfl, halpha⟩ := identifier?_eq_some hw
      rw [Phrase.leaves, Definition.leaves_eq, Arguments.none_leaves]
      exact .cons ⟨rfl, rfl, halpha⟩ .nil
  | empty hw =>
      obtain ⟨rfl, halpha⟩ := identifier?_eq_some hw
      rw [Phrase.leaves, Definition.leaves_eq, Arguments.none_leaves]
      exact .cons ⟨rfl, rfl, halpha⟩ .nil
  | withArguments hw _ ih =>
      obtain ⟨rfl, halpha⟩ := identifier?_eq_some hw
      rw [Phrase.leaves, Definition.leaves_eq, List.filter_cons_of_pos rfl,
        List.filter_cons_of_neg Bool.false_ne_true, filter_bracketed]
      exact .cons ⟨rfl, rfl, halpha⟩ ih
  | lastPositional _ ih =>
      rw [Phrase.leaves, Arguments.leaves, literalsLeaves, literalsLeaves,
        namedLeaves, List.append_nil, List.append_nil]
      exact ih
  | morePositional _ _ ihl ihas =>
      rw [Phrase.leaves, Arguments.leaves, literalsLeaves, List.append_assoc,
        List.filter_append]
      exact List.rel_append ihl ihas
  | lastNamed _ ih => exact ih
  | @moreNamed named n as ts us comma _ has ihn ihas =>
      have hrest : as.leaves = namedLeaves as.named := by
        rw [Arguments.leaves, has.positional_eq_nil, literalsLeaves]
        rfl
      have hall : namedLeaves (n :: as.named) =
          namedLeaves [n] ++ namedLeaves as.named := by
        cases n <;> simp [namedLeaves]
      rw [Phrase.leaves, Arguments.leaves, has.positional_eq_nil,
        literalsLeaves, hall, ← hrest, List.filter_append]
      exact List.rel_append ihn ihas
  | assign _ ih =>
      rw [Phrase.leaves, namedLeaves, namedLeaves, List.append_nil]
      exact .cons ⟨_, rfl, rfl⟩ ih
  | flag =>
      rw [Phrase.leaves, namedLeaves, namedLeaves]
      exact .cons ⟨_, rfl, rfl⟩ .nil
  | @truth w b start hb =>
      have hword : (.bool b : Literal α) = wordLiteral w := by
        rw [wordLiteral, hb]
      rw [Phrase.leaves, hword, wordLiteral_leaves]
      exact .cons rfl .nil
  | positional _ ih => exact ih
  | word =>
      rw [Phrase.leaves, wordLiteral_leaves]
      exact .cons rfl .nil
  | value _ ih => exact ih
  | column _ ih =>
      rw [Phrase.leaves, Literal.leaves]
      exact ih
  | columns _ ih =>
      rw [Phrase.leaves, Literal.leaves,
        List.filter_cons_of_neg Bool.false_ne_true, filter_bracketed]
      exact ih
  | number hn =>
      obtain ⟨hnumeral, hleaves⟩ := numberLiteral_numeral hn
      rw [Phrase.leaves, hleaves]
      exact .cons hnumeral .nil
  | length =>
      rw [Phrase.leaves, Literal.leaves]
      exact .cons rfl .nil
  | quoted =>
      rw [Phrase.leaves, Literal.leaves]
      exact .cons rfl .nil

end Tabulation.Column
