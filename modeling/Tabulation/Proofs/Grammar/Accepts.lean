import Tabulation.Proofs.Grammar.Complete
import Tabulation.Proofs.Grammar.Leaves
import Tabulation.Proofs.Grammar.Numerals

/-!
# The texts that are read

The two descriptions of the grammar agree on the tokens of a text, since the
numbers among these are numerals. With soundness and completeness of the rules
this gives the texts that read as a list of definitions, or as an argument list
that stands by itself, and says what they read as.
-/

namespace Tabulation.Column

/-- The numbers among some tokens are numerals. -/
def Numerals (ts : List Token) : Prop :=
  ∀ n start, ⟨.number n, start⟩ ∈ ts → IsNumeral n.toList

theorem Numerals.left {ts us : List Token} (h : Numerals (ts ++ us)) :
    Numerals ts := fun n start hn => h n start (List.mem_append_left us hn)

theorem Numerals.right {ts us : List Token} (h : Numerals (ts ++ us)) :
    Numerals us := fun n start hn => h n start (List.mem_append_right ts hn)

theorem Numerals.tail {t : Token} {ts : List Token} (h : Numerals (t :: ts)) :
    Numerals ts := fun n start hn => h n start (List.mem_cons_of_mem t hn)

def Phrase.symbol {α : Type} : Phrase α → Symbol
  | .definitions _ => .definitions
  | .definition _ => .definition
  | .arguments after _ => .arguments after
  | .positional _ => .positional
  | .named _ => .named
  | .value _ => .value
  | .operand _ => .operand

theorem Derives.derivable {p : Phrase Float} {ts : List Token}
    (h : Derives p ts) (hn : Numerals ts) :
    Derivable p.symbol (ts.map Token.lexeme) := by
  induction h with
  | lastDefinition _ ih => exact .lastDefinition (ih hn)
  | moreDefinitions _ _ ihd ihds =>
      rw [List.map_append]
      exact .moreDefinitions (ihd hn.left) (ihds hn.right.tail)
  | bare hw => exact .bare (Option.isSome_of_mem hw)
  | empty hw => exact .empty (Option.isSome_of_mem hw)
  | withArguments hw _ ih =>
      rw [List.map_cons, List.map_cons, List.map_append]
      exact .withArguments (Option.isSome_of_mem hw) (ih hn.tail.tail.left)
  | lastPositional _ ih => exact .lastPositional (ih hn)
  | morePositional _ _ ihl ihas =>
      rw [List.map_append]
      exact .morePositional (ihl hn.left) (ihas hn.right.tail)
  | lastNamed _ ih => exact .lastNamed (ih hn)
  | moreNamed _ _ ihn ihas =>
      rw [List.map_append]
      exact .moreNamed (ihn hn.left) (ihas hn.right.tail)
  | assign _ ih => exact .assign (ih hn.tail.tail)
  | flag hw ht => exact .flag hw ht
  | truth hb => exact .truth (Option.isSome_of_mem hb)
  | positional _ ih => exact .positional (ih hn)
  | word hw => exact .word hw
  | value _ ih => exact .value (ih hn)
  | column _ ih => exact .column (ih hn)
  | columns _ ih =>
      rw [List.map_cons, List.map_append]
      exact .columns (ih hn.tail.left)
  | @number n l start hl =>
      have hnumeral := hn n start List.mem_cons_self
      exact .number ((hnumeral.numberLiteral_iff start).mp ⟨l, hl⟩)
  | length => exact .length
  | quoted => exact .quoted

/-- Some tree derives from the tokens under a symbol. -/
def Symbol.Makes (ts : List Token) : Symbol → Prop
  | .definitions => ∃ ds : List (Definition Float), Derives (.definitions ds) ts
  | .definition => ∃ d : Definition Float, Derives (.definition d) ts
  | .arguments after =>
      ∃ as : Arguments Float, Derives (.arguments after as) ts
  | .positional => ∃ l : Literal Float, Derives (.positional l) ts
  | .named => ∃ n : NamedArgument Float, Derives (.named n) ts
  | .value => ∃ l : Literal Float, Derives (.value l) ts
  | .operand => ∃ l : Literal Float, Derives (.operand l) ts

/-! The tokens of which the lexemes are known are taken apart in three ways: in
front, around a comma and in front of a closing bracket. -/

theorem lexemes_eq_cons {ts : List Token} {l : Lexeme} {ls : List Lexeme}
    (h : ts.map Token.lexeme = l :: ls) :
    ∃ start us, ts = ⟨l, start⟩ :: us ∧ us.map Token.lexeme = ls := by
  obtain ⟨⟨_, start⟩, us, hts, rfl, hus⟩ := List.map_eq_cons_iff.mp h
  exact ⟨start, us, hts, hus⟩

theorem lexemes_eq_singleton {ts : List Token} {l : Lexeme}
    (h : ts.map Token.lexeme = [l]) : ∃ start, ts = [⟨l, start⟩] := by
  obtain ⟨start, us, rfl, hus⟩ := lexemes_eq_cons h
  exact ⟨start, by rw [List.map_eq_nil_iff.mp hus]⟩

theorem lexemes_eq_comma {ts : List Token} {l : Lexeme} {ls ms : List Lexeme}
    (h : ts.map Token.lexeme = ls ++ l :: ms) :
    ∃ us start vs, ts = us ++ ⟨l, start⟩ :: vs ∧
      us.map Token.lexeme = ls ∧ vs.map Token.lexeme = ms := by
  obtain ⟨us, behind, rfl, hus, hbehind⟩ := List.map_eq_append_iff.mp h
  obtain ⟨start, vs, rfl, hvs⟩ := lexemes_eq_cons hbehind
  exact ⟨us, start, vs, rfl, hus, hvs⟩

theorem lexemes_eq_concat {ts : List Token} {l : Lexeme} {ls : List Lexeme}
    (h : ts.map Token.lexeme = ls ++ [l]) :
    ∃ us start, ts = us ++ [⟨l, start⟩] ∧ us.map Token.lexeme = ls := by
  obtain ⟨us, start, vs, rfl, hus, hvs⟩ := lexemes_eq_comma h
  exact ⟨us, start, by rw [List.map_eq_nil_iff.mp hvs], hus⟩

theorem Derivable.makes {s : Symbol} {ls : List Lexeme} (h : Derivable s ls)
    {ts : List Token} (hts : ts.map Token.lexeme = ls) (hn : Numerals ts) :
    s.Makes ts := by
  induction h generalizing ts with
  | lastDefinition _ ih =>
      obtain ⟨d, hd⟩ := ih hts hn
      exact ⟨[d], .lastDefinition hd⟩
  | moreDefinitions _ _ ihd ihds =>
      obtain ⟨us, comma, vs, rfl, hus, hvs⟩ := lexemes_eq_comma hts
      obtain ⟨d, hd⟩ := ihd hus hn.left
      obtain ⟨ds, hds⟩ := ihds hvs hn.right.tail
      exact ⟨d :: ds, .moreDefinitions hd hds⟩
  | bare hw =>
      obtain ⟨start, rfl⟩ := lexemes_eq_singleton hts
      obtain ⟨c, hc⟩ := Option.isSome_iff_exists.mp hw
      exact ⟨_, .bare hc⟩
  | empty hw =>
      obtain ⟨start, us, rfl, hus⟩ := lexemes_eq_cons hts
      obtain ⟨opened, vs, rfl, hvs⟩ := lexemes_eq_cons hus
      obtain ⟨closed, rfl⟩ := lexemes_eq_singleton hvs
      obtain ⟨c, hc⟩ := Option.isSome_iff_exists.mp hw
      exact ⟨_, .empty hc⟩
  | withArguments hw _ ih =>
      obtain ⟨start, us, rfl, hus⟩ := lexemes_eq_cons hts
      obtain ⟨opened, vs, rfl, hvs⟩ := lexemes_eq_cons hus
      obtain ⟨inner, closed, rfl, hinner⟩ := lexemes_eq_concat hvs
      obtain ⟨c, hc⟩ := Option.isSome_iff_exists.mp hw
      obtain ⟨as, has⟩ := ih hinner hn.tail.tail.left
      exact ⟨_, .withArguments hc has⟩
  | lastPositional _ ih =>
      obtain ⟨l, hl⟩ := ih hts hn
      exact ⟨_, .lastPositional hl⟩
  | morePositional _ _ ihl ihas =>
      obtain ⟨us, comma, vs, rfl, hus, hvs⟩ := lexemes_eq_comma hts
      obtain ⟨l, hl⟩ := ihl hus hn.left
      obtain ⟨as, has⟩ := ihas hvs hn.right.tail
      exact ⟨_, .morePositional hl has⟩
  | lastNamed _ ih =>
      obtain ⟨n, hn⟩ := ih hts hn
      exact ⟨_, .lastNamed hn⟩
  | moreNamed _ _ ihn ihas =>
      obtain ⟨us, comma, vs, rfl, hus, hvs⟩ := lexemes_eq_comma hts
      obtain ⟨n, hn'⟩ := ihn hus hn.left
      obtain ⟨as, has⟩ := ihas hvs hn.right.tail
      exact ⟨_, .moreNamed hn' has⟩
  | assign _ ih =>
      obtain ⟨start, us, rfl, hus⟩ := lexemes_eq_cons hts
      obtain ⟨equals, vs, rfl, hvs⟩ := lexemes_eq_cons hus
      obtain ⟨l, hl⟩ := ih hvs hn.tail.tail
      exact ⟨_, .assign hl⟩
  | flag hw ht =>
      obtain ⟨start, rfl⟩ := lexemes_eq_singleton hts
      exact ⟨_, .flag hw ht⟩
  | truth ht =>
      obtain ⟨start, rfl⟩ := lexemes_eq_singleton hts
      obtain ⟨b, hb⟩ := Option.isSome_iff_exists.mp ht
      exact ⟨_, .truth hb⟩
  | positional _ ih =>
      obtain ⟨l, hl⟩ := ih hts hn
      exact ⟨l, .positional hl⟩
  | word hw =>
      obtain ⟨start, rfl⟩ := lexemes_eq_singleton hts
      exact ⟨_, .word hw⟩
  | value _ ih =>
      obtain ⟨l, hl⟩ := ih hts hn
      exact ⟨l, .value hl⟩
  | column _ ih =>
      obtain ⟨d, hd⟩ := ih hts hn
      exact ⟨_, .column hd⟩
  | columns _ ih =>
      obtain ⟨opened, us, rfl, hus⟩ := lexemes_eq_cons hts
      obtain ⟨inner, closed, rfl, hinner⟩ := lexemes_eq_concat hus
      obtain ⟨ds, hds⟩ := ih hinner hn.tail.left
      exact ⟨_, .columns hds⟩
  | number hfits =>
      obtain ⟨start, rfl⟩ := lexemes_eq_singleton hts
      have hnumeral := hn _ start List.mem_cons_self
      obtain ⟨l, hl⟩ := (hnumeral.numberLiteral_iff start).mpr hfits
      exact ⟨l, .number hl⟩
  | length =>
      obtain ⟨start, rfl⟩ := lexemes_eq_singleton hts
      exact ⟨_, .length⟩
  | quoted =>
      obtain ⟨start, rfl⟩ := lexemes_eq_singleton hts
      exact ⟨_, .quoted⟩

/-- What a rule reads off all tokens of a text, and nothing for no tokens. -/
theorem readAll_eq_ok {β : Type} {empty b : β}
    {rule : (finish depth : Nat) → List Token → Except Error (β × List Token)}
    {text : String} {ts : List Token} (h : tokenize text = .ok ts) :
    readAll empty rule text = .ok b ↔
      (ts = [] ∧ b = empty) ∨
        (ts ≠ [] ∧
          rule text.utf8ByteSize (5 * ts.length + 5) ts = .ok (b, [])) := by
  rw [readAll, h]
  cases ts with
  | nil =>
      constructor
      · intro heq
        cases heq
        exact .inl ⟨rfl, rfl⟩
      · intro h'
        rcases h' with ⟨_, rfl⟩ | ⟨hne, _⟩
        · rfl
        · exact absurd rfl hne
  | cons t ts =>
      show (rule _ _ _ >>= _) = _ ↔ _
      rw [Except.bind_eq_ok]
      constructor
      · intro h'
        obtain ⟨⟨b', rest⟩, hrule, hb⟩ := h'
        cases rest with
        | nil => cases hb; exact .inr ⟨List.cons_ne_nil _ _, hrule⟩
        | cons => cases hb
      · intro h'
        rcases h' with ⟨hnil, _⟩ | ⟨_, hrule⟩
        · cases hnil
        · exact ⟨_, hrule, rfl⟩

theorem Derives.ne_nil {α : Type} [Scalar α] {p : Phrase α}
    {ts : List Token} (h : Derives p ts) : ts ≠ [] := by
  induction h with
  | lastDefinition _ ih => exact ih
  | lastPositional _ ih => exact ih
  | lastNamed _ ih => exact ih
  | positional _ ih => exact ih
  | value _ ih => exact ih
  | column _ ih => exact ih
  | moreDefinitions => exact List.append_ne_nil_of_right_ne_nil _ (by simp)
  | morePositional => exact List.append_ne_nil_of_right_ne_nil _ (by simp)
  | moreNamed => exact List.append_ne_nil_of_right_ne_nil _ (by simp)
  | _ => exact List.cons_ne_nil _ _

/-- A text reads as definitions exactly if they derive from its tokens. -/
theorem parseDefinitions_eq_ok {α : Type} [Scalar α] {text : String}
    {ts : List Token} (h : tokenize text = .ok ts) {ds : List (Definition α)} :
    parseDefinitions text = .ok ds ↔
      (ts = [] ∧ ds = []) ∨ Derives (.definitions ds) ts := by
  rw [parseDefinitions, readAll_eq_ok h]
  constructor
  · intro h'
    rcases h' with hnil | ⟨_, hrule⟩
    · exact .inl hnil
    · obtain ⟨us, rfl, hus⟩ := (sound _ _).definitions hrule
      rw [List.append_nil]
      exact .inr hus
  · intro h'
    rcases h' with hnil | hds
    · exact .inl hnil
    · have hrule : definitions text.utf8ByteSize (5 * ts.length + 5)
          (ts ++ []) = .ok (ds, []) :=
        complete hds .finish (by simp [Phrase.rank])
      rw [List.append_nil] at hrule
      exact .inr ⟨hds.ne_nil, hrule⟩

/-- A text reads as an argument list exactly if that derives from its
tokens. -/
theorem parseArguments_eq_ok {α : Type} [Scalar α] {text : String}
    {ts : List Token} (h : tokenize text = .ok ts) {as : Arguments α} :
    parseArguments text = .ok as ↔
      (ts = [] ∧ as = .none) ∨ Derives (.arguments false as) ts := by
  rw [parseArguments, readAll_eq_ok h]
  constructor
  · intro h'
    rcases h' with hnil | ⟨_, hrule⟩
    · exact .inl hnil
    · obtain ⟨us, rfl, hus⟩ := (sound _ _).arguments hrule
        (by intro _ _ heq; cases heq)
      rw [List.append_nil]
      exact .inr hus
  · intro h'
    rcases h' with hnil | has
    · exact .inl hnil
    · have hrule : arguments text.utf8ByteSize (5 * ts.length + 5) false
          (ts ++ []) = .ok (as, []) :=
        complete has .finish (by simp [Phrase.rank])
      rw [List.append_nil] at hrule
      exact .inr ⟨has.ne_nil, hrule⟩

/-- A text is read as definitions exactly if it has no tokens or the grammar
derives them, and the leaves of what is read are these tokens in their order;
and an argument list likewise. -/
theorem parse_derivable {text : String} {ts : List Token}
    (h : tokenize text = .ok ts) :
    ((∃ ds : List (Definition Float), parseDefinitions text = .ok ds) ↔
        ts = [] ∨ Derivable .definitions (ts.map Token.lexeme)) ∧
      (∀ ds : List (Definition Float), parseDefinitions text = .ok ds →
        List.Forall₂ Leaf.Reads (definitionsLeaves ds)
          (ts.filter Token.isLeaf)) ∧
      ((∃ as : Arguments Float, parseArguments text = .ok as) ↔
        ts = [] ∨ Derivable (.arguments false) (ts.map Token.lexeme)) ∧
      (∀ as : Arguments Float, parseArguments text = .ok as →
        List.Forall₂ Leaf.Reads as.leaves (ts.filter Token.isLeaf)) := by
  have hn : Numerals ts := tokensFrom_number h
  refine ⟨⟨?_, ?_⟩, ?_, ⟨?_, ?_⟩, ?_⟩
  · intro h'
    obtain ⟨ds, hds⟩ := h'
    rcases (parseDefinitions_eq_ok h).mp hds with hnil | hds
    · exact .inl hnil.1
    · exact .inr (hds.derivable hn)
  · intro h'
    rcases h' with hnil | hts
    · exact ⟨[], (parseDefinitions_eq_ok h).mpr (.inl ⟨hnil, rfl⟩)⟩
    · obtain ⟨ds, hds⟩ := hts.makes rfl hn
      exact ⟨ds, (parseDefinitions_eq_ok h).mpr (.inr hds)⟩
  · intro ds hds
    rcases (parseDefinitions_eq_ok h).mp hds with ⟨rfl, rfl⟩ | hds
    · exact .nil
    · exact hds.leaves
  · intro h'
    obtain ⟨as, has⟩ := h'
    rcases (parseArguments_eq_ok h).mp has with hnil | has
    · exact .inl hnil.1
    · exact .inr (has.derivable hn)
  · intro h'
    rcases h' with hnil | hts
    · exact ⟨.none, (parseArguments_eq_ok h).mpr (.inl ⟨hnil, rfl⟩)⟩
    · obtain ⟨as, has⟩ := hts.makes rfl hn
      exact ⟨as, (parseArguments_eq_ok h).mpr (.inr has)⟩
  · intro as has
    rcases (parseArguments_eq_ok h).mp has with ⟨rfl, rfl⟩ | has
    · exact Arguments.none_leaves ▸ .nil
    · exact has.leaves

/-- The tokens of `p[0.2,raggedright]`. -/
def paragraphTokens : List Token :=
  [⟨.word "p", 0⟩, ⟨.openBracket, 1⟩, ⟨.number "0.2", 2⟩, ⟨.comma, 5⟩,
    ⟨.word "raggedright", 6⟩, ⟨.closeBracket, 17⟩]

theorem derivable_paragraphTokens :
    tokenize "p[0.2,raggedright]" = .ok paragraphTokens ∧
      Derivable .definitions (paragraphTokens.map Token.lexeme) := by
  have htokens : tokenize "p[0.2,raggedright]" = .ok paragraphTokens := by
    decide +kernel
  have hread : (parseDefinitions (α := Float) "p[0.2,raggedright]").isOk =
      true := by decide +kernel
  cases hds : parseDefinitions (α := Float) "p[0.2,raggedright]" with
  | error e => rw [hds] at hread; cases hread
  | ok ds =>
      have hiff := (parse_derivable htokens).1.mp ⟨ds, hds⟩
      exact ⟨htokens, hiff.resolve_left (List.cons_ne_nil _ _)⟩

end Tabulation.Column
