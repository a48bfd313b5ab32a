import Tabulation.Proofs.Grammar.Derivation
import Tabulation.Proofs.Outcome

/-!
# What the rules read is derived

The rules are taken together, by induction on the depth: whatever a rule reads
off the tokens is a phrase that the grammar derives from exactly these tokens.
A value is read without a look at what follows it, so for a word of one letter
the rule answers even where an equals sign is next. No rule goes on from there,
and below it is an assumption on the rest.
-/

namespace Tabulation.Column

variable {α : Type} [Scalar α]

/-- The tokens do not begin with an equals sign. -/
def Unassigned (ts : List Token) : Prop :=
  ∀ start us, ts ≠ ⟨.equals, start⟩ :: us

/-- The phrase derives from the tokens in front of the rest. -/
def ReadOff (ts : List Token) (p : Phrase α) (rest : List Token) : Prop :=
  ∃ us, ts = us ++ rest ∧ Derives p us

/-- What an argument is read as. -/
def Phrase.ofArgument : Literal α ⊕ NamedArgument α → Phrase α
  | .inl l => .positional l
  | .inr n => .named n

/-- The rules are sound up to a depth. -/
structure Sound (α : Type) [Scalar α] (finish depth : Nat) : Prop where
  definitions : ∀ {ts rest : List Token} {ds : List (Definition α)},
    definitions finish depth ts = .ok (ds, rest) →
      ReadOff ts (.definitions ds) rest
  definition : ∀ {ts rest : List Token} {d : Definition α},
    definition finish depth ts = .ok (d, rest) →
      ReadOff ts (.definition d) rest
  arguments : ∀ {named : Bool} {ts rest : List Token} {as : Arguments α},
    arguments finish depth named ts = .ok (as, rest) → Unassigned rest →
      ReadOff ts (.arguments named as) rest
  argument : ∀ {ts rest : List Token} {item : Literal α ⊕ NamedArgument α},
    argument finish depth ts = .ok (item, rest) → Unassigned rest →
      ReadOff ts (.ofArgument item) rest
  literal : ∀ {ts rest : List Token} {l : Literal α},
    literal finish depth ts = .ok (l, rest) → Unassigned rest →
      ReadOff ts (.value l) rest

omit [Scalar α] in
theorem closing_eq_ok {finish : Nat} {ts rest : List Token}
    (h : closing finish ts = .ok rest) :
    ∃ closed, ts = ⟨.closeBracket, closed⟩ :: rest := by
  rw [closing.eq_def] at h
  split at h
  · cases h; exact ⟨_, rfl⟩
  · cases h

theorem unassigned_comma (start : Nat) (ts : List Token) :
    Unassigned (⟨.comma, start⟩ :: ts) := by
  intro _ _ heq
  cases heq

theorem unassigned_closeBracket (start : Nat) (ts : List Token) :
    Unassigned (⟨.closeBracket, start⟩ :: ts) := by
  intro _ _ heq
  cases heq

/-- A definition begins with its identifier. -/
theorem leadingIdentifier?_eq_some {ts : List Token} {c : Char}
    (h : leadingIdentifier? ts = some c) :
    ∃ w start us, ts = ⟨.word w, start⟩ :: us ∧ identifier? w = some c ∧
      Unassigned us := by
  rw [leadingIdentifier?.eq_def] at h
  split at h
  · cases h
  · next w start us hne =>
      exact ⟨w, start, us, rfl, h, fun o vs heq => hne o vs heq⟩
  · cases h

theorem leadingIdentifier?_word {w : String} {start : Nat} {ts : List Token}
    (h : Unassigned ts) :
    leadingIdentifier? (⟨.word w, start⟩ :: ts) = identifier? w := by
  rw [leadingIdentifier?.eq_def]
  split
  · next heq =>
      cases heq
      exact absurd rfl (h _ _)
  · next heq =>
      cases heq
      rfl
  · next hne => exact absurd rfl (hne w start ts)

/-- A value is a positional argument unless it is a word for a flag. -/
theorem Derives.positional_of_value {l : Literal α} {ts : List Token}
    (h : Derives (.value l) ts)
    (hword : ∀ w start, ts = [⟨.word w, start⟩] → identifier? w = none →
      (truth? w).isSome) : Derives (.positional l) ts := by
  cases h with
  | value h => exact .positional h
  | @word w start hw =>
      obtain ⟨b, hb⟩ := Option.isSome_iff_exists.mp (hword w start rfl hw)
      rw [wordLiteral, hb]
      exact .truth hb

namespace Sound

variable {finish depth : Nat}

theorem definitions_succ (ih : Sound α finish depth) {ts rest : List Token}
    {ds : List (Definition α)}
    (h : Column.definitions finish (depth + 1) ts = .ok (ds, rest)) :
    ReadOff ts (.definitions ds) rest := by
  rw [Column.definitions] at h
  obtain ⟨⟨d, behind⟩, hd, hnext⟩ := Except.bind_eq_ok.mp h
  obtain ⟨us, hts, hus⟩ := ih.definition hd
  simp only [] at hnext
  split at hnext
  · next comma behind' =>
      obtain ⟨⟨ds', behind''⟩, hds, hnext⟩ := Except.bind_eq_ok.mp hnext
      cases hnext
      obtain ⟨vs, rfl, hvs⟩ := ih.definitions hds
      exact ⟨us ++ ⟨.comma, comma⟩ :: vs, by rw [hts]; simp,
        .moreDefinitions hus hvs⟩
  · cases hnext
    exact ⟨us, hts, .lastDefinition hus⟩

theorem definition_succ (ih : Sound α finish depth) {ts rest : List Token}
    {d : Definition α}
    (h : Column.definition finish (depth + 1) ts = .ok (d, rest)) :
    ReadOff ts (.definition d) rest := by
  rw [Column.definition] at h
  split at h
  · cases h
  · next c hc =>
      obtain ⟨w, start, us, rfl, hw, -⟩ := leadingIdentifier?_eq_some hc
      simp only [List.tail_cons, position] at h
      split at h
      · next opened closed us =>
          cases h
          exact ⟨[_, _, _], rfl, .empty hw⟩
      · next opened us _ =>
          obtain ⟨⟨as, behind⟩, has, hnext⟩ := Except.bind_eq_ok.mp h
          obtain ⟨behind', hclosing, hnext⟩ := Except.bind_eq_ok.mp hnext
          cases hnext
          obtain ⟨closed, rfl⟩ := closing_eq_ok hclosing
          obtain ⟨vs, rfl, hvs⟩ :=
            ih.arguments has (unassigned_closeBracket _ _)
          exact ⟨⟨.word w, start⟩ :: ⟨.openBracket, opened⟩ ::
            (vs ++ [⟨.closeBracket, closed⟩]), by simp, .withArguments hw hvs⟩
      · cases h
        exact ⟨[_], rfl, .bare hw⟩

theorem arguments_succ (ih : Sound α finish depth) {named : Bool}
    {ts rest : List Token} {as : Arguments α}
    (h : Column.arguments finish (depth + 1) named ts = .ok (as, rest))
    (hrest : Unassigned rest) : ReadOff ts (.arguments named as) rest := by
  rw [Column.arguments] at h
  obtain ⟨⟨item, behind⟩, hitem, hnext⟩ := Except.bind_eq_ok.mp h
  cases item with
  | inl l =>
      cases named with
      | true => cases hnext
      | false =>
          simp only [Bool.false_eq_true, if_false] at hnext
          split at hnext
          · next comma behind' =>
              obtain ⟨⟨as', behind''⟩, has, hnext⟩ :=
                Except.bind_eq_ok.mp hnext
              cases hnext
              obtain ⟨us, hts, hus⟩ := ih.argument hitem (unassigned_comma _ _)
              obtain ⟨vs, rfl, hvs⟩ := ih.arguments has hrest
              exact ⟨us ++ ⟨.comma, comma⟩ :: vs, by rw [hts]; simp,
                .morePositional hus hvs⟩
          · cases hnext
            obtain ⟨us, hts, hus⟩ := ih.argument hitem hrest
            exact ⟨us, hts, .lastPositional hus⟩
  | inr n =>
      simp only [] at hnext
      split at hnext
      · next comma behind' =>
          obtain ⟨⟨as', behind''⟩, has, hnext⟩ := Except.bind_eq_ok.mp hnext
          cases hnext
          obtain ⟨us, hts, hus⟩ := ih.argument hitem (unassigned_comma _ _)
          obtain ⟨vs, rfl, hvs⟩ := ih.arguments has hrest
          exact ⟨us ++ ⟨.comma, comma⟩ :: vs, by rw [hts]; simp,
            .moreNamed hus hvs⟩
      · cases hnext
        obtain ⟨us, hts, hus⟩ := ih.argument hitem hrest
        exact ⟨us, hts, .lastNamed hus⟩

theorem argument_succ (ih : Sound α finish depth) {ts rest : List Token}
    {item : Literal α ⊕ NamedArgument α}
    (h : Column.argument finish (depth + 1) ts = .ok (item, rest))
    (hrest : Unassigned rest) : ReadOff ts (.ofArgument item) rest := by
  rw [Column.argument.eq_def] at h
  simp only [] at h
  split at h
  · next w start equals us =>
      obtain ⟨⟨l, behind⟩, hl, hnext⟩ := Except.bind_eq_ok.mp h
      cases hnext
      obtain ⟨vs, rfl, hvs⟩ := ih.literal hl hrest
      exact ⟨⟨.word w, start⟩ :: ⟨.equals, equals⟩ :: vs, rfl, .assign hvs⟩
  · next w start us hne =>
      split at h
      · next hflag =>
          cases h
          rw [Bool.and_eq_true, Option.isNone_iff_eq_none,
            Option.isNone_iff_eq_none] at hflag
          exact ⟨[_], rfl, .flag hflag.1 hflag.2⟩
      · next hflag =>
          obtain ⟨⟨l, behind⟩, hl, hnext⟩ := Except.bind_eq_ok.mp h
          cases hnext
          obtain ⟨vs, hts, hvs⟩ := ih.literal hl hrest
          refine ⟨vs, hts, hvs.positional_of_value ?_⟩
          intro w' start' heq hw
          subst heq
          cases hts
          rw [hw, Option.isNone_none, Bool.true_and,
            Option.isNone_iff_eq_none] at hflag
          exact Option.isSome_iff_ne_none.mpr hflag
  · next hne hne' =>
      obtain ⟨⟨l, behind⟩, hl, hnext⟩ := Except.bind_eq_ok.mp h
      cases hnext
      obtain ⟨vs, hts, hvs⟩ := ih.literal hl hrest
      refine ⟨vs, hts, hvs.positional_of_value ?_⟩
      intro w start heq _
      subst heq
      exact absurd hts (hne' w start _)

theorem literal_succ (ih : Sound α finish depth) {ts rest : List Token}
    {l : Literal α}
    (h : Column.literal finish (depth + 1) ts = .ok (l, rest))
    (hrest : Unassigned rest) : ReadOff ts (.value l) rest := by
  rw [Column.literal.eq_def] at h
  simp only [] at h
  split at h
  · obtain ⟨⟨d, behind⟩, hd, hnext⟩ := Except.bind_eq_ok.mp h
    cases hnext
    obtain ⟨us, hts, hus⟩ := ih.definition hd
    exact ⟨us, hts, .value (.column hus)⟩
  · next hnone =>
      split at h
      · next opened us =>
          obtain ⟨⟨ds, behind⟩, hds, hnext⟩ := Except.bind_eq_ok.mp h
          obtain ⟨behind', hclosing, hnext⟩ := Except.bind_eq_ok.mp hnext
          cases hnext
          obtain ⟨closed, rfl⟩ := closing_eq_ok hclosing
          obtain ⟨vs, rfl, hvs⟩ := ih.definitions hds
          exact ⟨⟨.openBracket, opened⟩ :: (vs ++ [⟨.closeBracket, closed⟩]),
            by simp, .value (.columns hvs)⟩
      · next w start us =>
          cases h
          rw [leadingIdentifier?_word hrest] at hnone
          exact ⟨[_], rfl, .word (Option.not_isSome_iff_eq_none.mp hnone)⟩
      · next n start us =>
          obtain ⟨v, hv, heq⟩ := Except.map_eq_ok.mp h
          cases heq
          exact ⟨[_], rfl, .value (.number hv)⟩
      · cases h
        exact ⟨[_], rfl, .value .length⟩
      · cases h
        exact ⟨[_], rfl, .value .quoted⟩
      · cases h

end Sound

theorem sound (finish depth : Nat) : Sound α finish depth := by
  induction depth with
  | zero =>
      constructor
      · intro _ _ _ h; cases h
      · intro _ _ _ h; cases h
      · intro _ _ _ _ h; cases h
      · intro _ _ _ h; cases h
      · intro _ _ _ h; cases h
  | succ depth ih =>
      exact ⟨ih.definitions_succ, ih.definition_succ, ih.arguments_succ,
        ih.argument_succ, ih.literal_succ⟩

end Tabulation.Column
