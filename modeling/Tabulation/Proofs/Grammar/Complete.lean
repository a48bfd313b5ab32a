import Tabulation.Proofs.Grammar.Sound

/-!
# What is derived is read

Each alternative of the grammar has a lemma that says what its rule does one
level further up, if what stands behind the phrase is what may stand there: a
closing bracket, a comma, or nothing. A rule looks past its own phrase only to
see that. Completeness is then by induction on the derivation. A rule calls
another at most four times before a token is consumed, and `rank` counts how
many of these calls are still to come, so that five calls for each token and
the rank cover the recursion.
-/

namespace Tabulation.Column

variable {α : Type} [Scalar α] {finish depth : Nat}

/-- What may stand behind a list. -/
inductive Closed : List Token → Prop where
  | finish : Closed []
  | bracket {closed : Nat} {ts : List Token} :
      Closed (⟨.closeBracket, closed⟩ :: ts)

/-- What may stand behind a member of a list. -/
inductive Ended : List Token → Prop where
  | last {ts : List Token} : Closed ts → Ended ts
  | comma {comma : Nat} {ts : List Token} : Ended (⟨.comma, comma⟩ :: ts)

theorem Ended.unassigned {ts : List Token} (h : Ended ts) :
    Unassigned ts := by
  rcases h with h | _
  · cases h <;> rintro _ _ ⟨⟩
  · intro _ _ heq
    cases heq

theorem definitions_last {ts rest : List Token} {d : Definition α}
    (hd : definition finish depth ts = .ok (d, rest)) (hrest : Closed rest) :
    definitions finish (depth + 1) ts = .ok ([d], rest) := by
  rw [definitions, hd]
  cases hrest <;> rfl

theorem definitions_more {ts us rest : List Token} {comma : Nat}
    {d : Definition α} {ds : List (Definition α)}
    (hd : definition finish depth ts = .ok (d, ⟨.comma, comma⟩ :: us))
    (hds : definitions finish depth us = .ok (ds, rest)) :
    definitions finish (depth + 1) ts = .ok (d :: ds, rest) := by
  rw [definitions, hd]
  show (definitions finish depth us >>= _) = _
  rw [hds]
  rfl

theorem definition_bare {w : String} {c : Char} {start : Nat}
    {rest : List Token} (hw : identifier? w = some c) (hrest : Ended rest) :
    definition (α := α) finish (depth + 1) (⟨.word w, start⟩ :: rest) =
      .ok (⟨c, .none, start⟩, rest) := by
  rw [definition, leadingIdentifier?_word hrest.unassigned, hw]
  rcases hrest with hrest | _
  · cases hrest <;> rfl
  · rfl

theorem definition_empty {w : String} {c : Char} {start opened closed : Nat}
    {rest : List Token} (hw : identifier? w = some c) :
    definition (α := α) finish (depth + 1)
        (⟨.word w, start⟩ :: ⟨.openBracket, opened⟩ ::
          ⟨.closeBracket, closed⟩ :: rest) =
      .ok (⟨c, .none, start⟩, rest) := by
  have hopen : Unassigned
      (⟨.openBracket, opened⟩ :: ⟨.closeBracket, closed⟩ :: rest) := by
    intro _ _ heq
    cases heq
  rw [definition, leadingIdentifier?_word hopen, hw]
  rfl

theorem arguments_closeBracket (named : Bool) (closed : Nat)
    (ts : List Token) :
    ∃ e, arguments (α := α) finish depth named
      (⟨.closeBracket, closed⟩ :: ts) = .error e := by
  match depth with
  | 0 => exact ⟨_, rfl⟩
  | 1 => exact ⟨_, rfl⟩
  | 2 => exact ⟨_, rfl⟩
  | depth + 3 => exact ⟨_, rfl⟩

theorem definition_arguments {w : String} {c : Char}
    {start opened closed : Nat} {ts rest : List Token} {as : Arguments α}
    (hw : identifier? w = some c)
    (has : arguments finish depth false ts =
      .ok (as, ⟨.closeBracket, closed⟩ :: rest)) :
    definition finish (depth + 1)
        (⟨.word w, start⟩ :: ⟨.openBracket, opened⟩ :: ts) =
      .ok (⟨c, as, start⟩, rest) := by
  have hopen : Unassigned (⟨.openBracket, opened⟩ :: ts) := by
    intro _ _ heq
    cases heq
  have hts : ∀ o us, ts ≠ ⟨.closeBracket, o⟩ :: us := by
    intro o us heq
    subst heq
    obtain ⟨e, he⟩ := arguments_closeBracket (α := α) false o us
    rw [he] at has
    cases has
  rw [definition, leadingIdentifier?_word hopen, hw]
  simp only [List.tail_cons, position]
  rw [has]
  rfl

theorem arguments_lastPositional {ts rest : List Token} {l : Literal α}
    (hl : argument finish depth ts = .ok (.inl l, rest))
    (hrest : Closed rest) :
    arguments finish (depth + 1) false ts = .ok (⟨[l], []⟩, rest) := by
  rw [arguments, hl]
  cases hrest <;> rfl

theorem arguments_morePositional {ts us rest : List Token} {comma : Nat}
    {l : Literal α} {as : Arguments α}
    (hl : argument finish depth ts = .ok (.inl l, ⟨.comma, comma⟩ :: us))
    (has : arguments finish depth false us = .ok (as, rest)) :
    arguments finish (depth + 1) false ts =
      .ok ({ as with positional := l :: as.positional }, rest) := by
  rw [arguments, hl]
  show (arguments finish depth false us >>= _) = _
  rw [has]
  rfl

theorem arguments_lastNamed {named : Bool} {ts rest : List Token}
    {n : NamedArgument α}
    (hn : argument finish depth ts = .ok (.inr n, rest))
    (hrest : Closed rest) :
    arguments finish (depth + 1) named ts = .ok (⟨[], [n]⟩, rest) := by
  rw [arguments, hn]
  cases hrest <;> rfl

theorem arguments_moreNamed {named : Bool} {ts us rest : List Token}
    {comma : Nat} {n : NamedArgument α} {as : Arguments α}
    (hn : argument finish depth ts = .ok (.inr n, ⟨.comma, comma⟩ :: us))
    (has : arguments finish depth true us = .ok (as, rest)) :
    arguments finish (depth + 1) named ts =
      .ok ({ as with named := n :: as.named }, rest) := by
  rw [arguments, hn]
  show (arguments finish depth true us >>= _) = _
  rw [has]
  rfl

theorem argument_assign {w : String} {start equals : Nat}
    {ts rest : List Token} {l : Literal α}
    (hl : literal finish depth ts = .ok (l, rest)) :
    argument finish (depth + 1)
        (⟨.word w, start⟩ :: ⟨.equals, equals⟩ :: ts) =
      .ok (.inr (.assign (storedKey w) l), rest) := by
  rw [argument, hl]
  rfl

theorem argument_flag {w : String} {start : Nat} {rest : List Token}
    (hw : identifier? w = none) (ht : truth? w = none)
    (hrest : Unassigned rest) :
    argument (α := α) finish (depth + 1) (⟨.word w, start⟩ :: rest) =
      .ok (.inr (.flag (storedKey w)), rest) := by
  rw [argument, hw, ht]
  · rfl
  · exact hrest

/-- An argument that is neither assigned nor a flag is what the rule for values
reads. -/
theorem argument_value {ts rest : List Token} {l : Literal α}
    (hword : ∀ w start us, ts = ⟨.word w, start⟩ :: us → Unassigned us ∧
      ((identifier? w).isNone && (truth? w).isNone) = false)
    (hl : literal finish depth ts = .ok (l, rest)) :
    argument finish (depth + 1) ts = .ok (.inl l, rest) := by
  rw [argument.eq_def]
  simp only []
  split
  · next w start equals us =>
      exact absurd rfl ((hword w start _ rfl).1 equals us)
  · next w start us _ =>
      rw [(hword w start us rfl).2, hl]
      rfl
  · rw [hl]
    rfl

theorem literal_word {w : String} {start : Nat} {rest : List Token}
    (hw : identifier? w = none) (hrest : Unassigned rest) :
    literal (α := α) finish (depth + 1) (⟨.word w, start⟩ :: rest) =
      .ok (wordLiteral w, rest) := by
  rw [literal.eq_def]
  simp only [leadingIdentifier?_word hrest, hw]
  rfl

theorem literal_column {c : Char} {ts rest : List Token} {d : Definition α}
    (hc : leadingIdentifier? ts = some c)
    (hd : definition finish depth ts = .ok (d, rest)) :
    literal finish (depth + 1) ts = .ok (.column d, rest) := by
  rw [literal.eq_def]
  simp only [hc, hd]
  rfl

theorem literal_columns {opened closed : Nat} {ts rest : List Token}
    {ds : List (Definition α)}
    (hds : definitions finish depth ts =
      .ok (ds, ⟨.closeBracket, closed⟩ :: rest)) :
    literal finish (depth + 1) (⟨.openBracket, opened⟩ :: ts) =
      .ok (.columns ds, rest) := by
  rw [literal.eq_def]
  show (definitions finish depth ts >>= _) = _
  rw [hds]
  rfl

theorem literal_number {n : String} {start : Nat} {l : Literal α}
    {rest : List Token} (hn : numberLiteral n start = .ok l) :
    literal finish (depth + 1) (⟨.number n, start⟩ :: rest) =
      .ok (l, rest) := by
  rw [literal.eq_def]
  show (numberLiteral n start).map _ = _
  rw [hn]
  rfl

/-- What may stand behind a phrase. -/
def Phrase.Follows : Phrase α → List Token → Prop
  | .definitions _, rest => Closed rest
  | .arguments _ _, rest => Closed rest
  | _, rest => Ended rest

/-- The rule for a phrase reads it off the tokens and leaves the rest. -/
def Phrase.Read (finish depth : Nat) :
    Phrase α → List Token → List Token → Prop
  | .definitions ds, ts, rest =>
      Column.definitions finish depth ts = .ok (ds, rest)
  | .definition d, ts, rest =>
      Column.definition finish depth ts = .ok (d, rest)
  | .arguments after as, ts, rest =>
      Column.arguments finish depth after ts = .ok (as, rest)
  | .positional l, ts, rest => argument finish depth ts = .ok (.inl l, rest)
  | .named n, ts, rest => argument finish depth ts = .ok (.inr n, rest)
  | .value l, ts, rest => literal finish depth ts = .ok (l, rest)
  | .operand l, ts, rest => literal finish depth ts = .ok (l, rest)

/-- The calls of the rule for a phrase before a token is consumed. -/
def Phrase.rank : Phrase α → Nat
  | .definition _ => 1
  | .definitions _ => 2
  | .value _ => 2
  | .operand _ => 2
  | .positional _ => 3
  | .named _ => 3
  | .arguments _ _ => 4

/-- A definition begins with its identifier, and no equals sign follows. -/
theorem Derives.leadingIdentifier? {d : Definition α} {ts rest : List Token}
    (h : Derives (.definition d) ts) (hrest : Ended rest) :
    leadingIdentifier? (ts ++ rest) = some d.identifier := by
  cases h with
  | bare hw => exact (leadingIdentifier?_word hrest.unassigned).trans hw
  | empty hw =>
      refine (leadingIdentifier?_word ?_).trans hw
      intro _ _ heq
      cases heq
  | withArguments hw _ =>
      refine (leadingIdentifier?_word ?_).trans hw
      intro _ _ heq
      cases heq

/-- An operand is a word only if it is a definition. -/
theorem Derives.operand_word {l : Literal α} {ts rest us : List Token}
    {w : String} {start : Nat} (h : Derives (.operand l) ts)
    (hrest : Ended rest) (heq : ts ++ rest = ⟨.word w, start⟩ :: us) :
    Unassigned us ∧ ((identifier? w).isNone && (truth? w).isNone) = false := by
  cases h with
  | column hd =>
      have hlead := hd.leadingIdentifier? hrest
      rw [heq] at hlead
      obtain ⟨w', start', us', heq', hw, hus⟩ :=
        leadingIdentifier?_eq_some hlead
      cases heq'
      rw [hw]
      exact ⟨hus, rfl⟩
  | columns => cases heq
  | number => cases heq
  | length => cases heq
  | quoted => cases heq

theorem identifier?_of_truth? {w : String} {b : Bool}
    (h : truth? w = some b) : identifier? w = none := by
  rw [truth?] at h
  split at h
  · next hw => rcases hw with rfl | rfl <;> rfl
  · split at h
    · next hw => rcases hw with rfl | rfl <;> rfl
    · cases h

theorem complete {p : Phrase α} {ts : List Token} (h : Derives p ts)
    {rest : List Token} (hrest : p.Follows rest)
    (hdepth : 5 * ts.length + p.rank ≤ depth) :
    p.Read finish depth (ts ++ rest) rest := by
  induction h generalizing rest depth with
  | lastDefinition hd ih =>
      simp only [Phrase.rank] at hdepth ih
      obtain ⟨depth, rfl⟩ : ∃ n, depth = n + 1 := ⟨depth - 1, by omega⟩
      exact definitions_last (ih (.last hrest) (by omega)) hrest
  | @moreDefinitions d ds ts us comma hd hds ihd ihds =>
      simp only [Phrase.rank, List.length_append, List.length_cons]
        at hdepth ihd ihds
      obtain ⟨depth, rfl⟩ : ∃ n, depth = n + 1 := ⟨depth - 1, by omega⟩
      rw [List.append_assoc]
      exact definitions_more (ihd .comma (by omega)) (ihds hrest (by omega))
  | bare hw =>
      simp only [Phrase.rank] at hdepth
      obtain ⟨depth, rfl⟩ : ∃ n, depth = n + 1 := ⟨depth - 1, by omega⟩
      exact definition_bare hw hrest
  | empty hw =>
      simp only [Phrase.rank] at hdepth
      obtain ⟨depth, rfl⟩ : ∃ n, depth = n + 1 := ⟨depth - 1, by omega⟩
      exact definition_empty hw
  | withArguments hw has ih =>
      simp only [Phrase.rank, List.length_append, List.length_cons]
        at hdepth ih
      obtain ⟨depth, rfl⟩ : ∃ n, depth = n + 1 := ⟨depth - 1, by omega⟩
      rw [List.cons_append, List.cons_append, List.append_assoc]
      exact definition_arguments hw (ih .bracket (by omega))
  | lastPositional hl ih =>
      simp only [Phrase.rank] at hdepth ih
      obtain ⟨depth, rfl⟩ : ∃ n, depth = n + 1 := ⟨depth - 1, by omega⟩
      exact arguments_lastPositional (ih (.last hrest) (by omega)) hrest
  | morePositional hl has ihl ihas =>
      simp only [Phrase.rank, List.length_append, List.length_cons]
        at hdepth ihl ihas
      obtain ⟨depth, rfl⟩ : ∃ n, depth = n + 1 := ⟨depth - 1, by omega⟩
      rw [List.append_assoc]
      exact arguments_morePositional (ihl .comma (by omega))
        (ihas hrest (by omega))
  | lastNamed hn ih =>
      simp only [Phrase.rank] at hdepth ih
      obtain ⟨depth, rfl⟩ : ∃ n, depth = n + 1 := ⟨depth - 1, by omega⟩
      exact arguments_lastNamed (ih (.last hrest) (by omega)) hrest
  | moreNamed hn has ihn ihas =>
      simp only [Phrase.rank, List.length_append, List.length_cons]
        at hdepth ihn ihas
      obtain ⟨depth, rfl⟩ : ∃ n, depth = n + 1 := ⟨depth - 1, by omega⟩
      rw [List.append_assoc]
      exact arguments_moreNamed (ihn .comma (by omega))
        (ihas hrest (by omega))
  | assign hl ih =>
      simp only [Phrase.rank, List.length_cons] at hdepth ih
      obtain ⟨depth, rfl⟩ : ∃ n, depth = n + 1 := ⟨depth - 1, by omega⟩
      exact argument_assign (ih hrest (by omega))
  | flag hw ht =>
      simp only [Phrase.rank] at hdepth
      obtain ⟨depth, rfl⟩ : ∃ n, depth = n + 1 := ⟨depth - 1, by omega⟩
      exact argument_flag hw ht hrest.unassigned
  | @truth w b start hb =>
      simp only [Phrase.rank, List.length_singleton] at hdepth
      obtain ⟨depth, rfl⟩ : ∃ n, depth = n + 2 := ⟨depth - 2, by omega⟩
      refine argument_value ?_ ?_
      · intro w' start' us heq
        cases heq
        rw [hb, Option.isNone_some, Bool.and_false]
        exact ⟨hrest.unassigned, rfl⟩
      · have hw := identifier?_of_truth? hb
        have hl : literal (α := α) finish (depth + 1)
            (⟨.word w, start⟩ :: rest) = .ok (wordLiteral w, rest) :=
          literal_word hw hrest.unassigned
        rw [wordLiteral, hb] at hl
        exact hl
  | positional hl ih =>
      simp only [Phrase.rank] at hdepth ih
      obtain ⟨depth, rfl⟩ : ∃ n, depth = n + 1 := ⟨depth - 1, by omega⟩
      refine argument_value ?_ (ih hrest (by omega))
      intro w start us heq
      exact hl.operand_word hrest heq
  | word hw =>
      simp only [Phrase.rank] at hdepth
      obtain ⟨depth, rfl⟩ : ∃ n, depth = n + 1 := ⟨depth - 1, by omega⟩
      exact literal_word hw hrest.unassigned
  | value hl ih => exact ih hrest hdepth
  | column hd ih =>
      simp only [Phrase.rank] at hdepth ih
      obtain ⟨depth, rfl⟩ : ∃ n, depth = n + 1 := ⟨depth - 1, by omega⟩
      exact literal_column (hd.leadingIdentifier? hrest)
        (ih hrest (by omega))
  | columns hds ih =>
      simp only [Phrase.rank, List.length_append, List.length_cons]
        at hdepth ih
      obtain ⟨depth, rfl⟩ : ∃ n, depth = n + 1 := ⟨depth - 1, by omega⟩
      rw [List.cons_append, List.append_assoc]
      exact literal_columns (ih .bracket (by omega))
  | number hn =>
      simp only [Phrase.rank] at hdepth
      obtain ⟨depth, rfl⟩ : ∃ n, depth = n + 1 := ⟨depth - 1, by omega⟩
      exact literal_number hn
  | length =>
      simp only [Phrase.rank] at hdepth
      obtain ⟨depth, rfl⟩ : ∃ n, depth = n + 1 := ⟨depth - 1, by omega⟩
      rfl
  | quoted =>
      simp only [Phrase.rank] at hdepth
      obtain ⟨depth, rfl⟩ : ∃ n, depth = n + 1 := ⟨depth - 1, by omega⟩
      rfl

end Tabulation.Column
