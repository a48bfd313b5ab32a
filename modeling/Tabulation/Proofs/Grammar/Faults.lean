import Tabulation.Column.Grammar
import Tabulation.Proofs.Grammar.Segments

/-!
# Where a text is no list of definitions

What the grammar complains about has a place: it is a token that it was given,
or the end of the text. A rule that reads leaves tokens from the end of those
that it was given, so what is read behind it complains about one of the same
tokens, and steps that do so compose. The rules are taken together, by
induction on the depth. In front of the grammar the lexer complains about a
character, so a text that cannot be read is refused for a fault in a definition
and for nothing else.
-/

namespace Tabulation.Column

/-- The error is a fault at one of the tokens, or at the end. -/
def Located (finish : Nat) (ts : List Token) (e : Error) : Prop :=
  ∃ fault p, e = .definition fault (some p) ∧
    (p = finish ∨ ∃ t ∈ ts, t.offset = p)

theorem Located.mono {finish : Nat} {ts us : List Token} {e : Error}
    (h : Located finish us e) (hsub : us ⊆ ts) : Located finish ts e := by
  obtain ⟨fault, p, rfl, hp⟩ := h
  refine ⟨fault, p, rfl, hp.imp_right ?_⟩
  rintro ⟨t, ht, hp⟩
  exact ⟨t, hsub ht, hp⟩

theorem located_token {finish : Nat} {t : Token} {ts : List Token} (h : t ∈ ts)
    (fault : DefinitionFault) :
    Located finish ts (.definition fault (some t.offset)) :=
  ⟨fault, t.offset, rfl, .inr ⟨t, h, rfl⟩⟩

theorem located_position (finish : Nat) (ts : List Token)
    (fault : DefinitionFault) :
    Located finish ts (.definition fault (some (position finish ts))) := by
  cases ts with
  | nil => exact ⟨fault, finish, rfl, .inl rfl⟩
  | cons t ts => exact located_token List.mem_cons_self fault

/-- What becomes of tokens: some of the last ones are left, or there is a
complaint about one of them. -/
inductive Consumes {β : Type} (finish : Nat) (ts : List Token)
    (left : β → List Token) : Except Error β → Prop where
  | ok {b : β} (h : left b <:+ ts) : Consumes finish ts left (.ok b)
  | error {e : Error} (h : Located finish ts e) :
      Consumes finish ts left (.error e)

namespace Consumes

variable {β γ : Type} {finish : Nat} {ts us : List Token}
  {left : β → List Token} {left' : γ → List Token}

theorem unexpected (finish : Nat) (wanted : Expectation) (ts : List Token)
    (left : β → List Token) :
    Consumes finish ts left (.error (unexpected finish wanted ts)) :=
  .error (located_position finish ts _)

theorem of_suffix {x : Except Error β} (h : Consumes finish us left x)
    (hsub : us <:+ ts) : Consumes finish ts left x := by
  cases h with
  | ok h => exact .ok (h.trans hsub)
  | error h => exact .error (h.mono hsub.subset)

/-- A step behind another one may also complain about what was there before. -/
theorem bind {x : Except Error β} {f : β → Except Error γ}
    (h : Consumes finish ts left x)
    (next : ∀ b, left b <:+ ts → Consumes finish ts left' (f b)) :
    Consumes finish ts left' (x >>= f) := by
  cases h with
  | ok h => exact next _ h
  | error h => exact .error h

theorem map {x : Except Error β} {f : β → γ} (h : Consumes finish ts left x)
    (reads : ∀ b, left' (f b) = left b) :
    Consumes finish ts left' (x >>= fun b => .ok (f b)) := by
  refine h.bind fun b hb => .ok ?_
  rw [reads]
  exact hb

theorem closing (finish : Nat) (ts : List Token) :
    Consumes finish ts id (closing finish ts) := by
  rw [Column.closing.eq_def]
  split
  · exact .ok (List.suffix_cons _ _)
  · exact .unexpected _ _ _ _

end Consumes

variable {α : Type} [Scalar α]

variable (α) in
/-- The rules leave tokens or complain about them, up to a depth. -/
structure Consuming (finish depth : Nat) : Prop where
  definitions : ∀ ts, Consumes finish ts Prod.snd
    (definitions (α := α) finish depth ts)
  definition : ∀ ts, Consumes finish ts Prod.snd
    (definition (α := α) finish depth ts)
  arguments : ∀ named ts, Consumes finish ts Prod.snd
    (arguments (α := α) finish depth named ts)
  argument : ∀ ts, Consumes finish ts Prod.snd
    (argument (α := α) finish depth ts)
  literal : ∀ ts, Consumes finish ts Prod.snd
    (literal (α := α) finish depth ts)

theorem numberLiteral_located {finish : Nat} {ts : List Token} {text : String}
    {start : Nat} (ht : (⟨.number text, start⟩ : Token) ∈ ts) {e : Error}
    (h : numberLiteral (α := α) text start = .error e) :
    Located finish ts e := by
  rw [numberLiteral] at h
  split at h
  · split at h
    · cases h
      exact located_token ht _
    · cases h
  · split at h
    · cases h
      exact located_token ht _
    · cases h

namespace Consuming

variable {finish depth : Nat} (ih : Consuming α finish depth)

include ih

theorem definitions_succ (ts : List Token) : Consumes finish ts Prod.snd
    (Column.definitions (α := α) finish (depth + 1) ts) := by
  rw [Column.definitions]
  refine (ih.definition ts).bind fun b hb => ?_
  obtain ⟨first, rest⟩ := b
  simp only [] at hb ⊢
  split
  · next rest =>
      refine Consumes.of_suffix ?_ ((List.suffix_cons _ _).trans hb)
      exact (ih.definitions rest).map fun _ => rfl
  · exact .ok hb

theorem definition_succ (ts : List Token) : Consumes finish ts Prod.snd
    (Column.definition (α := α) finish (depth + 1) ts) := by
  rw [Column.definition]
  split
  · exact .unexpected _ _ _ _
  · have htail := List.tail_suffix ts
    simp only []
    split
    · next heq =>
        rw [heq] at htail
        exact .ok (((List.suffix_cons _ _).trans (List.suffix_cons _ _)).trans
          htail)
    · next rest _ heq =>
        rw [heq] at htail
        refine Consumes.of_suffix ?_ ((List.suffix_cons _ _).trans htail)
        refine (ih.arguments false rest).bind fun b hb => ?_
        refine Consumes.of_suffix ?_ hb
        exact (Consumes.closing finish b.2).map fun _ => rfl
    · exact .ok htail

theorem arguments_succ (named : Bool) (ts : List Token) :
    Consumes finish ts Prod.snd
      (Column.arguments (α := α) finish (depth + 1) named ts) := by
  rw [Column.arguments]
  refine (ih.argument ts).bind fun b hb => ?_
  obtain ⟨item, rest⟩ := b
  cases item with
  | inl value =>
      cases named with
      | true => exact .error (located_position finish ts _)
      | false =>
          simp only [Bool.false_eq_true, if_false] at hb ⊢
          split
          · next rest =>
              refine Consumes.of_suffix ?_ ((List.suffix_cons _ _).trans hb)
              exact (ih.arguments false rest).map fun _ => rfl
          · exact .ok hb
  | inr item =>
      simp only [] at hb ⊢
      split
      · next rest =>
          refine Consumes.of_suffix ?_ ((List.suffix_cons _ _).trans hb)
          exact (ih.arguments true rest).map fun _ => rfl
      · exact .ok hb

theorem argument_succ (ts : List Token) : Consumes finish ts Prod.snd
    (Column.argument (α := α) finish (depth + 1) ts) := by
  rw [Column.argument.eq_def]
  simp only []
  split
  · next rest =>
      refine Consumes.of_suffix ?_
        ((List.suffix_cons _ _).trans (List.suffix_cons _ _))
      exact (ih.literal rest).map fun _ => rfl
  · split
    · exact .ok (List.suffix_cons _ _)
    · exact (ih.literal _).map fun _ => rfl
  · exact (ih.literal _).map fun _ => rfl

theorem literal_succ (ts : List Token) : Consumes finish ts Prod.snd
    (Column.literal (α := α) finish (depth + 1) ts) := by
  rw [Column.literal.eq_def]
  simp only []
  split
  · exact (ih.definition ts).map fun _ => rfl
  · split
    · next opened rest _ =>
        refine Consumes.of_suffix ?_ (List.suffix_cons _ _)
        refine (ih.definitions rest).bind fun b hb => ?_
        refine Consumes.of_suffix ?_ hb
        exact (Consumes.closing finish b.2).map fun _ => rfl
    · exact .ok (List.suffix_cons _ _)
    · next text start rest _ =>
        cases h : numberLiteral (α := α) text start with
        | ok l => exact .ok (List.suffix_cons _ rest)
        | error e =>
            exact .error (numberLiteral_located List.mem_cons_self h)
    · exact .ok (List.suffix_cons _ _)
    · exact .ok (List.suffix_cons _ _)
    · exact .unexpected _ _ _ _

end Consuming

theorem consuming (finish depth : Nat) : Consuming α finish depth := by
  induction depth with
  | zero =>
      constructor
      · exact fun ts => .unexpected finish _ ts _
      · exact fun ts => .unexpected finish _ ts _
      · exact fun _ ts => .unexpected finish _ ts _
      · exact fun ts => .unexpected finish _ ts _
      · exact fun ts => .unexpected finish _ ts _
  | succ depth ih =>
      exact ⟨ih.definitions_succ, ih.definition_succ, ih.arguments_succ,
        ih.argument_succ, ih.literal_succ⟩

/-- A text that is no list of definitions is refused for a fault at a
character, at a token or at the end. -/
theorem parseDefinitions_error {text : String} {e : Error}
    (h : parseDefinitions (α := α) text = .error e) :
    tokenize text = .error e ∨
      ∃ ts, tokenize text = .ok ts ∧ Located text.utf8ByteSize ts e := by
  rw [parseDefinitions, readAll] at h
  cases htokens : tokenize text with
  | error e' =>
      rw [htokens] at h
      cases h
      exact .inl rfl
  | ok ts =>
      rw [htokens] at h
      refine .inr ⟨ts, rfl, ?_⟩
      cases ts with
      | nil => cases h
      | cons t ts =>
          have hread := (consuming (α := α) text.utf8ByteSize
            (5 * (t :: ts).length + 5)).definitions (t :: ts)
          change (definitions _ _ _ >>= _) = _ at h
          generalize definitions (α := α) _ _ _ = read at hread h
          cases hread with
          | error hlocated => cases h; exact hlocated
          | @ok b hleft =>
              obtain ⟨ds, rest⟩ := b
              cases rest with
              | nil => cases h
              | cons u us =>
                  cases h
                  exact located_token (hleft.subset List.mem_cons_self) _

theorem parseDefinitions_recoverable {text : String} {e : Error}
    (h : parseDefinitions (α := α) text = .error e) :
    e.isRecoverable = true := by
  rcases parseDefinitions_error h with htokens | ⟨_, _, hlocated⟩
  · obtain ⟨_, _, _, _, _, _, _, _, _, rfl⟩ := tokensFrom_error htokens
    rfl
  · obtain ⟨_, _, rfl, _⟩ := hlocated
    rfl

end Tabulation.Column
