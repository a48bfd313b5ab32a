import Mathlib
import Tabulation.Proofs.Grammar.Accepts
import Tabulation.Proofs.Grammar.Segments
import Tabulation.Proofs.Options.Values

/-!
# Options that count

An option counts something if its value is a whole number or a text that spells
one. A number is read from a signed numeral of 64 bits, and a text that is read
from such a numeral spells no more than that. Words and lengths have letters in
them and spell nothing. So only a text in quotes can spell the greater half of
the unsigned numbers of 64 bits.
-/

namespace Tabulation.Column

variable {α : Type}

/-! ## Texts that spell a count -/

/-- Digits have no sign in front of them. -/
theorem dropWhile_digits {cs : List Char} (h : cs.all Char.isDigit = true) :
    cs.dropWhile (· = '+') = cs := by
  cases cs with
  | nil => rfl
  | cons c cs =>
      refine List.dropWhile_cons_of_neg fun hc => ?_
      rw [List.all_cons, Bool.and_eq_true, of_decide_eq_true hc] at h
      cases h.1

theorem Value.nat?_text {s : String} {n : Nat} :
    (text s : Value α).nat? = some n ↔
      Decimal.isDigits (s.toList.dropWhile (· = '+')) = true ∧
        n < 2 ^ 64 ∧ Decimal.ofDigits (s.toList.dropWhile (· = '+')) = n := by
  rw [nat?, Decimal.nat64?, String.toList_ofList]
  have hhead := @head?_dropWhile (· = '+') s.toList
  generalize s.toList.dropWhile (· = '+') = digits at hhead ⊢
  split
  · exact absurd (hhead '+' rfl) (by decide)
  · rw [Option.ite_none_right_eq_some]
    refine and_congr_right fun _ => ?_
    show (if _ then _ else _) = _ ↔ _
    rw [Option.ite_none_right_eq_some, Option.some_inj]
    constructor
    · rintro ⟨hlt, rfl⟩
      exact ⟨hlt, rfl⟩
    · rintro ⟨hlt, rfl⟩
      exact ⟨hlt, rfl⟩

theorem Value.isDigit_of_nat? {s : String} {n : Nat}
    (h : (text s : Value α).nat? = some n) :
    ∀ c ∈ s.toList, c = '+' ∨ c.isDigit = true := by
  have hdigits := (isDigits_iff.mp (nat?_text.mp h).1).2
  intro c hc
  rw [← List.takeWhile_append_dropWhile (p := (· = '+')) (l := s.toList),
    List.mem_append] at hc
  refine hc.imp (fun hc => ?_) (List.all_eq_true.mp hdigits c)
  exact of_decide_eq_true (List.mem_takeWhile_imp (p := (· = '+')) hc)

theorem splitSign_cases (cs : List Char) :
    (∃ rest, cs = '-' :: rest) ∨
      (Decimal.splitSign cs).1 = false ∧
        (cs = '+' :: (Decimal.splitSign cs).2 ∨
          cs = (Decimal.splitSign cs).2) := by
  rw [Decimal.splitSign.eq_def]
  split
  · exact .inl ⟨_, rfl⟩
  · exact .inr ⟨rfl, .inl rfl⟩
  · exact .inr ⟨rfl, .inr rfl⟩

/-- What spells a signed whole number and a count spells a small one. -/
theorem Value.nat?_numeral {s : String} {n : Nat} {k : Int}
    (hk : Decimal.int64? s = some k) (h : (text s : Value α).nat? = some n) :
    n < 2 ^ 63 := by
  obtain ⟨_, _, hn⟩ := nat?_text.mp h
  rcases splitSign_cases s.toList with ⟨rest, hminus⟩ | ⟨hsign, hplus⟩
  · have hmem : '-' ∈ s.toList := by
      rw [hminus]
      exact List.mem_cons_self
    have hdigit := isDigit_of_nat? h '-' hmem
    exact absurd hdigit (by decide)
  · rw [Decimal.int64?] at hk
    generalize Decimal.splitSign s.toList = signed at hk hsign hplus
    obtain ⟨_, digits⟩ := signed
    obtain rfl : _ = false := hsign
    simp only [Bool.false_eq_true, if_false] at hk
    obtain ⟨hdigits, hk⟩ := Option.ite_none_right_eq_some.mp hk
    obtain ⟨⟨_, hlt⟩, _⟩ := Option.ite_none_right_eq_some.mp hk
    have hunsigned := dropWhile_digits (isDigits_iff.mp hdigits).2
    have hbehind : s.toList.dropWhile (· = '+') = digits := by
      rcases hplus with hs | hs
      · rw [hs, List.dropWhile_cons_of_pos rfl, hunsigned]
      · rw [hs, hunsigned]
    rw [hbehind] at hn
    rw [hn] at hlt
    exact_mod_cast hlt

theorem int64?_lt {s : String} {k : Int} (h : Decimal.int64? s = some k) :
    k < 2 ^ 63 := by
  rw [Decimal.int64?] at h
  obtain ⟨_, h⟩ := Option.ite_none_right_eq_some.mp h
  obtain ⟨⟨_, hlt⟩, h⟩ := Option.ite_none_right_eq_some.mp h
  cases h
  exact_mod_cast hlt

/-! ## Option lists -/

/-- A value that counts further than a signed numeral does is a text that stands
in quotes among some tokens. -/
def Value.QuotedIfLarge (ts : List Token) (v : Value α) : Prop :=
  ∀ n, v.nat? = some n →
    n < 2 ^ 63 ∨ ∃ s start, v = .text s ∧ ⟨.quoted s, start⟩ ∈ ts

/-- The literals of a phrase that stand in no definition. -/
def Phrase.literals : Phrase α → List (Literal α)
  | .arguments _ as => as.literals
  | .positional l => [l]
  | .named n => n.literal?.toList
  | .value l => [l]
  | .operand l => [l]
  | .definitions _ => []
  | .definition _ => []

theorem NamedArgument.literals_cons (n : NamedArgument α) (as : Arguments α)
    (l : Literal α) :
    l ∈ Arguments.literals { as with named := n :: as.named } ↔
      l ∈ n.literal?.toList ∨ l ∈ as.literals := by
  rw [Arguments.literals, Arguments.literals, List.mem_append, List.mem_append]
  cases n with
  | assign key literal =>
      rw [List.filterMap_cons_some (f := literal?) (b := literal) rfl,
        List.mem_cons, literal?, Option.toList_some, List.mem_singleton]
      exact or_left_comm
  | flag name =>
      rw [List.filterMap_cons_none (f := literal?) rfl]
      exact (or_iff_right nofun).symm

section

variable {ts : List Token}

theorem Value.QuotedIfLarge.uncounted {v : Value α} (h : v.nat? = none) :
    v.QuotedIfLarge ts := by
  intro n hn
  rw [h] at hn
  cases hn

theorem Value.QuotedIfLarge.lettered {s : String} {c : Char}
    (hc : c ∈ s.toList) (hplain : c ≠ '+' ∧ c.isDigit = false) :
    (text s : Value α).QuotedIfLarge ts := by
  intro n hn
  rcases isDigit_of_nat? hn c hc with heq | hdigit
  · exact absurd heq hplain.1
  · rw [hplain.2] at hdigit
    cases hdigit

theorem plain_of_isAlpha {c : Char} (h : c.isAlpha = true) :
    c ≠ '+' ∧ c.isDigit = false := by
  have hnot := not_isNumeric_of_isAlpha h
  rw [isNumeric, Bool.or_eq_false_iff, Bool.or_eq_false_iff,
    Bool.or_eq_false_iff] at hnot
  exact ⟨of_decide_eq_false hnot.1.1.2, hnot.1.1.1⟩

variable [Scalar α]

theorem wordLiteral_quotedIfLarge {w : String} {slice : List Char}
    (hw : Spells (.word w) slice) :
    Yields (Value.QuotedIfLarge (α := α) ts) [wordLiteral w] := by
  refine List.forall_mem_singleton.mpr fun v hv => ?_
  rw [wordLiteral] at hv
  split at hv
  · rw [Value.ofLiteral] at hv
    cases hv
    exact .uncounted rfl
  · split at hv
    · rw [Value.ofLiteral] at hv
      cases hv
      exact .uncounted rfl
    · rw [Value.ofLiteral] at hv
      cases hv
      cases hw with
      | @word c cs hc hcs =>
          rw [isWordStart, Bool.or_eq_true, decide_eq_true_iff] at hc
          refine .lettered (c := c)
            (by rw [String.toList_ofList]; exact List.mem_cons_self) ?_
          rcases hc with halpha | rfl
          · exact plain_of_isAlpha halpha
          · exact ⟨by decide, rfl⟩

theorem numberLiteral_quotedIfLarge {n : String} {start : Nat} {l : Literal α}
    (h : numberLiteral n start = .ok l) :
    Yields (Value.QuotedIfLarge ts) [l] := by
  refine List.forall_mem_singleton.mpr fun v hv => ?_
  rw [numberLiteral] at h
  split at h
  · next hpoint =>
      rw [List.contains_iff_mem] at hpoint
      split at h
      · cases h
      · cases h
        split at hv
        · rw [Value.ofLiteral] at hv
          cases hv
          exact .uncounted rfl
        · rw [Value.ofLiteral] at hv
          cases hv
          exact .lettered hpoint ⟨by decide, rfl⟩
  · split at h
    · cases h
    · next k hk =>
        cases h
        split at hv
        · rw [Value.ofLiteral] at hv
          cases hv
          refine fun m hm => .inl ?_
          have hlt := int64?_lt hk
          rw [Value.nat?] at hm
          obtain ⟨_, hm⟩ := Option.ite_none_right_eq_some.mp hm
          cases hm
          omega
        · rw [Value.ofLiteral] at hv
          cases hv
          exact fun m hm => .inl (Value.nat?_numeral hk hm)

theorem Derives.quotedIfLarge {p : Phrase α} {us : List Token}
    (h : Derives p us) (hus : us ⊆ ts)
    (hspelled : ∀ t ∈ ts, ∃ slice, Spells t.lexeme slice) :
    Yields (Value.QuotedIfLarge ts) p.literals := by
  induction h with
  | lastDefinition => exact nofun
  | moreDefinitions => exact nofun
  | bare => exact nofun
  | empty => exact nofun
  | withArguments => exact nofun
  | lastPositional _ ih => exact ih hus
  | morePositional _ _ ihl ihas =>
      obtain ⟨hl, has⟩ := List.append_subset.mp hus
      exact List.forall_mem_cons.mpr ⟨List.forall_mem_singleton.mp (ihl hl),
        ihas (List.cons_subset.mp has).2⟩
  | @lastNamed _ n _ _ ih =>
      have hliterals := n.literals_cons .none
      rw [Phrase.literals]
      intro l hl
      exact ih hus l (((hliterals l).mp hl).resolve_right nofun)
  | @moreNamed _ n as _ _ _ _ _ ihn ihas =>
      obtain ⟨hn, has⟩ := List.append_subset.mp hus
      intro l hl
      exact ((n.literals_cons as l).mp hl).elim (ihn hn l)
        (ihas (List.cons_subset.mp has).2 l)
  | assign _ ih =>
      exact ih (List.cons_subset.mp (List.cons_subset.mp hus).2).2
  | flag => exact nofun
  | truth =>
      refine List.forall_mem_singleton.mpr fun v hv => ?_
      rw [Value.ofLiteral] at hv
      cases hv
      exact .uncounted rfl
  | positional _ ih => exact ih hus
  | word =>
      obtain ⟨slice, hslice⟩ := hspelled _ (hus List.mem_cons_self)
      exact wordLiteral_quotedIfLarge hslice
  | value _ ih => exact ih hus
  | column =>
      refine List.forall_mem_singleton.mpr fun v hv => ?_
      rw [Value.ofLiteral] at hv
      obtain ⟨_, _, hv⟩ := Except.bind_eq_ok.mp hv
      cases hv
      exact .uncounted rfl
  | columns =>
      refine List.forall_mem_singleton.mpr fun v hv => ?_
      rw [Value.ofLiteral] at hv
      obtain ⟨_, _, hv⟩ := Except.bind_eq_ok.mp hv
      cases hv
      exact .uncounted rfl
  | number hl => exact numberLiteral_quotedIfLarge hl
  | length =>
      obtain ⟨slice, hslice⟩ := hspelled _ (hus List.mem_cons_self)
      refine List.forall_mem_singleton.mpr fun v hv => ?_
      rw [Value.ofLiteral] at hv
      cases hv
      cases hslice with
      | @length number unit _ hne hunit =>
          obtain ⟨c, hc⟩ := List.exists_mem_of_ne_nil unit hne
          refine .lettered (c := c) ?_
            (plain_of_isAlpha (List.all_eq_true.mp hunit c hc))
          rw [String.toList_ofList]
          exact List.mem_append_right _ hc
  | quoted =>
      refine List.forall_mem_singleton.mpr fun v hv => ?_
      rw [Value.ofLiteral] at hv
      cases hv
      exact fun n _ => .inr ⟨_, _, rfl, hus List.mem_cons_self⟩

theorem readAll_tokens {β : Type} {empty b : β}
    {rule : (finish depth : Nat) → List Token → Except Error (β × List Token)}
    {text : String} (h : readAll empty rule text = .ok b) :
    ∃ ts, tokenize text = .ok ts := by
  rw [readAll] at h
  obtain ⟨ts, htokens, _⟩ := Except.bind_eq_ok.mp h
  exact ⟨ts, htokens⟩

/-- An option of which the value is a great number has it in quotes, if that is
so of all that its schema brings in. -/
theorem Schema.parse_quotedIfLarge {s : Schema α} {text : String}
    {options : Entries (Value α)} (h : s.parse text = .ok options)
    (hs : ∀ ts, s.Keeps (Value.QuotedIfLarge ts)) :
    ∃ ts, tokenize text = .ok ts ∧ ∀ e ∈ options, e.2.QuotedIfLarge ts := by
  have hparse := h
  rw [Schema.parse] at hparse
  obtain ⟨_, _, hparse⟩ := Except.bind_eq_ok.mp hparse
  obtain ⟨_, hread, _⟩ := Except.bind_eq_ok.mp hparse
  obtain ⟨ts, htokens⟩ := readAll_tokens hread
  refine ⟨ts, htokens, (hs ts).parse h fun as has => ?_⟩
  rcases (parseArguments_eq_ok htokens).mp has with ⟨_, rfl⟩ | hderives
  · exact List.forall_mem_nil _
  · refine hderives.quotedIfLarge (List.Subset.refl ts) fun t ht => ?_
    obtain ⟨_, slice, _, _, _, hl⟩ :=
      (tokensFrom_eq_ok.mp htokens).begins t ht
    exact ⟨slice, hl.spells⟩

end

end Tabulation.Column
