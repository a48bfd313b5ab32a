import Tabulation.Column.Source
import Tabulation.Proofs.Grammar.Numerals

/-!
# From lexemes to text and back

A lexeme is spelled as the characters that the lexer reads it from. A word or a
number may stand right in front of a mark, of which there are four, but not in
front of another word or number. Lexemes that keep to this are spelled as a text
that the lexer takes apart into just these lexemes.
-/

namespace Tabulation.Column

open Decimal

def Lexeme.spell : Lexeme → List Char
  | .word w => w.toList
  | .number n => n.toList
  | .length s => s.toList
  | .quoted s => (quote s).toList
  | .openBracket => ['[']
  | .closeBracket => [']']
  | .comma => [',']
  | .equals => ['=']

/-- Whether a lexeme is one of the four marks. -/
def Lexeme.isMark : Lexeme → Bool
  | .openBracket => true
  | .closeBracket => true
  | .comma => true
  | .equals => true
  | _ => false

/-- A lexeme other than a mark that the lexer can make. -/
inductive Lexeme.Legible : Lexeme → Prop where
  | word {w : String} {c : Char} {cs : List Char} :
      w.toList = c :: cs → isWordStart c = true → cs.all isWordPart = true →
      Legible (.word w)
  | number {n : String} : IsNumeral n.toList → Legible (.number n)
  | length {s : String} {number unit : List Char} :
      s.toList = number ++ unit → IsNumeral number → unit ≠ [] →
      unit.all Char.isAlpha = true → Legible (.length s)
  | quoted {s : String} : Legible (.quoted s)

/-- Lexemes of which none runs into the next one. -/
inductive Spaced : List Lexeme → Prop where
  | nil : Spaced []
  | mark {m : Lexeme} {ls : List Lexeme} :
      m.isMark = true → Spaced ls → Spaced (m :: ls)
  | last {l : Lexeme} : l.Legible → Spaced [l]
  | leaf {l m : Lexeme} {ls : List Lexeme} :
      l.Legible → m.isMark = true → Spaced ls → Spaced (l :: m :: ls)

theorem Spaced.append {ls ms : List Lexeme} {m : Lexeme} (h : Spaced ls)
    (hm : m.isMark = true) (hms : Spaced ms) : Spaced (ls ++ m :: ms) := by
  induction h with
  | nil => exact .mark hm hms
  | mark hl _ ih => exact .mark hl ih
  | last hl => exact .leaf hl hm hms
  | leaf hl hm' _ ih => exact .leaf hl hm' ih

/-! ## Characters -/

/-- Behind a lexeme stands a mark, or nothing. -/
def AtMark (cs : List Char) : Prop :=
  ∀ c ∈ cs.head?, c ∈ ['[', ']', ',', '=']

theorem AtMark.not {cs : List Char} (h : AtMark cs) {p : Char → Bool}
    (hp : ['[', ']', ',', '='].all (fun c => !p c) = true) :
    ∀ c ∈ cs.head?, p c = false := by
  intro c hc
  have hnot := List.all_eq_true.mp hp c (h c hc)
  rw [Bool.not_eq_true'] at hnot
  exact hnot

/-- No printable character of the seven-bit range is blank. -/
theorem not_isBlank {c : Char} (h : 0x21 ≤ c.toNat) (h' : c.toNat ≤ 0x7E) :
    Text.isBlank c = false := by
  refine Bool.eq_false_iff.mpr fun hblank => ?_
  obtain ⟨r, hr, hlow, hhigh⟩ := Text.isBlank_iff.mp hblank
  have hapart : ∀ r ∈ Text.blankRanges, r.2 < 0x21 ∨ 0x7E < r.1 := by decide
  have hr := hapart r hr
  omega

theorem toNat_of_isDigit {c : Char} (h : c.isDigit = true) :
    0x30 ≤ c.toNat ∧ c.toNat ≤ 0x39 := by
  rw [Char.isDigit, Bool.and_eq_true, decide_eq_true_iff,
    decide_eq_true_iff] at h
  exact h

theorem toNat_of_isAlpha {c : Char} (h : c.isAlpha = true) :
    (0x41 ≤ c.toNat ∧ c.toNat ≤ 0x5A) ∨ (0x61 ≤ c.toNat ∧ c.toNat ≤ 0x7A) := by
  rcases (Bool.or_eq_true c.isUpper c.isLower).mp h with hupper | hlower
  · exact .inl (of_decide_eq_true hupper)
  · obtain ⟨hlow, hhigh⟩ := (Bool.and_eq_true _ _).mp hlower
    exact .inr ⟨of_decide_eq_true hlow, of_decide_eq_true hhigh⟩

theorem not_isBlank_of_isNumeric {c : Char} (h : isNumeric c = true) :
    Text.isBlank c = false := by
  rw [isNumeric, Bool.or_eq_true, Bool.or_eq_true, Bool.or_eq_true,
    decide_eq_true_iff, decide_eq_true_iff, decide_eq_true_iff] at h
  rcases h with ((hd | rfl) | rfl) | rfl
  · have hrange := toNat_of_isDigit hd
    exact not_isBlank (by omega) (by omega)
  · decide
  · decide
  · decide

theorem not_isBlank_of_isAlpha {c : Char} (h : c.isAlpha = true) :
    Text.isBlank c = false := by
  have hrange := toNat_of_isAlpha h
  exact not_isBlank (by omega) (by omega)

theorem not_isNumeric_of_isAlpha {c : Char} (h : c.isAlpha = true) :
    isNumeric c = false := by
  have hrange := toNat_of_isAlpha h
  rw [← Bool.not_eq_true]
  intro hn
  rw [isNumeric, Bool.or_eq_true, Bool.or_eq_true, Bool.or_eq_true,
    decide_eq_true_iff, decide_eq_true_iff, decide_eq_true_iff] at hn
  rcases hn with ((hd | rfl) | rfl) | rfl
  · have hrange' := toNat_of_isDigit hd
    omega
  · cases h
  · cases h
  · cases h

/-- A character that is neither a mark nor a quote. -/
def Unmarked (c : Char) : Prop :=
  c ≠ '[' ∧ c ≠ ']' ∧ c ≠ ',' ∧ c ≠ '=' ∧ ¬(c = '\'' ∨ c = '"')

theorem unmarked_of {c : Char} {p : Char → Bool} (hc : p c = true)
    (hp : ['[', ']', ',', '=', '\'', '"'].all (fun d => !p d) = true) :
    Unmarked c := by
  have hne : ∀ d ∈ ['[', ']', ',', '=', '\'', '"'], c ≠ d := by
    intro d hd heq
    have hnot := List.all_eq_true.mp hp d hd
    rw [← heq, hc] at hnot
    cases hnot
  simp only [List.forall_mem_cons] at hne
  obtain ⟨hopen, hclose, hcomma, hequals, hsingle, hdouble, _⟩ := hne
  exact ⟨hopen, hclose, hcomma, hequals, not_or.mpr ⟨hsingle, hdouble⟩⟩

/-! ## Numbers -/

theorem splitNumber_sign {sign cs : List Char}
    (hsign : sign ∈ [[], ['-'], ['+']])
    (hcs : ∀ us, cs ≠ '-' :: us ∧ cs ≠ '+' :: us) :
    splitNumber (sign ++ cs) =
      (sign ++ (splitNumber cs).1, (splitNumber cs).2) := by
  have hsigned : ∀ c : Char, c = '-' ∨ c = '+' → splitNumber ([c] ++ cs) =
      ([c] ++ (splitNumber cs).1, (splitNumber cs).2) := by
    intro c hc
    cases cs with
    | nil =>
        rw [List.append_nil, splitNumber, splitNumber]
        simp only [if_pos hc]
        rfl
    | cons d us =>
        have hd : ¬(d = '-' ∨ d = '+') := by
          intro hd
          rcases hd with rfl | rfl
          · exact (hcs us).1 rfl
          · exact (hcs us).2 rfl
        rw [List.cons_append, List.nil_append, splitNumber, splitNumber]
        simp only [if_pos hc, if_neg hd]
        rfl
  simp only [List.mem_cons, List.not_mem_nil, or_false] at hsign
  rcases hsign with rfl | rfl | rfl
  · rfl
  · exact hsigned '-' (.inl rfl)
  · exact hsigned '+' (.inr rfl)

theorem splitNumber_whole {whole rest : List Char}
    (hcs : ∀ us, whole ++ rest ≠ '-' :: us ∧ whole ++ rest ≠ '+' :: us)
    (hwhole : whole.all Char.isDigit = true)
    (hrest : ∀ c ∈ rest.head?, c.isDigit = false)
    (hpoint : ∀ r, rest ≠ '.' :: r) :
    splitNumber (whole ++ rest) = (whole, rest) := by
  obtain ⟨htake, hdrop⟩ := takeWhile_exact rest hwhole hrest
  generalize whole ++ rest = cs at hcs htake hdrop
  cases cs with
  | nil =>
      cases htake
      cases hdrop
      rfl
  | cons c us =>
      have hc : ¬(c = '-' ∨ c = '+') := by
        intro hc
        rcases hc with rfl | rfl
        · exact (hcs us).1 rfl
        · exact (hcs us).2 rfl
      rw [splitNumber]
      simp only [if_neg hc, htake, hdrop]
      rw [List.append_nil]
      rfl

theorem splitNumber_pointed {whole places rest : List Char}
    (hcs : ∀ us, whole ++ '.' :: (places ++ rest) ≠ '-' :: us ∧
      whole ++ '.' :: (places ++ rest) ≠ '+' :: us)
    (hwhole : whole.all Char.isDigit = true)
    (hplaces : places.all Char.isDigit = true)
    (hrest : ∀ c ∈ rest.head?, c.isDigit = false) :
    splitNumber (whole ++ '.' :: (places ++ rest)) =
      (whole ++ '.' :: places, rest) := by
  obtain ⟨htake, hdrop⟩ := takeWhile_exact ('.' :: (places ++ rest)) hwhole
    (by intro c hc; cases hc; rfl)
  obtain ⟨htake', hdrop'⟩ := takeWhile_exact rest hplaces hrest
  generalize whole ++ '.' :: (places ++ rest) = cs at hcs htake hdrop
  cases cs with
  | nil => cases hdrop
  | cons c us =>
      have hc : ¬(c = '-' ∨ c = '+') := by
        intro hc
        rcases hc with rfl | rfl
        · exact (hcs us).1 rfl
        · exact (hcs us).2 rfl
      rw [splitNumber]
      simp only [if_neg hc, htake, hdrop, htake', hdrop']
      rfl

/-- A numeral is split off whole if no digit follows, and no point where it has
none itself. -/
theorem IsNumeral.splitNumber {cs rest : List Char} (h : IsNumeral cs)
    (hdigit : ∀ c ∈ rest.head?, c.isDigit = false)
    (hpoint : ∀ c ∈ rest.head?, c = '.' → '.' ∈ cs) :
    splitNumber (cs ++ rest) = (cs, rest) := by
  cases h with
  | @whole sign whole hsign hwhole =>
      have hall := (isDigits_iff.mp hwhole).2
      have hcs := digits_unsigned rest hall (.inl hwhole)
      have hnone : '.' ∉ sign ++ whole := by
        intro hmem
        rcases List.mem_append.mp hmem with hmem | hmem
        · have hsigns : ∀ s ∈ [[], ['-'], ['+']], '.' ∉ s := by decide
          exact hsigns sign hsign hmem
        · exact absurd (List.all_eq_true.mp hall '.' hmem) (by decide)
      rw [List.append_assoc, splitNumber_sign hsign hcs,
        splitNumber_whole hcs hall hdigit fun r hr =>
          hnone (hpoint '.' (by rw [hr]; rfl) rfl)]
  | @pointed sign whole places hsign hwhole hplaces _ =>
      have hcs := digits_unsigned ('.' :: (places ++ rest)) hwhole (.inr rfl)
      rw [List.append_assoc, List.append_assoc, List.cons_append,
        splitNumber_sign hsign hcs,
        splitNumber_pointed hcs hwhole hplaces hdigit]

theorem startsUnsigned_digit {d : Char} (h : d.isDigit = true)
    (rest : List Char) : startsUnsigned (d :: rest) = true := by
  rw [startsUnsigned.eq_def]
  split
  · next heq => cases heq; cases h
  · next heq => cases heq; exact h
  · next heq => cases heq

theorem startsUnsigned_append {cs : List Char} (h : isDigits cs = true)
    (rest : List Char) : startsUnsigned (cs ++ rest) = true := by
  rw [isDigits_iff] at h
  cases cs with
  | nil => exact absurd rfl h.1
  | cons d ds =>
      exact startsUnsigned_digit
        (List.all_eq_true.mp h.2 d List.mem_cons_self) _

theorem startsNumber_append {sign cs : List Char}
    (hsign : sign ∈ [[], ['-'], ['+']])
    (hcs : ∀ us, cs ≠ '-' :: us ∧ cs ≠ '+' :: us)
    (h : startsUnsigned cs = true) : startsNumber (sign ++ cs) = true := by
  simp only [List.mem_cons, List.not_mem_nil, or_false] at hsign
  rcases hsign with rfl | rfl | rfl
  · cases cs with
    | nil => cases h
    | cons c us =>
        have hc : ¬(c = '-' ∨ c = '+') := by
          intro hc
          rcases hc with rfl | rfl
          · exact (hcs us).1 rfl
          · exact (hcs us).2 rfl
        rw [List.nil_append, startsNumber, if_neg hc]
        exact h
  · exact h
  · exact h

/-- A number begins where a numeral does. -/
theorem IsNumeral.startsNumber {cs : List Char} (h : IsNumeral cs)
    (rest : List Char) : startsNumber (cs ++ rest) = true := by
  cases h with
  | @whole sign whole hsign hwhole =>
      have hall := (isDigits_iff.mp hwhole).2
      rw [List.append_assoc]
      exact startsNumber_append hsign (digits_unsigned rest hall (.inl hwhole))
        (startsUnsigned_append hwhole rest)
  | @pointed sign whole places hsign hwhole hplaces hdigits =>
      rw [List.append_assoc, List.append_assoc, List.cons_append]
      refine startsNumber_append hsign
        (digits_unsigned _ hwhole (.inr rfl)) ?_
      cases whole with
      | nil =>
          cases places with
          | nil => cases hdigits
          | cons d ds => exact List.all_eq_true.mp hplaces d List.mem_cons_self
      | cons d ds =>
          exact startsUnsigned_digit
            (List.all_eq_true.mp hwhole d List.mem_cons_self) _

theorem startsNumber_head {c : Char} {rest : List Char}
    (h : startsNumber (c :: rest) = true) : isNumeric c = true := by
  have hdigit : ∀ d : Char, d.isDigit = true → isNumeric d = true := by
    intro d hd
    rw [isNumeric, hd]
    rfl
  rw [startsNumber] at h
  split at h
  · next hc => rcases hc with rfl | rfl <;> rfl
  · rcases startsUnsigned_begins h with ⟨d, us, heq, hd⟩ | ⟨d, us, heq, _⟩
    · cases heq
      exact hdigit c hd
    · cases heq
      rfl

/-! ## Lexemes -/

theorem lexeme_startsNumber {c : Char} {rest number after : List Char}
    (h : startsNumber (c :: rest) = true)
    (hsplit : splitNumber (c :: rest) = (number, after)) :
    Text.isBlank c = false ∧
      lexeme c rest =
        if (after.takeWhile Char.isAlpha).isEmpty then
          .ok (.number (String.ofList number), after)
        else
          .ok (.length (String.ofList (number ++ after.takeWhile Char.isAlpha)),
            after.dropWhile Char.isAlpha) := by
  have hnumeric := startsNumber_head h
  have hword : ¬isWordStart c = true := by
    intro hstart
    rw [isWordStart, Bool.or_eq_true, decide_eq_true_iff] at hstart
    rcases hstart with halpha | rfl
    · rw [not_isNumeric_of_isAlpha halpha] at hnumeric
      cases hnumeric
    · cases hnumeric
  obtain ⟨hopen, hclose, hcomma, hequals, hquote⟩ :=
    unmarked_of hnumeric (by decide)
  refine ⟨not_isBlank_of_isNumeric hnumeric, ?_⟩
  rw [lexeme, if_neg hopen, if_neg hclose, if_neg hcomma, if_neg hequals,
    if_neg hquote, if_neg hword, if_pos h]
  simp only [hsplit]

theorem lexeme_word {c : Char} {cs after : List Char}
    (hc : isWordStart c = true) (hcs : cs.all isWordPart = true)
    (hafter : ∀ d ∈ after.head?, isWordPart d = false) :
    Text.isBlank c = false ∧
      lexeme c (cs ++ after) = .ok (.word (String.ofList (c :: cs)), after) := by
  have hblank : Text.isBlank c = false := by
    rw [isWordStart, Bool.or_eq_true, decide_eq_true_iff] at hc
    rcases hc with halpha | rfl
    · exact not_isBlank_of_isAlpha halpha
    · decide
  obtain ⟨hopen, hclose, hcomma, hequals, hquote⟩ :=
    unmarked_of hc (by decide)
  obtain ⟨htake, hdrop⟩ := takeWhile_exact after hcs hafter
  refine ⟨hblank, ?_⟩
  rw [lexeme, if_neg hopen, if_neg hclose, if_neg hcomma, if_neg hequals,
    if_neg hquote, if_pos hc, htake, hdrop]

theorem splitQuoted_escaped (cs after : List Char) :
    splitQuoted '\'' (cs.flatMap (fun c =>
      if c = '\\' ∨ c = '\'' then ['\\', c] else [c]) ++ '\'' :: after) =
      some (cs, after) := by
  induction cs with
  | nil =>
      cases after with
      | nil => rfl
      | cons => rfl
  | cons c cs ih =>
      rw [List.flatMap_cons, List.append_assoc]
      generalize htail : cs.flatMap _ ++ _ = tail at ih
      split
      · show (splitQuoted '\'' tail).map _ = _
        rw [ih]
        rfl
      · next hc =>
          rw [not_or] at hc
          cases tail with
          | nil => cases ih
          | cons d us =>
              show (if c = '\\' then _ else if c = '\'' then _ else
                (splitQuoted '\'' (d :: us)).map _) = _
              rw [if_neg hc.1, if_neg hc.2, ih]
              rfl

theorem quote_toList (text : String) (after : List Char) :
    (quote text).toList ++ after =
      '\'' :: (text.toList.flatMap (fun c =>
        if c = '\\' ∨ c = '\'' then ['\\', c] else [c]) ++ '\'' :: after) := by
  rw [quote, String.toList_append, String.toList_append, List.append_assoc,
    List.append_assoc, String.toList_ofList, String.toList_ofList]
  rfl

/-- Letters end the number in front of them. -/
theorem head?_letters {unit after : List Char} (hne : unit ≠ [])
    (hunit : unit.all Char.isAlpha = true) :
    ∀ d ∈ (unit ++ after).head?, d.isDigit = false ∧ d ≠ '.' := by
  intro d hd
  cases unit with
  | nil => exact absurd rfl hne
  | cons c cs =>
      cases hd
      have halpha := List.all_eq_true.mp hunit d List.mem_cons_self
      have hnot := not_isNumeric_of_isAlpha halpha
      rw [isNumeric, Bool.or_eq_false_iff, Bool.or_eq_false_iff,
        Bool.or_eq_false_iff] at hnot
      exact ⟨hnot.1.1.1, fun heq => by rw [heq] at halpha; cases halpha⟩

/-- A numeral with letters right behind it is a length. -/
theorem lexeme_numeral {number unit after : List Char}
    (hnumber : IsNumeral number) (hunit : unit.all Char.isAlpha = true)
    (hletter : ∀ d ∈ after.head?, d.isAlpha = false)
    (hdigit : ∀ d ∈ (unit ++ after).head?, d.isDigit = false)
    (hpoint : ∀ d ∈ (unit ++ after).head?, d = '.' → '.' ∈ number) :
    ∃ c rest, number ++ (unit ++ after) = c :: rest ∧
      Text.isBlank c = false ∧
      lexeme c rest =
        if unit.isEmpty then .ok (.number (String.ofList number), after)
        else .ok (.length (String.ofList (number ++ unit)), after) := by
  obtain ⟨htake, hdrop⟩ := takeWhile_exact after hunit hletter
  have hsplit := hnumber.splitNumber hdigit hpoint
  have hstarts := hnumber.startsNumber (unit ++ after)
  generalize number ++ (unit ++ after) = us at hsplit hstarts ⊢
  cases us with
  | nil => cases hstarts
  | cons c rest =>
      have hlexeme := lexeme_startsNumber hstarts hsplit
      rw [htake, hdrop] at hlexeme
      cases unit with
      | nil => exact ⟨c, rest, rfl, hlexeme⟩
      | cons d ds => exact ⟨c, rest, rfl, hlexeme⟩

/-- A lexeme is read where its spelling stands in front of a mark. -/
theorem Lexeme.Legible.lexeme {l : Lexeme} (h : l.Legible) {after : List Char}
    (hafter : AtMark after) :
    ∃ c rest, l.spell ++ after = c :: rest ∧ Text.isBlank c = false ∧
      lexeme c rest = .ok (l, after) := by
  cases h with
  | @word w c cs hw hc hcs =>
      have hlexeme := lexeme_word hc hcs (hafter.not (by decide))
      rw [← hw, String.ofList_toList] at hlexeme
      exact ⟨c, cs ++ after, by rw [spell, hw]; rfl, hlexeme⟩
  | @number n hn =>
      have hpoint : ∀ d ∈ after.head?, d ≠ '.' := fun d hd =>
        of_decide_eq_false (hafter.not (p := fun c => c = '.') (by decide) d hd)
      have hlexeme := @lexeme_numeral _ [] _ hn rfl (hafter.not (by decide))
        (hafter.not (by decide)) fun d hd heq => absurd heq (hpoint d hd)
      rw [String.ofList_toList] at hlexeme
      exact hlexeme
  | @length s number unit hs hn hunit hletters =>
      have hhead := @head?_letters _ after hunit hletters
      have hlexeme := lexeme_numeral hn hletters (hafter.not (by decide))
        (fun d hd => (hhead d hd).1) fun d hd heq => absurd heq (hhead d hd).2
      rw [if_neg (mt List.isEmpty_iff.mp hunit), ← hs, String.ofList_toList,
        ← List.append_assoc, ← hs] at hlexeme
      exact hlexeme
  | @quoted s =>
      refine ⟨'\'', _, quote_toList s after, by decide, ?_⟩
      rw [Column.lexeme, if_neg (by decide), if_neg (by decide),
        if_neg (by decide), if_neg (by decide), if_pos (by decide),
        splitQuoted_escaped]
      exact congrArg (fun text => Except.ok (Lexeme.quoted text, after))
        String.ofList_toList

theorem tokensFrom_lexeme {l : Lexeme} {c : Char} {rest after : List Char}
    {offset : Nat} (hblank : Text.isBlank c = false)
    (h : lexeme c rest = .ok (l, after)) :
    tokensFrom offset (c :: rest) =
      (tokensFrom (offset + (Text.byteLength (c :: rest) -
        Text.byteLength after)) after).map ({ lexeme := l, offset } :: ·) := by
  rw [tokensFrom, if_neg (by rw [hblank]; decide)]
  split
  · next heq => rw [h] at heq; cases heq
  · next heq => rw [h] at heq; cases heq; rfl

/-- The tokens of a text of which the first lexeme is known. -/
theorem tokensFrom_begins {c : Char} {rest after : List Char} {l : Lexeme}
    {offset : Nat} {ts : List Token} (hblank : Text.isBlank c = false)
    (hl : lexeme c rest = .ok (l, after))
    (h : tokensFrom offset (c :: rest) = .ok ts) :
    ∃ next us, ts = ⟨l, offset⟩ :: us ∧ tokensFrom next after = .ok us := by
  rw [tokensFrom_lexeme hblank hl] at h
  obtain ⟨us, hus, rfl⟩ := Except.map_eq_ok.mp h
  exact ⟨_, us, rfl, hus⟩

theorem lexeme_mark {m : Lexeme} (h : m.isMark = true) (after : List Char) :
    ∃ c ∈ ['[', ']', ',', '='], m.spell ++ after = c :: after ∧
      Text.isBlank c = false ∧ lexeme c after = .ok (m, after) := by
  cases m with
  | openBracket => exact ⟨'[', by decide, rfl, by decide, rfl⟩
  | closeBracket => exact ⟨']', by decide, rfl, by decide, rfl⟩
  | comma => exact ⟨',', by decide, rfl, by decide, rfl⟩
  | equals => exact ⟨'=', by decide, rfl, by decide, rfl⟩
  | _ => cases h

/-- A text spelled from lexemes is taken apart into these. -/
theorem tokensFrom_spell {ls : List Lexeme} (h : Spaced ls) (offset : Nat) :
    ∃ ts, tokensFrom offset (ls.flatMap Lexeme.spell) = .ok ts ∧
      ts.map Token.lexeme = ls := by
  have hmark : ∀ (m : Lexeme) (ms : List Lexeme), m.isMark = true →
      (∀ start, ∃ ts, tokensFrom start (ms.flatMap Lexeme.spell) = .ok ts ∧
        ts.map Token.lexeme = ms) →
      ∀ start, ∃ ts, tokensFrom start ((m :: ms).flatMap Lexeme.spell) =
        .ok ts ∧ ts.map Token.lexeme = m :: ms := by
    intro m ms hm ih start
    obtain ⟨c, _, hspell, hblank, hlexeme⟩ :=
      lexeme_mark hm (ms.flatMap Lexeme.spell)
    rw [List.flatMap_cons, hspell, tokensFrom_lexeme hblank hlexeme]
    obtain ⟨ts, hts, hms⟩ := ih _
    rw [hts]
    exact ⟨_, rfl, by rw [List.map_cons, hms]⟩
  have hleaf : ∀ (l : Lexeme) (ms : List Lexeme), l.Legible →
      AtMark (ms.flatMap Lexeme.spell) →
      (∀ start, ∃ ts, tokensFrom start (ms.flatMap Lexeme.spell) = .ok ts ∧
        ts.map Token.lexeme = ms) →
      ∀ start, ∃ ts, tokensFrom start ((l :: ms).flatMap Lexeme.spell) =
        .ok ts ∧ ts.map Token.lexeme = l :: ms := by
    intro l ms hl hat ih start
    obtain ⟨c, rest, hspell, hblank, hlexeme⟩ := hl.lexeme hat
    rw [List.flatMap_cons, hspell, tokensFrom_lexeme hblank hlexeme]
    obtain ⟨ts, hts, hms⟩ := ih _
    rw [hts]
    exact ⟨_, rfl, by rw [List.map_cons, hms]⟩
  have hnil : ∀ start, ∃ ts, tokensFrom start ([] : List Char) = .ok ts ∧
      ts.map Token.lexeme = [] := by
    intro start
    rw [tokensFrom]
    exact ⟨[], rfl, rfl⟩
  induction h generalizing offset with
  | nil => exact hnil offset
  | mark hm _ ih => exact hmark _ _ hm ih offset
  | last hl => exact hleaf _ [] hl (by intro c hc; cases hc) hnil offset
  | @leaf l m ls hl hm _ ih =>
      refine hleaf l (m :: ls) hl ?_ (hmark m ls hm ih) offset
      intro d hd
      obtain ⟨c, hc, hspell, _⟩ := lexeme_mark hm (ls.flatMap Lexeme.spell)
      rw [List.flatMap_cons, hspell] at hd
      cases hd
      exact hc

end Tabulation.Column
