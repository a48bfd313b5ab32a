import Tabulation.Proofs.Outcome
import Tabulation.Proofs.Source.Spelling

/-!
# A text is its tokens and blanks

What the lexer reads can be said without the lexer. A lexeme is spelled by
characters that stand next to each other, and a text is cut into blanks and
spellings, of which none is followed by a character that would have belonged to
it. `Segmented` says so with the offset of each token, and the lexer answers
with some tokens exactly if the text is cut into these, so it neither drops nor
doubles a character. Where it stops, the text in front is cut up already: what
follows a lexeme matters for its first character only, and at the end of a text
there is none.
-/

namespace Tabulation.Column

open Text

/-! ## Spellings -/

/-- The text between quotes and what it stands for: a backslash takes the next
character as it is. -/
inductive Unescapes (quote : Char) : List Char → List Char → Prop where
  | nil : Unescapes quote [] []
  | escaped {c : Char} {body payload : List Char}
      (h : Unescapes quote body payload) :
      Unescapes quote ('\\' :: c :: body) (c :: payload)
  | plain {c : Char} {body payload : List Char} (hescape : c ≠ '\\')
      (hquote : c ≠ quote) (h : Unescapes quote body payload) :
      Unescapes quote (c :: body) (c :: payload)

/-- A lexeme and the characters that it is the reading of. -/
inductive Spells : Lexeme → List Char → Prop where
  | word {c : Char} {cs : List Char} (hc : isWordStart c = true)
      (hcs : cs.all isWordPart = true) :
      Spells (.word (String.ofList (c :: cs))) (c :: cs)
  | number {cs : List Char} (h : IsNumeral cs) :
      Spells (.number (String.ofList cs)) cs
  | length {number unit : List Char} (h : IsNumeral number) (hne : unit ≠ [])
      (hunit : unit.all Char.isAlpha = true) :
      Spells (.length (String.ofList (number ++ unit))) (number ++ unit)
  | quoted {quote : Char} {body payload : List Char}
      (hquote : quote = '\'' ∨ quote = '"') (h : Unescapes quote body payload) :
      Spells (.quoted (String.ofList payload)) (quote :: (body ++ [quote]))
  | openBracket : Spells .openBracket ['[']
  | closeBracket : Spells .closeBracket [']']
  | comma : Spells .comma [',']
  | equals : Spells .equals ['=']

/-- Whether a character behind a lexeme would have been read into it. -/
def Lexeme.takes (slice : List Char) (d : Char) : Lexeme → Bool
  | .word _ => isWordPart d
  | .number _ => d.isDigit || d.isAlpha || (d = '.' && !slice.contains '.')
  | .length _ => d.isAlpha
  | _ => false

/-- A lexeme that is spelled in front of a text, and ends there. -/
structure Begins (l : Lexeme) (slice after : List Char) : Prop where
  spells : Spells l slice
  ends : ∀ d ∈ after.head?, l.takes slice d = false

/-- What follows may be cut off. -/
theorem Begins.truncate {l : Lexeme} {slice after before : List Char}
    (h : Begins l slice (before ++ after)) : Begins l slice before := by
  refine ⟨h.spells, fun d hd => h.ends d ?_⟩
  rw [List.head?_append, Option.mem_def.mp hd]
  rfl

theorem head?_dropWhile {p : Char → Bool} {cs : List Char} :
    ∀ d ∈ (cs.dropWhile p).head?, p d = false := by
  intro d hd
  have hnot := List.head?_dropWhile_not p cs
  rw [Option.mem_def.mp hd] at hnot
  exact hnot

theorem splitQuoted_eq_some {quote : Char} (hquote : quote ≠ '\\')
    {cs payload after : List Char} :
    splitQuoted quote cs = some (payload, after) ↔
      ∃ body, cs = body ++ quote :: after ∧ Unescapes quote body payload := by
  constructor
  · intro h
    fun_induction splitQuoted quote cs generalizing payload after with
    | case1 => cases h
    | case2 => cases h; exact ⟨[], rfl, .nil⟩
    | case3 => cases h
    | case4 d rest ih =>
        obtain ⟨⟨_, _⟩, hrest, heq⟩ := Option.map_eq_some_iff.mp h
        cases heq
        obtain ⟨body, rfl, hbody⟩ := ih hrest
        exact ⟨_, rfl, .escaped hbody⟩
    | case5 => cases h; exact ⟨[], rfl, .nil⟩
    | case6 c d rest hescape hc ih =>
        obtain ⟨⟨_, _⟩, hrest, heq⟩ := Option.map_eq_some_iff.mp h
        cases heq
        obtain ⟨body, htail, hbody⟩ := ih hrest
        exact ⟨c :: body, by rw [htail]; rfl, .plain hescape hc hbody⟩
  · rintro ⟨body, rfl, h⟩
    induction h with
    | nil =>
        cases after with
        | nil => rw [List.nil_append, splitQuoted, if_pos rfl]
        | cons d rest =>
            rw [List.nil_append, splitQuoted, if_neg hquote, if_pos rfl]
    | escaped _ ih =>
        rw [List.cons_append, List.cons_append, splitQuoted, if_pos rfl, ih]
        rfl
    | @plain c body payload hescape hc _ ih =>
        rw [List.cons_append]
        generalize body ++ quote :: after = tail at ih ⊢
        cases tail with
        | nil => cases ih
        | cons d rest =>
            rw [splitQuoted, if_neg hescape, if_neg hc, ih]
            rfl

/-- The digits of a number, the point and the digits behind it are what they are
split from. -/
theorem splitPlaces {cs places rest : List Char}
    (h : (match cs.dropWhile Char.isDigit with
      | '.' :: r => ('.' :: r.takeWhile Char.isDigit, r.dropWhile Char.isDigit)
      | r => ([], r)) = (places, rest)) :
    cs = cs.takeWhile Char.isDigit ++ places ++ rest ∧
      ∀ d ∈ rest.head?, d.isDigit = false ∧ (d = '.' → '.' ∈ places) := by
  have hcs := List.takeWhile_append_dropWhile (p := Char.isDigit) (l := cs)
  split at h
  · next r hr =>
      cases h
      refine ⟨?_, fun d hd =>
        ⟨head?_dropWhile d hd, fun _ => List.mem_cons_self⟩⟩
      rw [List.append_assoc, List.cons_append, List.takeWhile_append_dropWhile,
        ← hr, hcs]
  · next hr =>
      cases h
      refine ⟨by rw [List.append_nil, hcs], fun d hd =>
        ⟨head?_dropWhile d hd, ?_⟩⟩
      rintro rfl
      obtain ⟨r, heq⟩ := List.head?_eq_some_iff.mp hd
      exact absurd heq (hr r)

theorem splitNumber_eq {cs number rest : List Char}
    (h : splitNumber cs = (number, rest)) :
    cs = number ++ rest ∧
      ∀ d ∈ rest.head?, d.isDigit = false ∧ (d = '.' → '.' ∈ number) := by
  cases cs with
  | nil => cases h; exact ⟨rfl, nofun⟩
  | cons c cs =>
      rw [splitNumber] at h
      by_cases hc : c = '-' ∨ c = '+'
      · simp only [if_pos hc] at h
        obtain ⟨hnumber, rfl⟩ := Prod.mk.inj h
        obtain ⟨hcs, hends⟩ := @splitPlaces cs _ _ rfl
        rw [← hnumber]
        exact ⟨congrArg (List.cons c) hcs, fun d hd => ⟨(hends d hd).1,
          fun heq => List.mem_append_right _ ((hends d hd).2 heq)⟩⟩
      · simp only [if_neg hc] at h
        obtain ⟨hnumber, rfl⟩ := Prod.mk.inj h
        obtain ⟨hcs, hends⟩ := @splitPlaces (c :: cs) _ _ rfl
        rw [← hnumber]
        exact ⟨hcs, fun d hd => ⟨(hends d hd).1,
          fun heq => List.mem_append_right _ ((hends d hd).2 heq)⟩⟩

theorem lexeme_quote {quote : Char} (hquote : quote = '\'' ∨ quote = '"')
    (rest : List Char) : quote ≠ '\\' ∧ lexeme quote rest =
      match splitQuoted quote rest with
      | some (payload, after) => .ok (.quoted (String.ofList payload), after)
      | none => .error (.unterminated quote) := by
  rcases hquote with rfl | rfl
  · exact ⟨by decide, rfl⟩
  · exact ⟨by decide, rfl⟩

/-- What is read where a number begins. -/
theorem number_begins {c : Char} {rest after : List Char} {l : Lexeme}
    (hstarts : startsNumber (c :: rest) = true)
    (h : lexeme c rest = .ok (l, after)) :
    ∃ slice, c :: rest = slice ++ after ∧ Begins l slice after := by
  have hnumeral := splitNumber_isNumeral hstarts
  obtain ⟨number, behind, hsplit⟩ :
      ∃ number behind, splitNumber (c :: rest) = (number, behind) := ⟨_, _, rfl⟩
  obtain ⟨htext, hends⟩ := splitNumber_eq hsplit
  rw [(lexeme_startsNumber hstarts hsplit).2] at h
  rw [hsplit] at hnumeral
  have hunit := List.takeWhile_append_dropWhile (p := Char.isAlpha)
    (l := behind)
  rw [htext]
  split at h
  · next hempty =>
      cases h
      rw [List.isEmpty_iff] at hempty
      rw [hempty, List.nil_append] at hunit
      refine ⟨number, rfl, .number hnumeral, fun d hd => ?_⟩
      obtain ⟨hdigit, hpoint⟩ := hends d hd
      rw [← hunit] at hd
      rw [Lexeme.takes, hdigit, head?_dropWhile d hd, Bool.or_false,
        Bool.false_or, Bool.and_eq_false_imp, decide_eq_true_iff,
        Bool.not_eq_false', List.contains_iff_mem]
      exact hpoint
  · next hne =>
      cases h
      refine ⟨number ++ behind.takeWhile Char.isAlpha, ?_,
        .length hnumeral (mt List.isEmpty_iff.mpr hne) List.all_takeWhile,
        head?_dropWhile⟩
      rw [List.append_assoc, hunit]

theorem lexeme_begins {c : Char} {rest after : List Char} {l : Lexeme}
    (h : lexeme c rest = .ok (l, after)) :
    ∃ slice, c :: rest = slice ++ after ∧ Begins l slice after := by
  have hread := h
  rw [lexeme] at h
  split at h
  · next hc =>
      cases h
      exact ⟨['['], by rw [hc]; rfl, .openBracket, fun _ _ => rfl⟩
  split at h
  · next hc =>
      cases h
      exact ⟨[']'], by rw [hc]; rfl, .closeBracket, fun _ _ => rfl⟩
  split at h
  · next hc =>
      cases h
      exact ⟨[','], by rw [hc]; rfl, .comma, fun _ _ => rfl⟩
  split at h
  · next hc =>
      cases h
      exact ⟨['='], by rw [hc]; rfl, .equals, fun _ _ => rfl⟩
  split at h
  · next hquote =>
      obtain ⟨hescape, -⟩ := lexeme_quote hquote rest
      split at h
      · next payload behind hsplit =>
          cases h
          obtain ⟨body, rfl, hbody⟩ := (splitQuoted_eq_some hescape).mp hsplit
          refine ⟨c :: (body ++ [c]), ?_, .quoted hquote hbody, fun _ _ => rfl⟩
          rw [List.cons_append, List.append_assoc, List.singleton_append]
      · cases h
  split at h
  · next hstart =>
      cases h
      refine ⟨c :: rest.takeWhile isWordPart, ?_,
        .word hstart List.all_takeWhile, head?_dropWhile⟩
      rw [List.cons_append, List.takeWhile_append_dropWhile]
  split at h
  · next hstarts => exact number_begins hstarts hread
  · cases h

/-- A text that begins with a lexeme is not blank there, and the lexeme is what
is read off it. -/
theorem Begins.lexeme {l : Lexeme} {slice after : List Char}
    (h : Begins l slice after) :
    ∃ c rest, slice ++ after = c :: rest ∧ isBlank c = false ∧
      lexeme c rest = .ok (l, after) := by
  obtain ⟨hspells, hends⟩ := h
  cases hspells with
  | word hc hcs => exact ⟨_, _, rfl, lexeme_word hc hcs hends⟩
  | number hnumeral =>
      have htakes : ∀ d ∈ after.head?, d.isDigit = false ∧
          d.isAlpha = false ∧ (d = '.' → '.' ∈ slice) := by
        intro d hd
        have hnot := hends d hd
        rw [Lexeme.takes, Bool.or_eq_false_iff, Bool.or_eq_false_iff,
          Bool.and_eq_false_imp, decide_eq_true_iff, Bool.not_eq_false',
          List.contains_iff_mem] at hnot
        exact ⟨hnot.1.1, hnot.1.2, hnot.2⟩
      exact @lexeme_numeral _ [] after hnumeral rfl
        (fun d hd => (htakes d hd).2.1) (fun d hd => (htakes d hd).1)
        (fun d hd => (htakes d hd).2.2)
  | @length number unit hnumeral hne hunit =>
      have hhead := @head?_letters _ after hne hunit
      have hlexeme := lexeme_numeral hnumeral hunit hends
        (fun d hd => (hhead d hd).1)
        (fun d hd heq => absurd heq (hhead d hd).2)
      rw [if_neg (mt List.isEmpty_iff.mp hne)] at hlexeme
      rw [List.append_assoc]
      exact hlexeme
  | @quoted quote body payload hquote hbody =>
      obtain ⟨hescape, hlexeme⟩ := lexeme_quote hquote (body ++ quote :: after)
      rw [(splitQuoted_eq_some hescape).mpr ⟨body, rfl, hbody⟩] at hlexeme
      refine ⟨quote, body ++ quote :: after, ?_, ?_, hlexeme⟩
      · rw [List.cons_append, List.append_assoc, List.singleton_append]
      · rcases hquote with rfl | rfl
        · decide
        · decide
  | openBracket => exact ⟨_, _, rfl, by decide, rfl⟩
  | closeBracket => exact ⟨_, _, rfl, by decide, rfl⟩
  | comma => exact ⟨_, _, rfl, by decide, rfl⟩
  | equals => exact ⟨_, _, rfl, by decide, rfl⟩

/-! ## Texts -/

/-- A text that is cut into blanks and the spellings of tokens. Its first
character stands at an offset, which is counted in bytes. -/
inductive Segmented : Nat → List Char → List Token → Prop where
  | finish {offset : Nat} : Segmented offset [] []
  | blank {offset : Nat} {c : Char} {cs : List Char} {ts : List Token}
      (hc : isBlank c = true) (h : Segmented (offset + c.utf8Size) cs ts) :
      Segmented offset (c :: cs) ts
  | token {offset : Nat} {l : Lexeme} {slice cs : List Char} {ts : List Token}
      (hl : Begins l slice cs)
      (h : Segmented (offset + byteLength slice) cs ts) :
      Segmented offset (slice ++ cs) (⟨l, offset⟩ :: ts)

/-- The lexer counts what a lexeme took from what is left of the text. -/
theorem byteLength_slice {cs slice after : List Char}
    (h : cs = slice ++ after) :
    byteLength cs - byteLength after = byteLength slice := by
  rw [h, byteLength_append, Nat.add_sub_cancel]

theorem tokensFrom_eq_ok {offset : Nat} {cs : List Char} {ts : List Token} :
    tokensFrom offset cs = .ok ts ↔ Segmented offset cs ts := by
  constructor
  · intro h
    fun_induction tokensFrom offset cs generalizing ts with
    | case1 => cases h; exact .finish
    | case2 offset c rest hblank ih => exact .blank hblank (ih h)
    | case3 => cases h
    | case4 offset c rest hblank l after hl =>
        rename_i ih
        obtain ⟨us, hus, rfl⟩ := Except.map_eq_ok.mp h
        obtain ⟨slice, hslice, hbegins⟩ := lexeme_begins hl
        have hnext := byteLength_slice hslice
        rw [hslice]
        refine .token hbegins ?_
        rw [← hnext]
        exact ih hus
  · intro h
    induction h with
    | finish => rw [tokensFrom]
    | blank hc _ ih => rw [tokensFrom, if_pos hc, ih]
    | @token offset l slice cs ts hl _ ih =>
        obtain ⟨c, rest, heq, hblank, hlexeme⟩ := hl.lexeme
        rw [heq, tokensFrom_lexeme hblank hlexeme, byteLength_slice heq.symm,
          ih]
        rfl

/-- Where the lexer stops, no lexeme begins, and all in front is cut up. -/
theorem tokensFrom_error {offset : Nat} {cs : List Char} {e : Error}
    (h : tokensFrom offset cs = .error e) :
    ∃ before ts c rest fault, cs = before ++ c :: rest ∧
      Segmented offset before ts ∧ isBlank c = false ∧
      lexeme c rest = .error fault ∧
      e = .definition fault (some (offset + byteLength before)) := by
  fun_induction tokensFrom offset cs with
  | case1 => cases h
  | case2 offset c rest hblank ih =>
      obtain ⟨before, ts, d, tail, fault, rfl, hts, hd, hfault, rfl⟩ := ih h
      refine ⟨c :: before, ts, d, tail, fault, rfl, .blank hblank hts, hd,
        hfault, ?_⟩
      rw [byteLength_cons, Nat.add_assoc]
  | case3 offset c rest hblank fault hfault =>
      cases h
      exact ⟨[], [], c, rest, fault, rfl, .finish,
        Bool.eq_false_iff.mpr hblank, hfault, rfl⟩
  | case4 offset c rest hblank l after hl =>
      rename_i ih
      obtain ⟨slice, hslice, hbegins⟩ := lexeme_begins hl
      have hnext := byteLength_slice hslice
      cases hafter : tokensFrom (offset + (byteLength (c :: rest) -
          byteLength after)) after with
      | ok ts => rw [hafter] at h; cases h
      | error e' =>
          rw [hafter] at h
          cases h
          obtain ⟨before, ts, d, tail, fault, rfl, hts, hd, hfault, rfl⟩ :=
            ih hafter
          change Segmented (offset + (_ - _)) before ts at hts
          rw [hnext] at hts
          refine ⟨slice ++ before, _, d, tail, fault, ?_,
            .token hbegins.truncate hts, hd, hfault, ?_⟩
          · rw [hslice, List.append_assoc]
          · show Error.definition fault (some (offset + (_ - _) + _)) = _
            rw [hnext, byteLength_append, Nat.add_assoc]

theorem Begins.ne_nil {l : Lexeme} {slice after : List Char}
    (h : Begins l slice after) : slice ≠ [] := by
  rintro rfl
  obtain ⟨c, rest, heq, _, hlexeme⟩ := h.lexeme
  have hlength := lexeme_length hlexeme
  rw [show after = c :: rest from heq, List.length_cons] at hlength
  omega

theorem byteLength_pos {cs : List Char} (h : cs ≠ []) : 0 < byteLength cs := by
  cases cs with
  | nil => exact absurd rfl h
  | cons c cs => exact Nat.add_pos_left c.utf8Size_pos _

namespace Segmented

variable {offset : Nat} {cs : List Char} {ts : List Token}

theorem offset_le (h : Segmented offset cs ts) :
    ∀ t ∈ ts, offset ≤ t.offset := by
  induction h with
  | finish => exact nofun
  | blank _ _ ih => exact fun t ht => Nat.le_of_add_right_le (ih t ht)
  | token _ _ ih =>
      refine List.forall_mem_cons.mpr ⟨Nat.le_refl _, fun t ht => ?_⟩
      exact Nat.le_of_add_right_le (ih t ht)

theorem increasing (h : Segmented offset cs ts) :
    ts.Pairwise fun s t => s.offset < t.offset := by
  induction h with
  | finish => exact .nil
  | blank _ _ ih => exact ih
  | @token offset l slice cs ts hl hts ih =>
      have hpos := byteLength_pos hl.ne_nil
      refine .cons (fun t ht => ?_) ih
      exact Nat.lt_of_lt_of_le (Nat.lt_add_of_pos_right hpos)
        (hts.offset_le t ht)

theorem begins (h : Segmented offset cs ts) :
    ∀ t ∈ ts, ∃ before slice after, cs = before ++ slice ++ after ∧
      t.offset = offset + byteLength before ∧ Begins t.lexeme slice after := by
  induction h with
  | finish => exact nofun
  | @blank offset c cs ts _ _ ih =>
      intro t ht
      obtain ⟨before, slice, after, rfl, hoffset, hl⟩ := ih t ht
      refine ⟨c :: before, slice, after, rfl, ?_, hl⟩
      rw [hoffset, byteLength_cons, Nat.add_assoc]
  | @token offset l slice cs ts hl _ ih =>
      refine List.forall_mem_cons.mpr ⟨⟨[], slice, cs, rfl, rfl, hl⟩, ?_⟩
      intro t ht
      obtain ⟨before, slice', after, rfl, hoffset, hl'⟩ := ih t ht
      refine ⟨slice ++ before, slice', after, ?_, ?_, hl'⟩
      · simp only [List.append_assoc]
      · rw [hoffset, byteLength_append, Nat.add_assoc]

end Segmented

/-- The lexer answers with the tokens into which the text is cut. They stand one
behind the other, each at the offset of the first of the characters that it is
read from. Where there are no such tokens, the lexer complains about a
character that is not blank, and what stands in front of it has tokens. -/
theorem tokenize_segments (text : String) :
    (∀ ts, tokenize text = .ok ts ↔ Segmented 0 text.toList ts) ∧
    (∀ ts, tokenize text = .ok ts →
      (ts.Pairwise fun s t => s.offset < t.offset) ∧
      ∀ t ∈ ts, ∃ before slice after,
        text.toList = before ++ slice ++ after ∧ slice ≠ [] ∧
        t.offset = byteLength before ∧ Spells t.lexeme slice) ∧
    ∀ e, tokenize text = .error e →
      ∃ before c after fault ts, text.toList = before ++ c :: after ∧
        isBlank c = false ∧
        e = .definition fault (some (byteLength before)) ∧
        tokenize (String.ofList before) = .ok ts := by
  refine ⟨fun ts => tokensFrom_eq_ok, fun ts h => ?_, fun e h => ?_⟩
  · have hts := tokensFrom_eq_ok.mp h
    refine ⟨hts.increasing, fun t ht => ?_⟩
    obtain ⟨before, slice, after, htext, hoffset, hl⟩ := hts.begins t ht
    exact ⟨before, slice, after, htext, hl.ne_nil,
      by rw [hoffset, Nat.zero_add], hl.spells⟩
  · obtain ⟨before, ts, c, rest, fault, htext, hts, hc, _, rfl⟩ :=
      tokensFrom_error h
    refine ⟨before, c, rest, fault, ts, htext, hc, by rw [Nat.zero_add], ?_⟩
    rw [tokenize, String.toList_ofList]
    exact tokensFrom_eq_ok.mpr hts

end Tabulation.Column
