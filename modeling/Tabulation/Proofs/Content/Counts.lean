import Mathlib
import Tabulation.Proofs.Content.Marks
import Tabulation.Proofs.Content.Pieces
import Tabulation.Proofs.Layout.Validation
import Tabulation.Proofs.Options.Counts

/-!
# Where a span and a rule end

A cell names a number of columns, to cover or to have a rule below, in a mark or
in an option list. A mark counts to ninety-nine, and what an option list can
count to without quotes is less than half of the numbers of 64 bits. A row that
is kept in memory has fewer slots than that too. So in a row that has been
checked the column behind a span or a rule is a number of 64 bits, unless a text
in quotes makes it greater, which it can do in any column but the first.
-/

namespace Tabulation.Directive

open Column

variable {α : Type} [Scalar α]

/-! ## Numbers of columns -/

omit [Scalar α] in
/-- A directive names a number of columns, for a span or for a rule. -/
def Names (d : Directive α) (n : Nat) : Prop :=
  d.columns = some n ∨ d.underline = some (.columns n)

variable (α) in
/-- An option list has a number of columns in quotes. -/
def Quotes (text : String) (n : Nat) : Prop :=
  ∃ (ts : List Token) (options : Entries (Value α)) (s : String) (start : Nat),
    tokenize text = .ok ts ∧ ⟨.quoted s, start⟩ ∈ ts ∧
    schema.parse text = .ok options ∧
    (options.get? "columns" = some (.text s) ∨
      options.get? "underline" = some (.text s)) ∧
    (Value.text s : Value α).nat? = some n

omit [Scalar α] in
theorem schema_quotedIfLarge (ts : List Token) :
    (schema (α := α)).Keeps (Value.QuotedIfLarge ts) where
  defaults := by
    simp [schema, Value.QuotedIfLarge, Value.nat?]
  tokens := by
    refine List.forall_mem_singleton.mpr (.lettered (c := 'm') ?_ ⟨?_, rfl⟩)
    · decide
    · decide
  flag := .uncounted rfl

theorem columnsOption_names {current columns : Option Nat}
    {options : Entries (Value α)}
    (h : columnsOption current options = .ok columns) :
    columns = current ∨ ∃ v n, options.get? "columns" = some v ∧
      v.nat? = some n ∧ columns = some n := by
  rw [columnsOption] at h
  split at h
  · cases h
    exact .inl rfl
  · next v hv =>
      split at h
      · next n hn =>
          cases h
          exact .inr ⟨v, n + 1, hv, hn, rfl⟩
      · cases h

theorem underlineOption_names {options : Entries (Value α)} {n : Nat}
    (h : underlineOption options = .ok (some (.columns n))) :
    n = 1 ∨ ∃ v, options.get? "underline" = some v ∧ v.nat? = some n := by
  rw [underlineOption] at h
  split at h
  · cases h
  · cases h
  · cases h
  · cases h
    exact .inl rfl
  · next v _ _ _ hv =>
      split at h
      · cases h
      · split at h
        · next n hn =>
            cases h
            exact .inr ⟨v, hv, hn⟩
        · cases h

/-- What an option list names is small, or stands in it in quotes. -/
theorem quotes_of_get? {text : String} {options : Entries (Value α)}
    (hparse : schema.parse text = .ok options) {key : String} {v : Value α}
    {n : Nat} (hkey : key = "columns" ∨ key = "underline")
    (hv : options.get? key = some v) (hn : v.nat? = some n) :
    n < 2 ^ 63 ∨ Quotes α text n := by
  obtain ⟨ts, htokens, hall⟩ :=
    Schema.parse_quotedIfLarge hparse schema_quotedIfLarge
  have hvalue := Entries.of_get? (p := Value.QuotedIfLarge ts) hall hv
  refine (hvalue n hn).imp_right ?_
  rintro ⟨s, start, rfl, hs⟩
  refine ⟨ts, options, s, start, htokens, hs, hparse, ?_, hn⟩
  rcases hkey with rfl | rfl
  · exact .inl hv
  · exact .inr hv

theorem withBound_names {d : Directive α} {options : Entries (Value α)}
    {n : Nat} (h : (d.withBound options).1.Names n) :
    d.Names n ∨ n = 1 ∨ ∃ key, (key = "columns" ∨ key = "underline") ∧
      ∃ v, options.get? key = some v ∧ v.nat? = some n := by
  simp only [withBound] at h
  split at h
  · exact .inl h
  · split at h
    · exact .inl h
    · next columns hcolumns =>
        have hset : columns = some n → d.Names n ∨ n = 1 ∨
            ∃ key, (key = "columns" ∨ key = "underline") ∧
              ∃ v, options.get? key = some v ∧ v.nat? = some n := by
          rintro rfl
          rcases columnsOption_names hcolumns with heq | ⟨v, _, hv, hn, heq⟩
          · exact .inl (.inl heq.symm)
          · cases heq
            exact .inr (.inr ⟨_, .inl rfl, v, hv, hn⟩)
        split at h
        · exact h.elim hset fun hrule => .inl (.inr hrule)
        · split at h
          · exact h.elim hset fun hrule => .inl (.inr hrule)
          · next underline hunderline =>
              refine h.elim hset fun hrule => .inr ?_
              rw [show underline = _ from hrule] at hunderline
              refine (underlineOption_names hunderline).imp_right ?_
              exact fun hgiven => ⟨_, .inr rfl, hgiven⟩

theorem withOptions_names {d : Directive α} {text : String} {n : Nat}
    (h : (d.withOptions text).1.Names n) :
    d.Names n ∨ n < 2 ^ 63 ∨ Quotes α text n := by
  rw [withOptions] at h
  split at h
  · exact .inl h
  · next options hparse =>
      refine (withBound_names h).imp_right ?_
      rintro (rfl | ⟨key, hkey, v, hv, hn⟩)
      · exact .inl (by decide)
      · exact quotes_of_get? hparse hkey hv hn

/-! ## Marks -/

theorem Count.le {n : Nat} {count : List Char} (h : Count n count) :
    n ≤ 99 := by
  cases h with
  | unwritten => decide
  | numeral _ le => exact le

theorem MarkWord.le {rule extra : Option Nat} {cs : List Char}
    (h : MarkWord rule extra cs) :
    (∀ n ∈ rule, n ≤ 99) ∧ ∀ n ∈ extra, n ≤ 99 := by
  cases h with
  | rule h =>
      obtain ⟨_, hcount, _⟩ := h
      exact ⟨fun _ hn => by cases hn; exact hcount.le, nofun⟩
  | span h =>
      obtain ⟨_, hcount, _⟩ := h
      exact ⟨nofun, fun _ hn => by cases hn; exact hcount.le⟩
  | both hrule hspan =>
      obtain ⟨_, hcount, _⟩ := hrule
      obtain ⟨_, hcount', _⟩ := hspan
      exact ⟨fun _ hn => by cases hn; exact hcount.le,
        fun _ hn => by cases hn; exact hcount'.le⟩

omit [Scalar α] in
theorem withMarks_names {d : Directive α} {word : String}
    {rule extra : Option Nat} (hmarks : marks? word = some (rule, extra))
    {n : Nat} (h : (d.withMarks rule extra).Names n) :
    d.Names n ∨ n ≤ 100 := by
  obtain ⟨hrule, hextra⟩ := (marks?_eq_some.mp hmarks).le
  rcases h with h | h
  · rcases Option.or_eq_some_iff.mp h with h | ⟨_, h⟩
    · obtain ⟨m, hm, rfl⟩ := Option.map_eq_some_iff.mp h
      have hle := hextra m hm
      exact .inr (by omega)
    · exact .inl (.inl h)
  · rcases Option.or_eq_some_iff.mp h with h | ⟨_, h⟩
    · obtain ⟨m, hm, heq⟩ := Option.map_eq_some_iff.mp h
      cases heq
      have hle := hrule n hm
      exact .inr (by omega)
    · exact .inl (.inr h)

/-! ## Content -/

variable {lenient leading : Bool} {d d' : Directive α}
  {content rest kept : List Inline} {x : Inline} {ws : List Warning}

/-- What a piece of content does to the directive that is read on with. -/
theorem extractFrom_step
    (h : extractFrom lenient leading d (x :: rest) = .ok (d', kept, ws)) :
    ∃ leading' after kept' ws',
      extractFrom lenient leading' after rest = .ok (d', kept', ws') ∧
      ∀ n, after.Names n → d.Names n ∨ n < 2 ^ 63 ∨
        ∃ text, x = .raw optionFormat text ∧ Quotes α text n := by
  cases x with
  | raw format text =>
      by_cases hformat : format = optionFormat
      · subst hformat
        obtain ⟨ws', hrest⟩ := extractFrom_pastOptions h
        refine ⟨_, _, kept, ws', hrest, fun n hn => ?_⟩
        exact (withOptions_names hn).imp_right
          (Or.imp_right fun hquotes => ⟨text, rfl, hquotes⟩)
      · rw [extractFrom_raw hformat] at h
        obtain ⟨⟨_, kept', ws'⟩, hrest, h⟩ := Except.bind_eq_ok.mp h
        cases h
        exact ⟨_, d, kept', _, hrest, fun _ hn => .inl hn⟩
  | space =>
      rw [extractFrom] at h
      split at h
      · exact ⟨_, d, kept, ws, h, fun _ hn => .inl hn⟩
      · obtain ⟨⟨_, kept', ws'⟩, hrest, h⟩ := Except.bind_eq_ok.mp h
        cases h
        exact ⟨_, d, kept', _, hrest, fun _ hn => .inl hn⟩
  | word text =>
      rw [extractFrom] at h
      split at h
      · exact ⟨_, _, kept, ws, h, fun _ hn => .inl hn⟩
      · split at h
        · next hmarks =>
            refine ⟨_, _, kept, ws, h, fun n hn => ?_⟩
            exact (withMarks_names hmarks hn).imp_right
              fun hle => .inl (by omega)
        · obtain ⟨⟨_, kept', ws'⟩, hrest, h⟩ := Except.bind_eq_ok.mp h
          cases h
          exact ⟨_, d, kept', _, hrest, fun _ hn => .inl hn⟩
  | strong inner =>
      change extractFrom lenient false d rest >>= _ = _ at h
      obtain ⟨⟨_, kept', ws'⟩, hrest, h⟩ := Except.bind_eq_ok.mp h
      cases h
      exact ⟨_, d, kept', _, hrest, fun _ hn => .inl hn⟩
  | note label =>
      change extractFrom lenient false d rest >>= _ = _ at h
      obtain ⟨⟨_, kept', ws'⟩, hrest, h⟩ := Except.bind_eq_ok.mp h
      cases h
      exact ⟨_, d, kept', _, hrest, fun _ hn => .inl hn⟩

theorem extractFrom_names
    (h : extractFrom lenient leading d content = .ok (d', kept, ws)) {n : Nat}
    (hn : d'.Names n) : d.Names n ∨ n < 2 ^ 63 ∨
      ∃ text, .raw optionFormat text ∈ content ∧ Quotes α text n := by
  induction content generalizing leading d kept ws with
  | nil =>
      rw [extractFrom] at h
      cases h
      exact .inl hn
  | cons x rest ih =>
      obtain ⟨_, after, _, _, hrest, hstep⟩ := extractFrom_step h
      rcases ih hrest with hafter | hsmall | ⟨text, htext, hquotes⟩
      · rcases hstep n hafter with hd | hsmall | ⟨text, rfl, hquotes⟩
        · exact .inl hd
        · exact .inr (.inl hsmall)
        · exact .inr (.inr ⟨text, List.mem_cons_self, hquotes⟩)
      · exact .inr (.inl hsmall)
      · exact .inr (.inr ⟨text, List.mem_cons_of_mem x htext, hquotes⟩)

theorem extract_names (h : extract content lenient = .ok (d, kept, ws))
    {n : Nat} (hn : d.Names n) : n < 2 ^ 63 ∨
      ∃ text, .raw optionFormat text ∈ content ∧ Quotes α text n := by
  rw [extract] at h
  obtain ⟨⟨_, _, _⟩, hfrom, h⟩ := Except.bind_eq_ok.mp h
  cases h
  refine (extractFrom_names hfrom hn).resolve_left ?_
  rintro (hnone | hnone)
  · cases hnone
  · cases hnone

theorem Quotes.lt {text : String} {n : Nat} (h : Quotes α text n) :
    n < 2 ^ 64 := by
  obtain ⟨_, _, _, _, _, _, _, _, hn⟩ := h
  exact (Value.nat?_text.mp hn).2.1

/-! ## Slots -/

/-- In a row of a table that has been checked, the columns that a cell names
are numbers of 64 bits, and the column behind its span and the one behind its
rule are so too unless one of the numbers stands in quotes and is too great for
where the cell stands. A row has less than half as many slots as there are such
numbers, since it is kept in memory. -/
theorem ends_lt_iff {t : Table α} {count i : Nat} {row : Row} {c : Cell}
    (hvalid : t.validate = .ok count) (hsize : count < 2 ^ 63)
    (hrow : row ∈ t.rows) (hcell : row.slots[i]? = some (.cell c))
    (h : extract c.content lenient = .ok (d, kept, ws)) :
    (∀ n, d.Names n → n < 2 ^ 64) ∧
    ((i + d.span c.span < 2 ^ 64 ∧
      ∀ width, d.underline = some (.columns width) →
        i + max width (d.span c.span) < 2 ^ 64) ↔
      ¬ ∃ n, d.Names n ∧ 2 ^ 64 ≤ i + n ∧
        ∃ text, .raw optionFormat text ∈ c.content ∧ Quotes α text n) := by
  obtain ⟨hslots, hcovers⟩ := (validate_rows hvalid).2 row hrow
  have hextent := Row.extent_of_covers hcovers hcell
  refine ⟨fun n hn => ?_, fun hbelow hquoted => ?_, fun hunquoted => ?_⟩
  · rcases extract_names h hn with hsmall | ⟨_, _, hquotes⟩
    · omega
    · exact hquotes.lt
  · obtain ⟨hspan, hrule⟩ := hbelow
    obtain ⟨n, hcolumns | hunderline, hge, _⟩ := hquoted
    · rw [span, hcolumns, Option.getD_some] at hspan
      omega
    · have hwidth := hrule n hunderline
      omega
  · have hnamed : ∀ n, d.Names n → i + n < 2 ^ 64 := by
      intro n hn
      rcases extract_names h hn with hsmall | hquotes
      · omega
      · exact Nat.lt_of_not_le fun hge => hunquoted ⟨n, hn, hge, hquotes⟩
    have hspan : i + d.span c.span < 2 ^ 64 := by
      rw [span]
      cases hcolumns : d.columns with
      | none =>
          rw [Option.getD_none]
          omega
      | some n =>
          have hn := hnamed n (.inl hcolumns)
          rw [Option.getD_some]
          omega
    refine ⟨hspan, fun width hwidth => ?_⟩
    have hn := hnamed width (.inr hwidth)
    omega

/-- A cell with an option list. -/
def optionsCell (text : String) : Cell where
  content := [.raw optionFormat text, .word "b"]

/-- Two columns, of which the second one has an option list. -/
def optionsTable (text : String) : Table Float where
  rows := [{ slots :=
    [.cell { content := [.word "a"] }, .cell (optionsCell text)] }]
  attributes := .default

theorem extract_columns {content : List Inline} {columns : Option Nat}
    {underline : Option Underline}
    (h : (extract (α := Float) content false).toOption.map
      (fun p => (p.1.columns, p.1.underline)) = some (columns, underline)) :
    ∃ d kept ws, extract (α := Float) content false = .ok (d, kept, ws) ∧
      d.columns = columns ∧ d.underline = underline := by
  cases hread : extract (α := Float) content false with
  | error e =>
      rw [hread] at h
      cases h
  | ok answer =>
      rw [hread] at h
      cases h
      exact ⟨_, _, _, rfl, rfl, rfl⟩

theorem end_lt_quoted : ∃ d kept ws,
    (optionsTable "columns='3'").validate = .ok 2 ∧
    extract (α := Float) (optionsCell "columns='3'").content false =
      .ok (d, kept, ws) ∧
    1 + d.span 1 < 2 ^ 64 := by
  obtain ⟨d, kept, ws, hread, hcolumns, hunderline⟩ :=
    @extract_columns (optionsCell "columns='3'").content (some 3) none
      (by decide +kernel)
  have hvalid : (optionsTable "columns='3'").validate = .ok 2 := rfl
  have hends := (ends_lt_iff (i := 1) hvalid (by decide) List.mem_cons_self
    rfl hread).2
  refine ⟨d, kept, ws, hvalid, hread, (hends.mpr ?_).1⟩
  rintro ⟨n, hn | hn, hge, _⟩
  · rw [hcolumns] at hn
    cases hn
    exact absurd hge (by decide)
  · rw [hunderline] at hn
    cases hn

/-- The column behind a span that is counted in quotes is no number of 64
bits. -/
theorem end_eq_quoted : ∃ d kept ws,
    (optionsTable "columns='18446744073709551615'").validate = .ok 2 ∧
    (optionsTable "columns='18446744073709551615'").rows.map
      (fun row => row.slots[1]?) =
        [some (.cell (optionsCell "columns='18446744073709551615'"))] ∧
    extract (α := Float)
      (optionsCell "columns='18446744073709551615'").content false =
        .ok (d, kept, ws) ∧
    1 + d.span (optionsCell "columns='18446744073709551615'").span =
      2 ^ 64 := by
  obtain ⟨d, kept, ws, hread, hcolumns, _⟩ :=
    @extract_columns (optionsCell "columns='18446744073709551615'").content
      (some 18446744073709551615) none (by decide +kernel)
  refine ⟨d, kept, ws, rfl, rfl, hread, ?_⟩
  rw [span, hcolumns]
  rfl

end Tabulation.Directive
