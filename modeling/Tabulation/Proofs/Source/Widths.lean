import Tabulation.Proofs.Source.RoundTrip

/-!
# Widths in definitions

A width may have any text for its unit, and it is written without quotes in the
definition of a paragraph column. There the lexer reads a numeral and the
letters behind it, so a width is read back exactly if its number is finite and
its unit is a word. If it is, the column of that width is one that can be
written. If it is read back, the first token between the brackets decides, since
that is the first leaf of the arguments: it names an option, or the width is
read from it. A number gives its width the letters behind it for a unit. A
number that is not finite is written as a word, which names no option and is no
width.
-/

namespace Tabulation.Column

open Decimal

/-! ## Widths that are read back -/

/-- A paragraph column of which only the width is given. -/
def ofWidth (w : Width Float) : Specifier Float :=
  .ofKind (.paragraph {
    anchor := .top, width := w, indentFraction := defaultIndentFraction,
    text := {} })

theorem ofWidth_source (w : Width Float) :
    (ofWidth w).source = "p[" ++ w.source ++ "]" := by
  have hdefault : ((defaultIndentFraction : Float) ==
      defaultIndentFraction) = true := by decide
  have hsources : (ofWidth w).kind.sources ++ (ofWidth w).sharedSources =
      [w.source] := by
    show (Kind.paragraph _).sources ++ _ = _
    rw [Kind.sources, Paragraph.sources, if_pos hdefault]
    rfl
  have hne : ¬[w.source].isEmpty = true := Bool.false_ne_true
  have hopen : (ofWidth w).kind.identifier.toString ++ "[" = "p[" := rfl
  rw [Specifier.source_eq, hsources, bracketed, if_neg hne,
    String.intercalate_singleton, ← String.append_assoc, ← String.append_assoc,
    hopen]

theorem ofWidth_writable {w : Width Float} (h : w.Proper) :
    Writable (.specifiers [ofWidth w]) := by
  have hnonneg : (0.0 : Float) ≤ defaultIndentFraction := by decide
  have hfraction : (defaultIndentFraction : Float) < 1.0 := by decide
  have htext : ({} : TextSetting).Proper := by
    intro skip hskip
    cases hskip
    exact float?_points "10"
  refine .cons (.specifier (fun _ hv => absurd hv List.not_mem_nil) ?_
    .nothing rfl rfl) .nil
  exact ⟨h, hnonneg, hfraction, htext, rfl, rfl⟩

theorem ofWidth_plain {w : Width Float} (h : w.Plain)
    (hread : w.value.isFinite = true →
      float? (shortestText w.value) = some w.value) :
    ∀ c ∈ withinList [ofWidth w], c.Plain := by
  have hdefault : float? (shortestText defaultIndentFraction) =
      some defaultIndentFraction := by decide +kernel
  have hwithin : withinList [ofWidth w] = [ofWidth w] := by
    rw [withinList, withinList, Specifier.within_eq]
    rfl
  rw [hwithin]
  refine List.forall_mem_singleton.mpr ⟨?_, ?_⟩
  · exact List.forall_mem_singleton.mpr h
  · exact List.forall_mem_cons.mpr ⟨hread,
      List.forall_mem_singleton.mpr fun _ => hdefault⟩

theorem parseSpecifiers_ofWidth {w : Width Float} (hproper : w.Proper)
    (hplain : w.Plain) (hread : w.value.isFinite = true →
      float? (shortestText w.value) = some w.value) :
    parseSpecifiers ("p[" ++ w.source ++ "]") = .ok [ofWidth w] := by
  have hparse := (ofWidth_writable hproper).parse (ofWidth_plain hplain hread)
  rw [sourceList, sourceList, String.intercalate_singleton,
    ofWidth_source] at hparse
  exact hparse

/-! ## What is read where a width is written -/

theorem Width.parse_unit {number unit : String} {x : Float} {u : String}
    (hnumber : number.toList.all isNumeric = true)
    (hunit : unit.toList.all Char.isAlpha = true)
    (h : Width.parse (number ++ unit) = .ok (.length x u)) : u = unit := by
  rw [Width.parse, numberAndUnit_letters hnumber hunit] at h
  cases hread : float? number with
  | none =>
      rw [hread] at h
      cases h
  | some y =>
      rw [hread] at h
      change Except.ok (if unit.isEmpty then _ else _) = _ at h
      split at h
      · cases h
      · cases h
        rfl

/-- A text that begins with no digit, sign or point is no width. -/
theorem Width.parse_word {c : Char} {cs : List Char}
    (hblank : Text.isBlank c = false) (hc : isNumeric c = false)
    {w : Width Float} : Width.parse (String.ofList (c :: cs)) ≠ .ok w := by
  intro h
  obtain ⟨⟨value, unit⟩, hread, -⟩ := Except.bind_eq_ok.mp h
  have htake : (Text.trim (String.ofList (c :: cs))).toList.takeWhile
      isNumeric = [] := by
    have hbegins := @trim_begins c cs hblank
    generalize (Text.trim (String.ofList (c :: cs))).toList = trimmed
      at hbegins
    cases trimmed with
    | nil => rfl
    | cons d ds =>
        cases (List.cons_prefix_cons.mp hbegins).1
        exact List.takeWhile_cons_of_neg (Bool.eq_false_iff.mp hc)
  have hnone : Scalar.read? (α := Float) (String.ofList []) = none := by decide
  rw [numberAndUnit] at hread
  simp only [htake, hnone] at hread
  cases hread

/-- A literal that a width is read from is a leaf of its own. -/
theorem leaves_of_width {l : Literal Float} {v : Value Float} {w : Width Float}
    (hv : Value.ofLiteral l = .ok v) (hw : Width.ofValue v = .ok w) :
    l.leaves = [.value l] := by
  cases l with
  | column d =>
      rw [Value.ofLiteral] at hv
      obtain ⟨c, -, hv⟩ := Except.bind_eq_ok.mp hv
      cases hv
      cases hw
  | columns ds =>
      rw [Value.ofLiteral] at hv
      obtain ⟨cs, -, hv⟩ := Except.bind_eq_ok.mp hv
      cases hv
      cases hw
  | _ => rw [Literal.leaves]

/-- A paragraph column that is given a positional argument has its width from
it. -/
theorem width_positional {b : Bound Float} {c : Specifier Float}
    {v : Value Float} {vs : List (Value Float)} {w : Width Float}
    (h : c.Binds b) (hpositional : b.positional = v :: vs)
    (hw : c.width? = some w) : Width.ofValue v = .ok w := by
  have hlength := h.length_positional
  have hwidth : ¬"width" ∈ b.named.keys := by
    intro hnamed
    rw [if_neg fun hone => hone.2 hnamed, hpositional] at hlength
    cases hlength
  have hkind := Kind.ofBound_binds h.kind
  rw [Specifier.width?] at hw
  generalize c.kind = kind at hkind hw
  cases hkind with
  | paragraph hp =>
      cases hw
      obtain ⟨value, hvalue, hread⟩ := (Paragraph.ofBound_binds hp).width
      rw [Bound.required, Entries.get?_eq_none_iff.mpr hwidth,
        hpositional] at hvalue
      cases hvalue
      exact hread
  | _ => cases hw

/-- The first leaf between the brackets of a paragraph column names an option of
it or is the value that its width is read from. -/
theorem first_argument {d : Definition Float} {c : Specifier Float}
    {w : Width Float} (hc : Specifier.ofDefinition d = .ok c)
    (hw : c.width? = some w) {leaf : Leaf Float} {rest : List (Leaf Float)}
    (hleaf : d.arguments.leaves = leaf :: rest) :
    (∃ name ∈ c.kind.options ++ sharedOptions,
      leaf = .key name ∨ leaf = .flag name) ∨
    ∃ l v, leaf = .value l ∧ Value.ofLiteral l = .ok v ∧
      Width.ofValue v = .ok w := by
  obtain ⟨identifier, ⟨positional, named⟩, offset⟩ := d
  obtain ⟨values, entries, hvalues, hnamed, hbound⟩ := ofDefinition_eq_ok.mp hc
  have hbinds := Specifier.ofBound_eq_ok.mp hbound
  rw [Arguments.leaves] at hleaf
  cases positional with
  | nil =>
      refine .inl ?_
      rw [literalsLeaves, List.nil_append] at hleaf
      cases named with
      | nil =>
          rw [namedLeaves] at hleaf
          cases hleaf
      | cons a named =>
          have hname := hbinds.named a.name
            (mem_keys_of_bindNamed hnamed List.mem_cons_self)
          cases a with
          | assign key l =>
              rw [namedLeaves] at hleaf
              cases hleaf
              exact ⟨_, hname, .inl rfl⟩
          | flag name =>
              rw [namedLeaves] at hleaf
              cases hleaf
              exact ⟨_, hname, .inr rfl⟩
  | cons l positional =>
      rw [valuesOf] at hvalues
      obtain ⟨v, hv, hvalues⟩ := Except.bind_eq_ok.mp hvalues
      obtain ⟨vs, -, hvalues⟩ := Except.bind_eq_ok.mp hvalues
      cases hvalues
      have hwidth := width_positional hbinds rfl hw
      rw [literalsLeaves, leaves_of_width hv hwidth] at hleaf
      cases hleaf
      exact .inr ⟨l, v, rfl, hv, hwidth⟩

/-- A token behind those of an identifier and a bracket is read into the
arguments, unless it is the identifier of the next definition. -/
theorem arguments_leaf {d : Definition Float} {ds : List (Definition Float)}
    {t : Token} {ts : List Token}
    (hletter : ∀ i, t.lexeme ≠ .word (Char.toString i))
    (h : List.Forall₂ Leaf.Reads (d.arguments.leaves ++ definitionsLeaves ds)
      (t :: ts)) :
    ∃ leaf rest, d.arguments.leaves = leaf :: rest ∧ leaf.Reads t := by
  cases hargs : d.arguments.leaves with
  | nil =>
      rw [hargs, List.nil_append] at h
      cases ds with
      | nil =>
          rw [definitionsLeaves] at h
          cases h
      | cons d' ds =>
          rw [definitionsLeaves, Definition.leaves_eq, List.cons_append] at h
          obtain _ | ⟨⟨-, hword, -⟩, -⟩ := h
          exact absurd hword (hletter _)
  | cons leaf rest =>
      rw [hargs] at h
      obtain _ | ⟨hreads, -⟩ := h
      exact ⟨leaf, rest, rfl, hreads⟩

/-- What the first token between the brackets of a column of a width may be: a
key or a flag, or the value that the width is read from. -/
inductive OpensArguments (c : Specifier Float) (w : Width Float) (t : Token) :
    Prop where
  | option {word : String} (h : t.lexeme = .word word)
      (mem : storedKey word ∈ c.kind.options ++ sharedOptions)
  | width {l : Literal Float} {v : Value Float} (h : (Leaf.value l).Reads t)
      (hv : Value.ofLiteral l = .ok v) (hw : Width.ofValue v = .ok w)

theorem parseSpecifiers_opens {text : String} {c : Specifier Float}
    {cs : List (Specifier Float)} {w : Width Float} {inner : List Char}
    (htext : text.toList = 'p' :: '[' :: inner)
    (h : parseSpecifiers text = .ok (c :: cs)) (hw : c.width? = some w) :
    ∃ start us, tokensFrom start inner = .ok us ∧
      ∀ t rest, us = t :: rest → t.isLeaf = true →
        (∀ i, t.lexeme ≠ .word (Char.toString i)) → OpensArguments c w t := by
  have hexpand : expandNames text = text := by
    refine expandNames_eq_self (c := 'p') rfl htext fun d hd => ?_
    cases hd
    exact .inr rfl
  rw [parseSpecifiers, hexpand] at h
  obtain ⟨ds, hds, hcs⟩ := Except.bind_eq_ok.mp h
  obtain ⟨ts, hts⟩ := parseDefinitions_tokenize hds
  have htokens := hts
  rw [tokenize, htext] at htokens
  have hword : lexeme 'p' ('[' :: inner) = .ok (.word "p", '[' :: inner) := rfl
  have hopen : lexeme '[' inner = .ok (.openBracket, inner) := rfl
  obtain ⟨_, opened, rfl, hopened⟩ :=
    tokensFrom_begins (by decide) hword htokens
  obtain ⟨start, us, rfl, hus⟩ := tokensFrom_begins (by decide) hopen hopened
  refine ⟨start, us, hus, ?_⟩
  rintro t rest rfl hleaf hletter
  have hleaves := (((parseDefinitions_eq_ok hts).mp hds).resolve_left
    fun hnil => List.cons_ne_nil _ _ hnil.1).leaves
  cases ds with
  | nil =>
      rw [specifiersOf] at hcs
      cases hcs
  | cons d ds =>
      obtain ⟨_, _, hc, -, heq⟩ := specifiersOf_cons.mp hcs
      cases heq
      rw [Phrase.leaves, definitionsLeaves, Definition.leaves_eq,
        List.filter_cons_of_pos rfl, List.filter_cons_of_neg Bool.false_ne_true,
        List.filter_cons_of_pos hleaf, List.cons_append] at hleaves
      obtain _ | ⟨-, hleaves⟩ := hleaves
      obtain ⟨leaf, more, hargs, hreads⟩ := arguments_leaf hletter hleaves
      rcases first_argument hc hw hargs with
        ⟨name, hname, rfl | rfl⟩ | ⟨l, v, rfl, hv, hwidth⟩
      · obtain ⟨word, hword, rfl⟩ := hreads
        exact .option hword hname
      · obtain ⟨word, hword, rfl⟩ := hreads
        exact .option hword hname
      · exact .width hreads hv hwidth

/-- A number, or a length if there are letters. -/
def numberLexeme (number letters : List Char) : Lexeme :=
  if letters.isEmpty then .number (String.ofList number)
  else .length (String.ofList (number ++ letters))

/-- Whatever follows a numeral, the first token is a number or a length. -/
theorem tokensFrom_numeral {number behind : List Char} {start : Nat}
    {us : List Token} (hnumber : IsNumeral number)
    (h : tokensFrom start (number ++ behind) = .ok us) :
    ∃ n letters rest, IsNumeral n ∧ letters.all Char.isAlpha = true ∧
      us = ⟨numberLexeme n letters, start⟩ :: rest := by
  have hstarts := hnumber.startsNumber behind
  generalize number ++ behind = cs at h hstarts
  cases cs with
  | nil => cases hstarts
  | cons c cs =>
      obtain ⟨n, after, hsplit⟩ :
          ∃ n after, splitNumber (c :: cs) = (n, after) := ⟨_, _, rfl⟩
      have hn := splitNumber_isNumeral hstarts
      rw [hsplit] at hn
      obtain ⟨hblank, hlexeme⟩ := lexeme_startsNumber hstarts hsplit
      have hnumber : ∃ left, lexeme c cs =
          .ok (numberLexeme n (after.takeWhile Char.isAlpha), left) := by
        rw [hlexeme, numberLexeme]
        split
        · exact ⟨_, rfl⟩
        · exact ⟨_, rfl⟩
      obtain ⟨left, hnumber⟩ := hnumber
      obtain ⟨_, rest, rfl, -⟩ := tokensFrom_begins hblank hnumber h
      exact ⟨n, _, rest, hn, List.all_takeWhile, rfl⟩

/-- A width that is read from a number with letters behind it has a unit of
letters. -/
theorem Width.unit_of_number {n letters : List Char} {start : Nat}
    {l : Literal Float} {v : Value Float} {x : Float} {unit : String}
    (hn : IsNumeral n) (hletters : letters.all Char.isAlpha = true)
    (hreads : (Leaf.value l).Reads ⟨numberLexeme n letters, start⟩)
    (hv : Value.ofLiteral l = .ok v)
    (hw : Width.ofValue v = .ok (.length x unit)) :
    unit.toList.all Char.isAlpha = true := by
  obtain ⟨hread, -⟩ := ofValue_eq_ok.mp hw
  have htext : l = .text (String.ofList (n ++ letters)) := by
    rw [numberLexeme] at hreads
    split at hreads
    · next hnone =>
        rw [List.isEmpty_iff.mp hnone, List.append_nil]
        have hnumeral : l.numeral? = some (String.ofList n) := hreads
        cases l with
        | text s =>
            cases hnumeral
            rfl
        | int k =>
            rw [Value.ofLiteral] at hv
            cases hv
            cases hread
        | number y =>
            rw [Value.ofLiteral] at hv
            cases hv
            cases hread
        | _ => cases hnumeral
    · exact hreads
  rw [htext, Value.ofLiteral, String.ofList_append] at hv
  cases hv
  rw [parse_unit (by rw [String.toList_ofList]; exact hn.all_isNumeric)
    (by rw [String.toList_ofList]; exact hletters) hread, String.toList_ofList]
  exact hletters

/-- How the texts of infinity and of what is no number begin. -/
def unwritten : List (List Char) := [['i', 'n', 'f'], ['N', 'a', 'N']]

theorem not_mem_options {c : Specifier Float} {w : Width Float}
    (hw : c.width? = some w) {front rest : List Char}
    (hfront : front ∈ unwritten) :
    storedKey (String.ofList (front ++ rest)) ∉
      c.kind.options ++ sharedOptions := by
  have hoptions : ∀ name ∈ c.kind.options ++ sharedOptions,
      name.toList.take 3 ∉ unwritten := by
    rw [Specifier.width?] at hw
    generalize c.kind = kind at hw
    cases kind with
    | paragraph p =>
        show ∀ name ∈ ["width", "indent_fraction", "baselineskip",
          "raggedright"] ++ sharedOptions, name.toList.take 3 ∉ unwritten
        decide +kernel
    | _ => cases hw
  have hkey : (storedKey (String.ofList (front ++ rest))).toList.take 3 =
      front := by
    rw [storedKey, String.toList_ofList, String.toList_ofList]
    simp only [unwritten, List.mem_cons, List.not_mem_nil, or_false] at hfront
    rcases hfront with rfl | rfl
    · rfl
    · rfl
  intro hmem
  exact hoptions _ hmem (hkey.symm ▸ hfront)

/-- No width is read from such a word. -/
theorem not_ofValue_word {front rest : List Char} (hfront : front ∈ unwritten)
    {v : Value Float} {w : Width Float}
    (hv : Value.ofLiteral (wordLiteral (String.ofList (front ++ rest))) =
      .ok v) : Width.ofValue v ≠ .ok w := by
  intro hw
  obtain ⟨hread, -⟩ := Width.ofValue_eq_ok.mp hw
  rw [wordLiteral] at hv
  split at hv
  · rw [Value.ofLiteral] at hv
    cases hv
    cases hread
  · split at hv
    · rw [Value.ofLiteral] at hv
      cases hv
      cases hread
    · rw [Value.ofLiteral] at hv
      cases hv
      simp only [unwritten, List.mem_cons, List.not_mem_nil, or_false] at hfront
      rcases hfront with rfl | rfl
      · exact Width.parse_word (by decide) (by decide) hread
      · exact Width.parse_word (by decide) (by decide) hread

/-- The lexer reads such a word up to its end. -/
theorem tokensFrom_unwritten {front behind : List Char} {start : Nat}
    {us : List Token} (hfront : front ∈ unwritten)
    (h : tokensFrom start (front ++ behind) = .ok us) :
    ∃ more rest,
      us = ⟨.word (String.ofList (front ++ more)), start⟩ :: rest := by
  simp only [unwritten, List.mem_cons, List.not_mem_nil, or_false] at hfront
  rcases hfront with rfl | rfl
  · have hlexeme : lexeme 'i' ('n' :: 'f' :: behind) =
        .ok (.word (String.ofList ('i' :: 'n' :: 'f' ::
          behind.takeWhile isWordPart)), behind.dropWhile isWordPart) := rfl
    obtain ⟨_, rest, rfl, -⟩ := tokensFrom_begins (by decide) hlexeme h
    exact ⟨_, rest, rfl⟩
  · have hlexeme : lexeme 'N' ('a' :: 'N' :: behind) =
        .ok (.word (String.ofList ('N' :: 'a' :: 'N' ::
          behind.takeWhile isWordPart)), behind.dropWhile isWordPart) := rfl
    obtain ⟨_, rest, rfl, -⟩ := tokensFrom_begins (by decide) hlexeme h
    exact ⟨_, rest, rfl⟩

/-- The text of a number that is not finite begins no argument. -/
theorem shortestText_unwritten {x : Float} (h : ¬x.isFinite = true)
    {behind : List Char} {start : Nat} {us : List Token}
    (hus : tokensFrom start ((shortestText x).toList ++ behind) = .ok us) :
    ∃ front ∈ unwritten, ∃ more rest,
      us = ⟨.word (String.ofList (front ++ more)), start⟩ :: rest := by
  have hnames := shortestText_of_not_isFinite h
  simp only [List.mem_cons, List.not_mem_nil, or_false] at hnames
  rcases hnames with hname | hname | hname
  · rw [hname] at hus
    exact ⟨['N', 'a', 'N'], by decide, tokensFrom_unwritten (by decide) hus⟩
  · rw [hname] at hus
    exact ⟨['i', 'n', 'f'], by decide, tokensFrom_unwritten (by decide) hus⟩
  · rw [hname] at hus
    have hsign : lexeme '-' ('i' :: 'n' :: 'f' :: behind) =
        .error (.unexpectedCharacter '-') := rfl
    change tokensFrom start ('-' :: 'i' :: 'n' :: 'f' :: behind) = _ at hus
    rw [tokensFrom, if_neg (by decide)] at hus
    split at hus
    · cases hus
    · next hread =>
        rw [hsign] at hread
        cases hread

theorem not_opensArguments {c : Specifier Float} {w : Width Float} {t : Token}
    {front rest : List Char} (hfront : front ∈ unwritten)
    (ht : t.lexeme = .word (String.ofList (front ++ rest)))
    (hw : c.width? = some w) : ¬OpensArguments c w t := by
  intro h
  cases h with
  | option hword hoption =>
      rw [ht] at hword
      cases hword
      exact not_mem_options hw hfront hoption
  | @width l v hreads hv hwidth =>
      rw [Leaf.Reads, ht] at hreads
      rw [show l = _ from hreads] at hv
      exact not_ofValue_word hfront hv hwidth

theorem word_ne_letter {front rest : List Char} (hfront : front ∈ unwritten)
    (i : Char) :
    Lexeme.word (String.ofList (front ++ rest)) ≠ .word i.toString := by
  have hlength : ∀ cs ∈ unwritten, cs.length = 3 := by decide
  have hletter : i.toString.length = 1 := String.length_singleton
  intro heq
  have hone := congrArg String.length (Lexeme.word.inj heq)
  rw [String.length_ofList, List.length_append, hlength front hfront,
    hletter] at hone
  omega

theorem Width.source_begins (w : Width Float) :
    ∃ behind, w.source = shortestText w.value ++ behind := by
  cases w with
  | fraction v =>
      rw [source, Scalar.pointedText]
      split
      · exact ⟨"", String.append_empty.symm⟩
      · exact ⟨".0", rfl⟩
  | length v unit => exact ⟨unit, rfl⟩

theorem Width.source_plain {w : Width Float} {c : Specifier Float}
    (h : parseSpecifiers ("p[" ++ w.source ++ "]") = .ok [c])
    (hw : c.width? = some w) : w.Plain := by
  have htext : ("p[" ++ w.source ++ "]").toList =
      'p' :: '[' :: (w.source.toList ++ [']']) := by
    rw [String.toList_append, String.toList_append]
    rfl
  obtain ⟨start, us, hus, hopens⟩ := parseSpecifiers_opens htext h hw
  obtain ⟨behind, hsource⟩ := w.source_begins
  rw [hsource, String.toList_append, List.append_assoc] at hus
  by_cases hfinite : w.value.isFinite = true
  · obtain ⟨n, letters, rest, hn, hletters, rfl⟩ :=
      tokensFrom_numeral (shortestText_isNumeral hfinite) hus
    cases w with
    | fraction v => exact hfinite
    | length v unit =>
        have hlexeme : (⟨numberLexeme n letters, start⟩ : Token).isLeaf = true ∧
            ∀ word, numberLexeme n letters ≠ .word word := by
          rw [numberLexeme]
          split
          · exact ⟨rfl, fun _ hword => by cases hword⟩
          · exact ⟨rfl, fun _ hword => by cases hword⟩
        cases hopens _ rest rfl hlexeme.1 fun i => hlexeme.2 _ with
        | option hword => exact absurd hword (hlexeme.2 _)
        | width hreads hv hwidth =>
            exact ⟨hfinite, unit_of_number hn hletters hreads hv hwidth⟩
  · obtain ⟨front, hfront, more, rest, rfl⟩ :=
      shortestText_unwritten hfinite hus
    exact absurd (hopens _ rest rfl rfl (word_ne_letter hfront))
      (not_opensArguments hfront rfl hw)

/-- A width is read back from its text in the definition of a paragraph column
exactly if it is plain. Of a finite width it is assumed that the number is read
back from its text. -/
theorem Width.parseSpecifiers_source_iff {s : String} {w : Width Float}
    (h : Width.parse s = .ok w) (hnonneg : ¬w.value < 0.0)
    (hread : w.value.isFinite = true →
      float? (shortestText w.value) = some w.value) :
    (∃ c, parseSpecifiers ("p[" ++ w.source ++ "]") = .ok [c] ∧
      c.width? = some w) ↔ w.Plain := by
  constructor
  · rintro ⟨c, hparse, hw⟩
    exact source_plain hparse hw
  · intro hplain
    exact ⟨ofWidth w, parseSpecifiers_ofWidth ⟨hnonneg, parse_proper h⟩ hplain
      hread, rfl⟩

theorem Width.parseSpecifiers_source_length :
    Width.parse "2.5cm" = .ok (.length 2.5 "cm" : Width Float) ∧
      ∃ c, parseSpecifiers ("p[" ++
        (Width.length 2.5 "cm" : Width Float).source ++ "]") = .ok [c] ∧
        c.width? = some (.length 2.5 "cm") := by
  have hparse : Width.parse "2.5cm" = .ok (.length 2.5 "cm" : Width Float) := by
    rfl
  refine ⟨hparse, (parseSpecifiers_source_iff hparse (by decide) ?_).mpr ?_⟩
  · intro _
    decide +kernel
  · decide

/-- The unit of a width may be any text, but only letters are read as a unit
without quotes. -/
theorem Width.not_parseSpecifiers_percent :
    Width.parse "50%" = .ok (.length 50.0 "%" : Width Float) ∧
      ¬(50.0 : Float) < 0.0 ∧ float? (shortestText 50.0) = some 50.0 ∧
      parseSpecifiers (α := Float) ("p[" ++
        (Width.length 50.0 "%" : Width Float).source ++ "]") =
        .error (.definition (.unexpectedCharacter '%') (some 4)) := by
  refine ⟨by rfl, by decide, by decide +kernel, ?_⟩
  exact Except.error?_eq_some.mp (by decide +kernel)

end Tabulation.Column
