import Tabulation.Proofs.Grammar.Faults
import Tabulation.Proofs.Source.RoundTrip

/-!
# Where column definitions are refused

A text that defines no columns is refused at a place in it: at a character that
begins no token, at a token, or at the end. What the lexer and the grammar
complain about is known to have such a place. Binding sees no text any more; it
complains about a column by the position that the identifier of the column was
read with, and the identifiers of a tree are leaves of it, which are tokens of
the text. A column inside an option of another one has its own identifier, so
the induction over nested definitions only has to say of which leaves there may
be complaints. Names of alignments are replaced before the lexer sees the text,
but what replaces them is not refused.
-/

namespace Tabulation.Column

open Text

/-! ## Binding -/

variable {α : Type}

/-- What binding complains about: an option that is missing, a width, or a
column at its identifier. -/
inductive Complaint (leaves : List (Leaf α)) : Error → Prop where
  | missing (owner option : String) :
      Complaint leaves (.missingOption owner option)
  | width (value : String) (fault : WidthFault) :
      Complaint leaves (.width value fault)
  | column {c : Char} {start : Nat} (cause : ColumnFault)
      (h : .identifier c start ∈ leaves) :
      Complaint leaves (.definition (.column c cause) (some start))

/-- An answer, or a complaint of binding. -/
inductive Checked {β : Type} (leaves : List (Leaf α)) :
    Except Error β → Prop where
  | ok (b : β) : Checked leaves (.ok b)
  | error {e : Error} (h : Complaint leaves e) : Checked leaves (.error e)

namespace Checked

variable {β γ : Type} {leaves leaves' : List (Leaf α)} {x : Except Error β}

theorem bind {f : β → Except Error γ} (h : Checked leaves x)
    (next : ∀ b, Checked leaves (f b)) : Checked leaves (x >>= f) := by
  cases h with
  | ok b => exact next b
  | error h => exact .error h

theorem map {f : β → γ} (h : Checked leaves x) : Checked leaves (f <$> x) := by
  cases h with
  | ok b => exact .ok (f b)
  | error h => exact .error h

theorem mono (h : Checked leaves x) (hsub : leaves ⊆ leaves') :
    Checked leaves' x := by
  cases h with
  | ok b => exact .ok b
  | error h =>
      cases h with
      | missing owner option => exact .error (.missing owner option)
      | width value fault => exact .error (.width value fault)
      | column cause h => exact .error (.column cause (hsub h))

end Checked

/-- The column that is bound has its identifier among the leaves. -/
def Bound.Among (b : Bound α) (leaves : List (Leaf α)) : Prop :=
  ∃ start, b.offset = some start ∧ .identifier b.identifier start ∈ leaves

section

variable {b : Bound α} {leaves : List (Leaf α)}

theorem Bound.required_checked (name : String) :
    Checked leaves (b.required name) := by
  rw [Bound.required]
  split
  · exact .ok _
  · split
    · exact .ok _
    · exact .error (.missing _ _)

theorem Bound.Among.fault {β : Type} (h : b.Among leaves)
    (cause : ColumnFault) :
    Checked (β := β) leaves (.error (b.fault cause)) := by
  obtain ⟨start, hoffset, hleaf⟩ := h
  rw [Bound.fault, hoffset]
  exact .error (.column cause hleaf)

theorem Bound.Among.flag (h : b.Among leaves) (name : String)
    (complaint : ColumnFault) : Checked leaves (b.flag name complaint) := by
  rw [Bound.flag]
  split
  · exact .ok _
  · split
    · exact .ok _
    · exact h.fault _

variable [Scalar α]

theorem Width.ofValue_checked (v : Value α) :
    Checked leaves (Width.ofValue v) := by
  have hnumber (text : String) :
      Checked leaves (numberAndUnit (α := α) text) := by
    rw [numberAndUnit]
    split
    · exact .ok _
    · exact .error (.width _ _)
  have hread : Checked leaves (Width.read v) := by
    rw [Width.read.eq_def]
    split
    · exact .ok _
    · exact .ok _
    · exact (hnumber _).bind fun _ => .ok _
    · exact .error (.width _ _)
  refine hread.bind fun w => ?_
  split
  · exact .error (.width _ _)
  · exact .ok w

theorem Numeric.ofBound_checked : Checked leaves (Numeric.ofBound b) := by
  refine Checked.bind ?_ fun _ => .ok _
  rw [Bound.tableColumnWidth]
  split
  · exact .ok _
  · exact .ok _
  · exact (Width.ofValue_checked _).map

variable (h : b.Among leaves)

include h

theorem Bound.Among.baselineskip : Checked leaves b.baselineskip := by
  rw [Bound.baselineskip]
  split
  case h_7 => exact h.fault _
  all_goals exact .ok _

theorem Bound.Among.indentFraction : Checked leaves b.indentFraction := by
  rw [Bound.indentFraction]
  split
  · exact .ok _
  · split
    · exact .ok _
    · exact h.fault _

theorem Bound.Among.spaceAfter : Checked leaves b.spaceAfter := by
  rw [Bound.spaceAfter]
  split
  case h_4 => exact h.fault _
  all_goals exact .ok _

theorem Bound.Among.finish (required options : List String) :
    Checked leaves (b.finish required options) := by
  rw [Bound.finish]
  split
  · exact h.fault _
  · split
    · exact h.fault _
    · exact .ok _

theorem Bound.Among.textSetting : Checked leaves (TextSetting.ofBound b) :=
  h.baselineskip.bind fun _ => (h.flag _ _).bind fun _ => .ok _

theorem Bound.Among.paragraph (anchor : Anchor) :
    Checked leaves (Paragraph.ofBound anchor b) := by
  rw [Paragraph.ofBound]
  refine (Bound.required_checked _).bind fun value => ?_
  refine (Width.ofValue_checked value).bind fun width => ?_
  refine h.indentFraction.bind fun fraction => ?_
  split
  · exact h.textSetting.bind fun _ => .ok _
  · exact h.fault _

theorem Bound.Among.kind : Checked leaves (Kind.ofBound b) := by
  rw [Kind.ofBound.eq_def]
  split
  · exact .ok _
  · exact .ok _
  · exact .ok _
  · exact (h.paragraph .top).map
  · exact (h.paragraph .middle).map
  · exact (h.paragraph .bottom).map
  · exact Numeric.ofBound_checked.map
  · exact h.textSetting.map
  · exact h.fault _

theorem Bound.Among.override (default : Override α) :
    Checked leaves (Override.ofBound default b) := by
  rw [Override.ofBound]
  split
  case h_5 => exact h.fault _
  all_goals exact .ok _

theorem Bound.Among.specifier : Checked leaves (Specifier.ofBound b) := by
  rw [Specifier.ofBound]
  refine h.kind.bind fun kind => ?_
  refine (h.override _).bind fun override => ?_
  refine (h.flag _ _).bind fun noSpaceAfter => ?_
  refine h.spaceAfter.bind fun spaceAfter => ?_
  exact (h.finish _ _).bind fun _ => .ok _

end

variable [Scalar α]

mutual

theorem Value.ofLiteral_checked (l : Literal α) :
    Checked l.leaves (Value.ofLiteral l) := by
  match l with
  | .nothing | .bool _ | .int _ | .number _ | .text _ =>
      rw [Value.ofLiteral]
      exact .ok _
  | .column d =>
      rw [Literal.leaves, Value.ofLiteral]
      exact (Specifier.ofDefinition_checked d).bind fun _ => .ok _
  | .columns ds =>
      rw [Literal.leaves, Value.ofLiteral]
      exact (specifiersOf_checked ds).bind fun _ => .ok _

theorem valuesOf_checked (ls : List (Literal α)) :
    Checked (literalsLeaves ls) (valuesOf ls) := by
  match ls with
  | [] =>
      rw [valuesOf]
      exact .ok _
  | l :: ls =>
      rw [literalsLeaves, valuesOf]
      have hl := (Value.ofLiteral_checked l).mono
        (List.subset_append_left _ (literalsLeaves ls))
      have hls := (valuesOf_checked ls).mono
        (List.subset_append_right l.leaves _)
      exact hl.bind fun _ => hls.bind fun _ => .ok _

theorem bindNamed_checked (bound : Entries (Value α))
    (named : List (NamedArgument α)) :
    Checked (namedLeaves named) (bindNamed bound named) := by
  match named with
  | [] =>
      rw [bindNamed]
      exact .ok _
  | .assign key l :: rest =>
      rw [namedLeaves, bindNamed]
      have hl := (Value.ofLiteral_checked l).mono
        (List.subset_append_left _ (namedLeaves rest))
      refine (hl.bind fun value => ?_).mono (List.subset_cons_self _ _)
      exact (bindNamed_checked _ rest).mono (List.subset_append_right _ _)
  | .flag name :: rest =>
      rw [namedLeaves, bindNamed]
      exact (bindNamed_checked _ rest).mono (List.subset_cons_self _ _)

theorem Specifier.ofDefinition_checked (d : Definition α) :
    Checked d.leaves (Specifier.ofDefinition d) := by
  match d with
  | ⟨identifier, ⟨positional, named⟩, offset⟩ =>
      rw [Definition.leaves, Specifier.ofDefinition]
      have hpositional := (valuesOf_checked positional).mono
        (List.subset_append_left _ (namedLeaves named))
      have hnamed := (bindNamed_checked [] named).mono
        (List.subset_append_right (literalsLeaves positional) _)
      refine (hpositional.mono (List.subset_cons_self _ _)).bind fun _ => ?_
      refine (hnamed.mono (List.subset_cons_self _ _)).bind fun _ => ?_
      exact Bound.Among.specifier ⟨offset, rfl, List.mem_cons_self⟩

theorem specifiersOf_checked (ds : List (Definition α)) :
    Checked (definitionsLeaves ds) (specifiersOf ds) := by
  match ds with
  | [] =>
      rw [specifiersOf]
      exact .ok _
  | d :: ds =>
      rw [definitionsLeaves, specifiersOf]
      have hd := (Specifier.ofDefinition_checked d).mono
        (List.subset_append_left _ (definitionsLeaves ds))
      have hds := (specifiersOf_checked ds).mono
        (List.subset_append_right d.leaves _)
      exact hd.bind fun _ => hds.bind fun _ => .ok _

end

/-! ## Texts -/

/-- A token stands in a text where it is spelled. -/
def Token.StandsIn (text : String) (t : Token) : Prop :=
  ∃ before slice after : String, text = before ++ slice ++ after ∧
    slice ≠ "" ∧ t.offset = before.utf8ByteSize ∧ Spells t.lexeme slice.toList

/-- The errors of a text that defines no columns. -/
inductive Refused (text : String) : Error → Prop where
  | missing (owner option : String) :
      Refused text (.missingOption owner option)
  | width (value : String) (fault : WidthFault) :
      Refused text (.width value fault)
  /-- No token begins at a character, or a quote is not closed. -/
  | character {before after : String} {c : Char} {ts : List Token}
      {fault : DefinitionFault} (cut : text = before ++ c.toString ++ after)
      (front : tokenize before = .ok ts)
      (stops : fault = .unexpectedCharacter c ∨
        fault = .unterminated c ∧ (c = '\'' ∨ c = '"')) :
      Refused text (.definition fault (some before.utf8ByteSize))
  /-- A token is not one that may stand there. -/
  | token {ts : List Token} {t : Token} (fault : DefinitionFault)
      (tokens : tokenize text = .ok ts) (mem : t ∈ ts)
      (stands : t.StandsIn text) :
      Refused text (.definition fault (some t.offset))
  /-- A token is missing at the end. -/
  | finish {ts : List Token} (fault : DefinitionFault)
      (tokens : tokenize text = .ok ts) :
      Refused text (.definition fault (some text.utf8ByteSize))
  /-- A column is not accepted, which may be one in an option of another. -/
  | column {ts : List Token} {t : Token} {c : Char} (cause : ColumnFault)
      (tokens : tokenize text = .ok ts) (mem : t ∈ ts)
      (stands : t.StandsIn text) (identifier : t.lexeme = .word c.toString) :
      Refused text (.definition (.column c cause) (some t.offset))

theorem byteLength_toList (s : String) :
    byteLength s.toList = s.utf8ByteSize := by
  obtain ⟨cs, rfl⟩ : ∃ cs, s = String.ofList cs :=
    ⟨s.toList, String.ofList_toList.symm⟩
  rw [String.toList_ofList]
  induction cs with
  | nil => rfl
  | cons c cs ih =>
      rw [byteLength_cons, ih, String.ofList_cons, String.utf8ByteSize_append,
        String.utf8ByteSize_singleton]

theorem byteLength_eq (cs : List Char) :
    byteLength cs = (String.ofList cs).utf8ByteSize := by
  rw [← byteLength_toList, String.toList_ofList]

theorem standsIn {text : String} {ts : List Token}
    (h : tokenize text = .ok ts) : ∀ t ∈ ts, t.StandsIn text := by
  intro t ht
  obtain ⟨before, slice, after, htext, hoffset, hbegins⟩ :=
    (tokensFrom_eq_ok.mp h).begins t ht
  refine ⟨String.ofList before, String.ofList slice, String.ofList after, ?_,
    ?_, ?_, ?_⟩
  · rw [← String.ofList_append, ← String.ofList_append, ← htext,
      String.ofList_toList]
  · exact mt String.ofList_eq_empty_iff.mp hbegins.ne_nil
  · rw [hoffset, Nat.zero_add, byteLength_eq]
  · rw [String.toList_ofList]
    exact hbegins.spells

theorem lexeme_error {c : Char} {rest : List Char} {fault : DefinitionFault}
    (h : lexeme c rest = .error fault) :
    fault = .unexpectedCharacter c ∨
      fault = .unterminated c ∧ (c = '\'' ∨ c = '"') := by
  rw [lexeme] at h
  split at h
  · cases h
  split at h
  · cases h
  split at h
  · cases h
  split at h
  · cases h
  split at h
  · next hquote =>
      split at h
      · cases h
      · cases h
        exact .inr ⟨rfl, hquote⟩
  split at h
  · cases h
  split at h
  · simp only [] at h
    split at h
    · cases h
    · cases h
  · cases h
    exact .inl rfl

theorem tokenize_refused {text : String} {e : Error}
    (h : tokenize text = .error e) : Refused text e := by
  obtain ⟨before, ts, c, rest, fault, htext, hts, -, hfault, rfl⟩ :=
    tokensFrom_error h
  rw [Nat.zero_add, byteLength_eq]
  refine @Refused.character _ _ (String.ofList rest) c ts _ ?_ ?_
    (lexeme_error hfault)
  · rw [← String.toList_inj, htext, String.toList_append, String.toList_append]
    simp
  · rw [tokenize, String.toList_ofList]
    exact tokensFrom_eq_ok.mpr hts

theorem parseDefinitions_refused {text : String} {e : Error}
    (h : parseDefinitions (α := α) text = .error e) : Refused text e := by
  rcases parseDefinitions_error h with htokens | ⟨ts, hts, hlocated⟩
  · exact tokenize_refused htokens
  · obtain ⟨fault, p, rfl, rfl | ⟨t, ht, rfl⟩⟩ := hlocated
    · exact .finish fault hts
    · exact .token fault hts ht (standsIn hts t ht)

/-- The identifiers of a tree are tokens of the text that it is read from. -/
theorem identifier_token {text : String} {ds : List (Definition α)}
    (h : parseDefinitions text = .ok ds) {c : Char} {start : Nat}
    (hleaf : .identifier c start ∈ definitionsLeaves ds) :
    ∃ ts, tokenize text = .ok ts ∧
      ∃ t ∈ ts, t.offset = start ∧ t.lexeme = .word c.toString := by
  obtain ⟨ts, hts⟩ := parseDefinitions_tokenize h
  refine ⟨ts, hts, ?_⟩
  rcases (parseDefinitions_eq_ok hts).mp h with ⟨-, rfl⟩ | hderives
  · rw [definitionsLeaves] at hleaf
    cases hleaf
  · have hleaves := hderives.leaves
    rw [Phrase.leaves] at hleaves
    obtain ⟨i, hi⟩ := List.mem_iff_get.mp hleaf
    have hlength : i.1 < (ts.filter Token.isLeaf).length := by
      rw [← hleaves.length_eq]
      exact i.isLt
    have hreads := hleaves.get i.isLt hlength
    rw [hi] at hreads
    have hmem := List.get_mem (ts.filter Token.isLeaf) ⟨i, hlength⟩
    exact ⟨_, List.mem_of_mem_filter hmem, hreads.1, hreads.2.1⟩

theorem specifiersOf_refused {text : String} {ds : List (Definition α)}
    {e : Error} (hds : parseDefinitions text = .ok ds)
    (h : specifiersOf ds = .error e) : Refused text e := by
  have hchecked := specifiersOf_checked ds
  rw [h] at hchecked
  obtain _ | hcomplaint := hchecked
  cases hcomplaint with
  | missing owner option => exact .missing owner option
  | width value fault => exact .width value fault
  | column cause hleaf =>
      obtain ⟨ts, hts, t, ht, rfl, hlexeme⟩ := identifier_token hds hleaf
      exact .column cause hts ht (standsIn hts t ht) hlexeme

/-! ## Names -/

/-- A column of which nothing is said but how it is aligned. -/
def aligned (align : Align) : Specifier Float := .plain (.simple align)

theorem aligned_within (align : Align) :
    (aligned align).within = [aligned align] := by
  rw [Specifier.within_eq]
  rfl

theorem aligned_writable (aligns : List Align) :
    Writable (.specifiers (aligns.map aligned)) ∧
      ∀ c ∈ withinList (aligns.map aligned), c.Plain := by
  have hnone : ∀ {β : Type} {p : β → Prop}, ∀ x ∈ ([] : List β), p x :=
    fun _ h => absurd h List.not_mem_nil
  induction aligns with
  | nil =>
      rw [List.map_nil, withinList]
      exact ⟨.nil, hnone⟩
  | cons align aligns ih =>
      rw [List.map_cons, withinList, aligned_within]
      refine ⟨.cons ?_ ih.1, List.forall_mem_cons.mpr ⟨?_, ih.2⟩⟩
      · exact .specifier hnone trivial .nothing rfl rfl
      · exact ⟨hnone, hnone⟩

theorem namedAlignment?_source {name letter : String}
    (h : namedAlignment? name = some letter) :
    ∃ align, letter = (aligned align).source := by
  rw [namedAlignment?.eq_def] at h
  split at h
  all_goals cases h
  · exact ⟨.left, by rfl⟩
  · exact ⟨.left, by rfl⟩
  · exact ⟨.right, by rfl⟩
  · exact ⟨.center, by rfl⟩
  · exact ⟨.left, by rfl⟩
  · exact ⟨.right, by rfl⟩
  · exact ⟨.center, by rfl⟩

theorem letters_source {names : List String}
    (h : ∀ name ∈ names, (namedAlignment? name).isSome = true) :
    ∃ aligns : List Align, names.filterMap namedAlignment? =
      sourceList (aligns.map aligned) := by
  induction names with
  | nil => exact ⟨[], by rw [List.map_nil, sourceList]; rfl⟩
  | cons name names ih =>
      obtain ⟨hname, hnames⟩ := List.forall_mem_cons.mp h
      obtain ⟨letter, hletter⟩ := Option.isSome_iff_exists.mp hname
      obtain ⟨align, rfl⟩ := namedAlignment?_source hletter
      obtain ⟨aligns, hrest⟩ := ih hnames
      refine ⟨align :: aligns, ?_⟩
      rw [List.filterMap_cons_some hletter, hrest, List.map_cons, sourceList]

/-- A text is replaced only if it consists of names, and what replaces it
defines columns. -/
theorem parseSpecifiers_names {text : String} (h : expandNames text ≠ text) :
    ∃ cs : List (Specifier Float), parseSpecifiers text = .ok cs := by
  generalize hnames : (Text.split ',' text).map Text.trim = names
  have hexpand : expandNames text =
      if (names.map namedAlignment?).all Option.isSome then
        ",".intercalate (names.filterMap namedAlignment?) else text := by
    rw [expandNames, ← hnames]
    simp only [List.map_map, List.filterMap_map]
    rfl
  have hall : (names.map namedAlignment?).all Option.isSome = true := by
    by_contra hnot
    rw [hexpand, if_neg hnot] at h
    exact h rfl
  rw [if_pos hall] at hexpand
  rw [List.all_map, List.all_eq_true] at hall
  obtain ⟨aligns, haligns⟩ := letters_source hall
  obtain ⟨hwritable, hplain⟩ := aligned_writable aligns
  have hparse := hwritable.parse hplain
  rw [parseSpecifiers, expandNames_source, ← haligns, ← hexpand] at hparse
  exact ⟨_, hparse⟩

/-- A text that defines no columns is refused for an option that is missing, for
a width, or at a place in it. -/
theorem parseSpecifiers_refused {text : String} {e : Error}
    (h : parseSpecifiers (α := Float) text = .error e) : Refused text e := by
  have hsame : expandNames text = text := by
    by_contra hne
    obtain ⟨cs, hcs⟩ := parseSpecifiers_names hne
    rw [h] at hcs
    cases hcs
  rw [parseSpecifiers, hsame] at h
  cases hds : parseDefinitions (α := Float) text with
  | error e' =>
      rw [hds] at h
      cases h
      exact parseDefinitions_refused hds
  | ok ds =>
      rw [hds] at h
      exact specifiersOf_refused hds h

/-- A column in a list of columns in an option that is no kind of column, behind
a character of two bytes. -/
def unknownWithin : String :=
  "p[0.3,space_after='µ',multicolumn_definitions=[q]]"

theorem parseSpecifiers_refused_within :
    parseSpecifiers (α := Float) unknownWithin =
      .error (.definition (.column 'q' .unknownIdentifier) (some 48)) ∧
    Refused unknownWithin
      (.definition (.column 'q' .unknownIdentifier) (some 48)) := by
  have hparse : parseSpecifiers (α := Float) unknownWithin =
      .error (.definition (.column 'q' .unknownIdentifier) (some 48)) :=
    Except.error?_eq_some.mp (by decide +kernel)
  exact ⟨hparse, parseSpecifiers_refused hparse⟩

end Tabulation.Column
