import Tabulation.Proofs.Source.Binding
import Tabulation.Proofs.Source.Options

/-!
# Source texts are read back

What can be written is written as a text from which the same is read, wherever
in a longer text that stands. A part of a text is described by what holds of its
tokens whatever their positions, and such parts are joined at the marks between
them, as the source text of a specifier is: its arguments at the commas, an
option at its equals sign, a list of columns inside of its brackets.
-/

namespace Tabulation.Column

open Decimal

/-- A part of a text of which the tokens have a property. -/
def Reads (p : List Token → Prop) (cs : List Char) : Prop :=
  ∃ ls, cs = ls.flatMap Lexeme.spell ∧ Spaced ls ∧
    ∀ ts, ts.map Token.lexeme = ls → p ts

theorem Reads.nil {p : List Token → Prop} (h : p []) : Reads p [] := by
  refine ⟨[], rfl, .nil, ?_⟩
  intro ts hts
  rw [List.map_eq_nil_iff.mp hts]
  exact h

theorem Reads.leaf {p : List Token → Prop} {l : Lexeme} (hl : l.Legible)
    (h : ∀ start, p [⟨l, start⟩]) : Reads p l.spell := by
  refine ⟨[l], ?_, .last hl, ?_⟩
  · rw [List.flatMap_cons, List.flatMap_nil, List.append_nil]
  · intro ts hts
    obtain ⟨start, rfl⟩ := lexemes_eq_singleton hts
    exact h start

theorem Reads.join {p q r : List Token → Prop} {s t : List Char} {m : Lexeme}
    (hm : m.isMark = true) (hp : Reads p s) (hq : Reads q t)
    (h : ∀ ts us start, p ts → q us → r (ts ++ ⟨m, start⟩ :: us)) :
    Reads r (s ++ (m.spell ++ t)) := by
  obtain ⟨ls, rfl, hls, hp⟩ := hp
  obtain ⟨ms, rfl, hms, hq⟩ := hq
  refine ⟨ls ++ m :: ms, ?_, hls.append hm hms, ?_⟩
  · rw [List.flatMap_append, List.flatMap_cons]
  · intro ts hts
    obtain ⟨us, vs, rfl, hus, hvs⟩ := List.map_eq_append_iff.mp hts
    obtain ⟨v, vs', rfl, hv, hvs'⟩ := List.map_eq_cons_iff.mp hvs
    obtain ⟨l, start⟩ := v
    cases hv
    exact h us vs' start (hp us hus) (hq vs' hvs')

theorem Reads.imp {p q : List Token → Prop} {s : List Char} (hp : Reads p s)
    (h : ∀ ts, p ts → q ts) : Reads q s := by
  obtain ⟨ls, hs, hls, hp⟩ := hp
  exact ⟨ls, hs, hls, fun ts hts => h ts (hp ts hts)⟩

theorem Reads.closed {p : List Token → Prop} {s : List Char}
    (hp : Reads p s) :
    Reads (fun us => ∃ ts closed, p ts ∧
      us = ts ++ [⟨.closeBracket, closed⟩]) (s ++ [']']) := by
  refine .join (m := .closeBracket) rfl hp (.nil (p := (· = [])) rfl) ?_
  intro ts us start hts hus
  exact ⟨ts, start, hts, by rw [hus]⟩

theorem Reads.bracketed {p q : List Token → Prop} {s : List Char}
    (hp : Reads p s)
    (h : ∀ ts opened closed, p ts → q (⟨.openBracket, opened⟩ ::
      (ts ++ [⟨.closeBracket, closed⟩]))) :
    Reads q ('[' :: (s ++ [']'])) := by
  refine .join (m := .openBracket) rfl (.nil (p := (· = [])) rfl) hp.closed ?_
  intro ts us start hts hus
  obtain ⟨vs, closed, hvs, rfl⟩ := hus
  rw [hts]
  exact h vs start closed hvs

/-! ## Widths -/

theorem numberLiteral_pointedText {x : Float} (h : x.isFinite = true)
    (hread : float? (shortestText x) = some x) (start : Nat) :
    numberLiteral (Scalar.pointedText x) start =
      .ok (.number x : Literal Float) := by
  have hpoint := (pointedText_isNumeral h).2
  have hx : Scalar.read? (Scalar.pointedText x) = some x :=
    float?_pointedText h hread
  rw [numberLiteral, if_pos (List.contains_iff_mem.mpr hpoint), hx]
  exact congrArg Except.ok (if_pos rfl)

/-- A width is read as the value of the option that sets it. -/
theorem Width.reads_source {w : Width Float} (h : w.Proper) (hw : w.Plain)
    (hread : float? (shortestText w.value) = some w.value) :
    Reads (fun ts => ∃ l, Derives (.operand l) ts ∧
      Value.ofLiteral l = .ok w.toValue) w.source.toList := by
  cases w with
  | fraction x =>
      refine .leaf (l := .number (Scalar.pointedText x))
        (.number (pointedText_isNumeral hw).1) ?_
      intro start
      exact ⟨_, .number (numberLiteral_pointedText hw hread start),
        by rw [Value.ofLiteral]; rfl⟩
  | length x unit =>
      have hne : unit.toList ≠ [] := by
        intro hnil
        exact h.2 x unit rfl (String.toList_eq_nil_iff.mp hnil)
      refine .leaf (l := .length (Scalar.text x ++ unit))
        (.length String.toList_append (shortestText_isNumeral hw.1) hne
          hw.2) ?_
      intro start
      exact ⟨_, .length, by rw [Value.ofLiteral]; rfl⟩

/-! ## Named arguments -/

def Node.source : Node → String
  | .value v => v.source
  | .specifier c => c.source
  | .specifiers cs => String.intercalate "," (sourceList cs)

/-- The tokens of which something is read. -/
def Node.Read : Node → List Token → Prop
  | .value v, ts =>
      ∃ l, Derives (.value l) ts ∧ Value.ofLiteral l = .ok v
  | .specifier c, ts =>
      ∃ d, Derives (.definition d) ts ∧ Specifier.ofDefinition d = .ok c
  | .specifiers cs, ts =>
      ∃ ds, Derives (.definitions ds) ts ∧ specifiersOf ds = .ok cs

/-- A key that is stored as it is written. -/
def isKey (key : String) : Bool :=
  match key.toList with
  | [] => false
  | c :: cs => isWordStart c && (cs.all isWordPart && storedKey key = key)

theorem isKey_legible {key : String} (h : isKey key = true) :
    (Lexeme.word key).Legible ∧ storedKey key = key := by
  rw [isKey] at h
  split at h
  · cases h
  · next c cs hkey =>
      rw [Bool.and_eq_true, Bool.and_eq_true, decide_eq_true_iff] at h
      exact ⟨.word hkey h.1 h.2.1, h.2.2⟩

/-- Arguments that assign entries. -/
inductive Assigns : List String → Entries (Value Float) → Prop where
  | nil : Assigns [] []
  | cons {key text : String} {v : Value Float} {ss : List String}
      {es : Entries (Value Float)} :
      isKey key = true → Reads (Node.value v).Read text.toList →
      Assigns ss es → Assigns ((key ++ "=" ++ text) :: ss) ((key, v) :: es)

theorem Assigns.append {ss ss' : List String} {es es' : Entries (Value Float)}
    (h : Assigns ss es) (h' : Assigns ss' es') :
    Assigns (ss ++ ss') (es ++ es') := by
  induction h with
  | nil => exact h'
  | cons hkey hv _ ih => exact .cons hkey hv ih

theorem assigns_entry {key text : String} {v : Value Float}
    (hkey : isKey key = true) (hv : Reads (Node.value v).Read text.toList) :
    Assigns [key ++ "=" ++ text] (entry key (some v)) :=
  .cons hkey hv .nil

theorem assigns_unless {isDefault : Bool} {key text : String} {v : Value Float}
    (hkey : isKey key = true) (hv : Reads (Node.value v).Read text.toList) :
    Assigns (sourceUnless isDefault key text)
      (entry key (written isDefault v)) := by
  cases isDefault with
  | true => exact .nil
  | false => exact assigns_entry hkey hv

theorem reads_assign {key text : String} {v : Value Float}
    (hkey : isKey key = true) (hv : Reads (Node.value v).Read text.toList) :
    Reads (fun ts => ∃ l, Derives (.named (.assign key l)) ts ∧
      Value.ofLiteral l = .ok v) (key ++ "=" ++ text).toList := by
  obtain ⟨hlegible, hstored⟩ := isKey_legible hkey
  have hleaf : Reads (fun ts => ∃ start, ts = [⟨.word key, start⟩])
      (Lexeme.word key).spell :=
    .leaf hlegible (fun start => ⟨start, rfl⟩)
  rw [String.toList_append, String.toList_append, List.append_assoc]
  refine .join (m := .equals) rfl hleaf hv ?_
  intro ts us start hts hus
  obtain ⟨start', rfl⟩ := hts
  obtain ⟨l, hl, hvalue⟩ := hus
  have hassign : Derives (.named (.assign (storedKey key) l))
      (⟨.word key, start'⟩ :: ⟨.equals, start⟩ :: us) := .assign hl
  rw [hstored] at hassign
  exact ⟨l, hassign, hvalue⟩

/-- Arguments that assign entries of different names add just these. -/
theorem Assigns.reads {ss : List String} {es : Entries (Value Float)}
    (h : Assigns ss es) (hne : ss ≠ []) (named : Bool) :
    Reads (fun ts => ∃ ns, Derives (.arguments named ⟨[], ns⟩) ts ∧
      ∀ bound, (Entries.keys (bound ++ es)).Nodup →
        bindNamed bound ns = .ok (bound ++ es))
      (String.intercalate "," ss).toList := by
  induction h generalizing named with
  | nil => exact absurd rfl hne
  | @cons key text v ss es hkey hv hss ih =>
      have hbind : ∀ (l : Literal Float) (bound : Entries (Value Float))
          (ns : List (NamedArgument Float)), Value.ofLiteral l = .ok v →
          (Entries.keys (bound ++ (key, v) :: es)).Nodup →
          bindNamed bound (.assign key l :: ns) =
            bindNamed (bound ++ [(key, v)]) ns := by
        intro l bound ns hl hnodup
        rw [Entries.keys_append, List.nodup_append] at hnodup
        have hfresh : key ∉ bound.keys := by
          intro hmem
          exact hnodup.2.2 key hmem key List.mem_cons_self rfl
        rw [bindNamed, hl]
        show bindNamed (bound.insert key v) ns = _
        rw [Entries.insert_of_not_mem hfresh]
      cases hss with
      | nil =>
          rw [String.intercalate_singleton]
          refine (reads_assign hkey hv).imp ?_
          intro ts h
          obtain ⟨l, hl, hvalue⟩ := h
          refine ⟨[.assign key l], .lastNamed hl, ?_⟩
          intro bound hnodup
          rw [hbind l bound [] hvalue hnodup, bindNamed]
      | @cons key' text' v' ss es hkey' hv' hss =>
          have hrest := ih (List.cons_ne_nil _ _) true
          rw [String.intercalate_cons_cons, String.toList_append,
            String.toList_append, List.append_assoc]
          refine .join (m := .comma) rfl (reads_assign hkey hv) hrest ?_
          intro ts us start hts hus
          obtain ⟨l, hl, hvalue⟩ := hts
          obtain ⟨ns, hns, hentries⟩ := hus
          refine ⟨.assign key l :: ns, .moreNamed hl hns, ?_⟩
          intro bound hnodup
          rw [hbind l bound ns hvalue hnodup, hentries]
          · rw [List.append_assoc]
            rfl
          · rw [List.append_assoc]
            exact hnodup

/-! ## Values -/

theorem reads_word {w : String} {v : Value Float}
    (hl : (Lexeme.word w).Legible) (hw : identifier? w = none)
    (hv : Value.ofLiteral (wordLiteral w) = .ok v) :
    Reads (Node.value v).Read w.toList := by
  refine .leaf hl ?_
  intro start
  exact ⟨_, .word hw, hv⟩

theorem reads_nothing : Reads (Node.value .nothing).Read "none".toList :=
  reads_word (@isKey_legible "none" (by decide)).1 (by decide)
    (by rw [wordLiteral]; rfl)

theorem reads_bool (b : Bool) :
    Reads (Node.value (.bool b)).Read (toString b).toList := by
  cases b with
  | false =>
      exact reads_word (@isKey_legible "false" (by decide)).1
        (by decide) (by rw [wordLiteral]; rfl)
  | true =>
      exact reads_word (@isKey_legible "true" (by decide)).1
        (by decide) (by rw [wordLiteral]; rfl)

theorem reads_text (s : String) :
    Reads (Node.value (.text s)).Read (quote s).toList := by
  refine .leaf (l := .quoted s) .quoted ?_
  intro start
  exact ⟨_, .value .quoted, by rw [Value.ofLiteral]⟩

theorem reads_numeral {n : String} {l : Literal Float} {v : Value Float}
    (hn : IsNumeral n.toList) (hl : ∀ start, numberLiteral n start = .ok l)
    (hv : Value.ofLiteral l = .ok v) :
    Reads (Node.value v).Read n.toList := by
  refine .leaf (l := .number n) (.number hn) ?_
  intro start
  exact ⟨l, .value (.number (hl start)), hv⟩

/-! ## Arguments -/

theorem TextSetting.assigns (t : TextSetting) :
    Assigns t.sources t.entries := by
  obtain ⟨baselineskip, raggedright⟩ := t
  rw [sources, entries]
  refine .append ?_ ?_
  · cases baselineskip with
    | none =>
        exact @assigns_entry "baselineskip" "false" _ (by decide)
          (reads_bool false)
    | some skip =>
        by_cases hten : skip = "10pt"
        · subst hten
          exact .nil
        · simp only [TextSetting.skip, written, decide_eq_true_iff,
            if_neg hten]
          exact @assigns_entry "baselineskip" _ _ (by decide) (reads_text skip)
  · cases raggedright with
    | false => exact .nil
    | true =>
        exact @assigns_entry "raggedright" "true" _ (by decide)
          (reads_bool true)

theorem Paragraph.assigns {p : Paragraph Float} (hp : p.Proper)
    (hread : float? (shortestText p.indentFraction) =
      some p.indentFraction) :
    ∃ ss, p.sources = [p.width.source] ++ ss ∧
      Assigns ss (Kind.paragraph p).entries := by
  have hfinite := isFinite_of_range hp.nonneg hp.fraction
  have hvalue : Reads (Node.value (.number p.indentFraction)).Read
      (Scalar.pointedText p.indentFraction).toList :=
    reads_numeral (pointedText_isNumeral hfinite).1
      (numberLiteral_pointedText hfinite hread) (by rw [Value.ofLiteral])
  have hfraction : Assigns
      (if p.indentFraction == defaultIndentFraction then []
        else ["indent_fraction=" ++ Scalar.pointedText p.indentFraction])
      (entry "indent_fraction" (written
        (p.indentFraction == defaultIndentFraction)
        (.number p.indentFraction))) := by
    cases p.indentFraction == defaultIndentFraction with
    | true => exact .nil
    | false => exact @assigns_entry "indent_fraction" _ _ (by decide) hvalue
  refine ⟨_, ?_, hfraction.append p.text.assigns⟩
  rw [sources, List.append_assoc]

theorem Numeric.sources_eq (n : Numeric Float) :
    (Kind.numeric n).sources =
      sourceUnless (n.tableFormat.isText "3.2") "table_format"
        n.tableFormat.source ++
      (sourceUnless n.addIntegerZero.isNothing "add_integer_zero"
        n.addIntegerZero.source ++
      (sourceUnless n.tableNumberAlignment.isNothing "table_number_alignment"
        n.tableNumberAlignment.source ++
      (sourceUnless n.retainExplicitPlus.isNothing "retain_explicit_plus"
        n.retainExplicitPlus.source ++
      (sourceUnless (n.detectInlineWeight.isText "math")
        "detect_inline_weight" n.detectInlineWeight.source ++
      n.tableColumnWidth.toList.map fun w =>
        "table_column_width=" ++ w.source)))) := by
  obtain ⟨format, zero, width, alignment, plus, weight⟩ := n
  cases width <;> (simp only [Kind.sources, List.append_assoc]; rfl)

theorem Numeric.assigns {n : Numeric Float}
    (hwidths : ∀ w ∈ (Specifier.plain (.numeric n)).widths,
      Reads (fun ts => ∃ l, Derives (.operand l) ts ∧
        Value.ofLiteral l = .ok w.toValue) w.source.toList)
    (hvalues : ∀ v ∈ (Kind.numeric n).values,
      Reads (Node.value v).Read v.source.toList) :
    Assigns (Kind.numeric n).sources (Kind.numeric n).entries := by
  have hwidth : Assigns
      (n.tableColumnWidth.toList.map fun w => "table_column_width=" ++ w.source)
      (entry "table_column_width" (n.tableColumnWidth.map Width.toValue)) := by
    cases hw : n.tableColumnWidth with
    | none => exact .nil
    | some w =>
        refine @assigns_entry "table_column_width" _ _ (by decide) ?_
        refine (hwidths w (Option.mem_toList.mpr hw)).imp ?_
        intro ts h
        obtain ⟨l, hl, hv⟩ := h
        exact ⟨l, .value hl, hv⟩
  have hoption : ∀ (isDefault : Bool) (key : String) (v : Value Float),
      isKey key = true → v ∈ (Kind.numeric n).values →
      Assigns (sourceUnless isDefault key v.source)
        (entry key (written isDefault v)) := by
    intro isDefault key v hkey hv
    exact assigns_unless hkey (hvalues v hv)
  rw [sources_eq]
  exact (hoption _ _ n.tableFormat (by decide) (by simp [Kind.values])).append
    ((hoption _ _ n.addIntegerZero (by decide) (by simp [Kind.values])).append
    ((hoption _ _ n.tableNumberAlignment (by decide)
      (by simp [Kind.values])).append
    ((hoption _ _ n.retainExplicitPlus (by decide)
      (by simp [Kind.values])).append
    ((hoption _ _ n.detectInlineWeight (by decide)
      (by simp [Kind.values])).append hwidth))))

/-- The text of the argument that is given by position. -/
def Kind.widthSource : Kind Float → List String
  | .paragraph p => [p.width.source]
  | _ => []

/-- Behind the width, the arguments of a kind assign its entries. -/
theorem Kind.assigns {k : Kind Float} (hk : k.Proper)
    (hread : ∀ x ∈ (Specifier.plain k).numbers, x.isFinite = true →
      float? (shortestText x) = some x)
    (hwidths : ∀ w ∈ (Specifier.plain k).widths,
      Reads (fun ts => ∃ l, Derives (.operand l) ts ∧
        Value.ofLiteral l = .ok w.toValue) w.source.toList)
    (hvalues : ∀ v ∈ k.values, Reads (Node.value v).Read v.source.toList) :
    ∃ ss, k.sources = k.widthSource ++ ss ∧ Assigns ss k.entries := by
  cases k with
  | simple align => exact ⟨[], by rw [sources]; rfl, .nil⟩
  | paragraph p =>
      rw [sources]
      refine Paragraph.assigns hk (hread _ ?_ ?_)
      · exact List.mem_append_right _ List.mem_cons_self
      · exact isFinite_of_range hk.nonneg hk.fraction
  | numeric n =>
      exact ⟨(Kind.numeric n).sources, rfl, Numeric.assigns hwidths hvalues⟩
  | autoWidth t => exact ⟨_, by rw [sources]; rfl, t.assigns⟩

def Specifier.sharedSources (c : Specifier Float) : List String :=
  sourceUnless c.hasDefaultOverride "multicolumn_definitions"
    c.override.source ++
  (sourceUnless (!c.noSpaceAfter) "no_space_after" "true" ++
  c.spaceAfter.toList.map fun space => "space_after=" ++ quote space)

theorem Specifier.source_eq (c : Specifier Float) :
    c.source = c.kind.identifier.toString ++
      bracketed (c.kind.sources ++ c.sharedSources) := by
  obtain ⟨kind, override, noSpaceAfter, spaceAfter, noLeft, noRight⟩ := c
  cases spaceAfter <;> cases noSpaceAfter <;>
    (simp only [source, sharedSources, List.append_assoc]; rfl)

theorem Specifier.assigns_shared {c : Specifier Float}
    (h : Reads (Node.value c.override.value).Read c.override.source.toList) :
    Assigns c.sharedSources c.shared := by
  obtain ⟨kind, override, noSpaceAfter, spaceAfter, noLeft, noRight⟩ := c
  refine (assigns_unless (by decide) h).append (.append ?_ ?_)
  · exact assigns_unless (by decide) (reads_bool true)
  · cases spaceAfter with
    | none => exact .nil
    | some space =>
        exact @assigns_entry "space_after" _ _ (by decide) (reads_text space)

/-- A list of arguments, of which the first may be given by position. -/
theorem Kind.reads_arguments {k : Kind Float} {ss : List String}
    {es : Entries (Value Float)}
    (hwidths : ∀ w ∈ (Specifier.plain k).widths,
      Reads (fun ts => ∃ l, Derives (.operand l) ts ∧
        Value.ofLiteral l = .ok w.toValue) w.source.toList)
    (hss : Assigns ss es) (hes : es.keys.Nodup)
    (hne : k.widthSource ++ ss ≠ []) :
    Reads (fun ts => ∃ as, Derives (.arguments false as) ts ∧
      valuesOf as.positional = .ok k.positional ∧
      bindNamed [] as.named = .ok es)
      (String.intercalate "," (k.widthSource ++ ss)).toList := by
  have hnamed : ss ≠ [] → Reads (fun ts => ∃ as,
      Derives (.arguments false as) ts ∧ valuesOf as.positional = .ok [] ∧
      bindNamed [] as.named = .ok es) (String.intercalate "," ss).toList := by
    intro hne
    refine (hss.reads hne false).imp ?_
    intro ts h
    obtain ⟨ns, hns, hbind⟩ := h
    exact ⟨⟨[], ns⟩, hns, by rw [valuesOf], hbind [] hes⟩
  cases k with
  | paragraph p =>
      have hwidth := hwidths p.width List.mem_cons_self
      cases hss with
      | nil =>
          show Reads _ (String.intercalate "," [p.width.source]).toList
          rw [String.intercalate_singleton]
          refine hwidth.imp ?_
          intro ts h
          obtain ⟨l, hl, hv⟩ := h
          refine ⟨⟨[l], []⟩, .lastPositional (.positional hl), ?_, ?_⟩
          · rw [valuesOf, hv]
            rfl
          · rw [bindNamed]
      | @cons key text v ss es hkey hv hss =>
          show Reads _ (String.intercalate ","
            (p.width.source :: (key ++ "=" ++ text) :: ss)).toList
          rw [String.intercalate_cons_cons, String.toList_append,
            String.toList_append, List.append_assoc]
          refine .join (m := .comma) rfl hwidth
            (hnamed (List.cons_ne_nil _ _)) ?_
          intro ts us start hts hus
          obtain ⟨l, hl, hv⟩ := hts
          obtain ⟨as, has, hvalues, hbind⟩ := hus
          refine ⟨_, .morePositional (.positional hl) has, ?_, hbind⟩
          show valuesOf (l :: as.positional) = _
          rw [valuesOf, hv, hvalues]
          rfl
  | _ => exact hnamed hne

/-! ## Specifiers -/

theorem Kind.identifier_isAlpha (k : Kind Float) :
    k.identifier.isAlpha = true := by
  cases k with
  | simple align => cases align <;> rfl
  | paragraph p =>
      rw [identifier]
      cases p.anchor <;> rfl
  | numeric n => rfl
  | autoWidth t => rfl

theorem identifier?_toString {c : Char} (h : c.isAlpha = true) :
    identifier? c.toString = some c := by
  have hlist : c.toString.toList = [c] := String.toList_singleton c
  rw [identifier?, hlist]
  exact if_pos h

/-- A bare identifier, or one with arguments between brackets. -/
theorem reads_definition {k : Kind Float} {ss : List String}
    {es : Entries (Value Float)} {c : Specifier Float}
    (hbound : ∀ offset, Specifier.ofBound
      ⟨k.identifier, offset, k.positional, es⟩ = .ok c)
    (hwidths : ∀ w ∈ (Specifier.plain k).widths,
      Reads (fun ts => ∃ l, Derives (.operand l) ts ∧
        Value.ofLiteral l = .ok w.toValue) w.source.toList)
    (hss : Assigns ss es) (hes : es.keys.Nodup) :
    Reads (Node.specifier c).Read
      (k.identifier.toString ++ bracketed (k.widthSource ++ ss)).toList := by
  have halpha := k.identifier_isAlpha
  have hlist : k.identifier.toString.toList = [k.identifier] :=
    String.toList_singleton _
  have hletter := identifier?_toString halpha
  have hlegible : (Lexeme.word k.identifier.toString).Legible := by
    refine .word hlist ?_ rfl
    rw [isWordStart, halpha]
    rfl
  rw [bracketed]
  by_cases hempty : k.widthSource ++ ss = []
  · obtain ⟨hwidth, rfl⟩ := List.append_eq_nil_iff.mp hempty
    cases hss
    rw [hwidth]
    show Reads _ (k.identifier.toString ++ "").toList
    rw [String.append_empty]
    refine .leaf hlegible ?_
    intro start
    refine ⟨_, .bare hletter, ofDefinition_eq_ok.mpr ⟨[], [], ?_, ?_, ?_⟩⟩
    · rw [Arguments.none, valuesOf]
    · rw [Arguments.none, bindNamed]
    · have hpositional : k.positional = [] := by
        cases k with
        | paragraph p => cases hwidth
        | _ => rfl
      rw [← hpositional]
      exact hbound _
  · rw [if_neg (mt List.isEmpty_iff.mp hempty), String.toList_append,
      String.toList_append, String.toList_append, List.append_assoc]
    have harguments := Kind.reads_arguments hwidths hss hes hempty
    have hleaf : Reads (fun ts => ∃ start,
        ts = [⟨.word k.identifier.toString, start⟩])
        (Lexeme.word k.identifier.toString).spell :=
      .leaf hlegible (fun start => ⟨start, rfl⟩)
    refine .join (m := .openBracket) rfl hleaf harguments.closed ?_
    intro ts us start hts hus
    obtain ⟨start', rfl⟩ := hts
    obtain ⟨vs, closed, ⟨as, has, hvalues, hnamed⟩, rfl⟩ := hus
    exact ⟨_, .withArguments hletter has,
      ofDefinition_eq_ok.mpr ⟨_, _, hvalues, hnamed, hbound _⟩⟩

theorem Specifier.reads_source {c : Specifier Float} (hkind : c.kind.Proper)
    (hleft : c.noLeftPadding = false) (hright : c.noRightPadding = false)
    (hplain : c.Plain)
    (hvalues : ∀ v ∈ c.kind.values,
      Reads (Node.value v).Read v.source.toList)
    (hoverride : Reads (Node.value c.override.value).Read
      c.override.source.toList) :
    Reads (Node.specifier c).Read c.source.toList := by
  have hproper : ∀ w ∈ c.widths, w.Proper := by
    intro w hw
    rw [widths] at hw
    cases hk : c.kind with
    | paragraph p =>
        rw [hk] at hw hkind
        cases List.mem_singleton.mp hw
        exact hkind.width
    | numeric n =>
        rw [hk] at hw hkind
        exact hkind w (Option.mem_toList.mp hw)
    | simple => rw [hk] at hw; cases hw
    | autoWidth => rw [hk] at hw; cases hw
  have hread : ∀ w ∈ c.widths,
      float? (shortestText w.value) = some w.value := by
    intro w hw
    refine hplain.numbers _ ?_ ?_
    · exact List.mem_append_left _ (List.mem_map_of_mem hw)
    · have hfinite := hplain.widths w hw
      cases w with
      | fraction => exact hfinite
      | length => exact hfinite.1
  obtain ⟨ss, hsources, hss⟩ := Kind.assigns hkind hplain.numbers
    (fun w hw => Width.reads_source (hproper w hw) (hplain.widths w hw)
      (hread w hw)) hvalues
  rw [source_eq, hsources, List.append_assoc]
  refine reads_definition ?_ ?_ (hss.append (assigns_shared hoverride)) ?_
  · intro offset
    exact ofBound_entries hkind hleft hright fun w hw =>
      Width.ofValue_toValue (hproper w hw) (hplain.widths w hw) (hread w hw)
  · intro w hw
    exact Width.reads_source (hproper w hw) (hplain.widths w hw) (hread w hw)
  · exact c.keys_entries.nodup c.kind.options_nodup

def Node.within : Node → List (Specifier Float)
  | .value v => v.within
  | .specifier c => c.within
  | .specifiers cs => withinList cs

theorem Override.value_source (o : Override Float) :
    o.value.source = o.source := by
  cases o with
  | itself => rw [value, Value.source, source]
  | single c => rw [value, Value.source, source]
  | indexed cs => rw [value, Value.source, source]

/-- What can be written is read back from its source text, if its widths are
plain and its numbers are read back. -/
theorem Writable.reads {n : Node} (h : Writable n) (hne : n ≠ .specifiers [])
    (hplain : ∀ c ∈ n.within, c.Plain) : Reads n.Read n.source.toList := by
  induction h with
  | nothing =>
      rw [Node.source, Value.source]
      exact reads_nothing
  | bool =>
      rw [Node.source, Value.source]
      exact reads_bool _
  | int hn hl =>
      rw [Node.source, Value.source]
      exact reads_numeral hn hl (by rw [Value.ofLiteral])
  | number hn hl =>
      rw [Node.source, Value.source]
      exact reads_numeral hn hl (by rw [Value.ofLiteral])
  | text =>
      rw [Node.source, Value.source]
      exact reads_text _
  | @column c _ ih =>
      rw [Node.within, Value.within] at hplain
      rw [Node.source, Value.source]
      refine (ih (by intro h; cases h) hplain).imp ?_
      intro ts h
      obtain ⟨d, hd, hc⟩ := h
      refine ⟨.column d, .value (.column hd), ?_⟩
      rw [Value.ofLiteral, hc]
      rfl
  | @columns cs hcs _ ih =>
      rw [Node.within, Value.within] at hplain
      rw [Node.source, Value.source, String.toList_append,
        String.toList_append, List.append_assoc]
      refine (ih (by intro h; cases h; exact hcs rfl) hplain).bracketed ?_
      intro ts opened closed h
      obtain ⟨ds, hds, hspecifiers⟩ := h
      refine ⟨.columns ds, .value (.columns hds), ?_⟩
      rw [Value.ofLiteral, hspecifiers]
      rfl
  | @specifier c _ hkind _ hleft hright ihvalues ihoverride =>
      rw [Node.within, c.within_eq] at hplain
      have hvalue : ∀ v : Value Float, Node.value v ≠ .specifiers [] := by
        intro v h
        cases h
      refine Specifier.reads_source hkind hleft hright
        (hplain c List.mem_cons_self) ?_ ?_
      · intro v hv
        refine ihvalues v hv (hvalue v) ?_
        intro d hd
        exact hplain d (List.mem_cons_of_mem _ (List.mem_append_left _
          (Kind.within_of_mem hv d hd)))
      · have hover := ihoverride (hvalue _) (by
          intro d hd
          rw [Node.within, Override.value_within] at hd
          exact hplain d (List.mem_cons_of_mem _
            (List.mem_append_right _ hd)))
        rw [Node.source, Override.value_source] at hover
        exact hover
  | nil => exact absurd rfl hne
  | @cons c cs _ hcs ihc ihcs =>
      rw [Node.within, withinList] at hplain
      have hc := ihc (by intro h; cases h)
        (fun d hd => hplain d (List.mem_append_left _ hd))
      cases cs with
      | nil =>
          rw [Node.source, sourceList, sourceList,
            String.intercalate_singleton]
          refine hc.imp ?_
          intro ts h
          obtain ⟨d, hd, hspecifier⟩ := h
          refine ⟨[d], .lastDefinition hd, ?_⟩
          rw [specifiersOf, hspecifier, specifiersOf]
          rfl
      | cons c' cs =>
          have hrest := ihcs (by intro h; cases h)
            (fun d hd => hplain d (List.mem_append_right _ hd))
          rw [Node.source, sourceList] at hrest
          rw [Node.source, sourceList, sourceList, String.intercalate_cons_cons,
            String.toList_append, String.toList_append, List.append_assoc]
          refine .join (m := .comma) rfl hc hrest ?_
          intro ts us start hts hus
          obtain ⟨d, hd, hspecifier⟩ := hts
          obtain ⟨ds, hds, hspecifiers⟩ := hus
          refine ⟨d :: ds, .moreDefinitions hd hds, ?_⟩
          rw [specifiersOf, hspecifier, hspecifiers]
          rfl

end Tabulation.Column
