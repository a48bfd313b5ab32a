import Tabulation.Proofs.Columns.Kinds
import Tabulation.Proofs.Source.Spelling
import Tabulation.Proofs.Source.Writable

/-!
# The options of a specifier

A specifier that can be written is made again by binding its options: those
that differ from their defaults by name, and a width by position. Looking an
option up among these gives what the specifier has, or nothing if it has the
default; no option is named that its kind does not take, and none twice.
-/

namespace Tabulation.Column

open Decimal

/-! ## Widths -/

theorem dropWhile_isBlank {cs : List Char}
    (h : ∀ c ∈ cs.head?, Text.isBlank c = false) :
    cs.dropWhile Text.isBlank = cs :=
  (@takeWhile_exact Text.isBlank [] cs rfl h).2

theorem trim_eq_self {s : String}
    (h : ∀ c ∈ s.toList, Text.isBlank c = false) : Text.trim s = s := by
  have hfront : s.toList.dropWhile Text.isBlank = s.toList :=
    dropWhile_isBlank fun c hc => h c (List.mem_of_mem_head? hc)
  rw [Text.trim, Text.trimRight, hfront, dropWhile_isBlank,
    List.reverse_reverse, String.ofList_toList]
  intro c hc
  exact h c (List.mem_reverse.mp (List.mem_of_mem_head? hc))

theorem IsNumeral.all_isNumeric {cs : List Char} (h : IsNumeral cs) :
    cs.all isNumeric = true := by
  have hdigits : ∀ ds : List Char, ds.all Char.isDigit = true →
      ds.all isNumeric = true := by
    intro ds hds
    rw [List.all_eq_true] at hds ⊢
    intro d hd
    rw [isNumeric, hds d hd]
    rfl
  have hsigns : ∀ sign ∈ [[], ['-'], ['+']],
      sign.all isNumeric = true := by decide
  cases h with
  | whole hsign hwhole =>
      rw [List.all_append, hsigns _ hsign,
        hdigits _ (isDigits_iff.mp hwhole).2]
      rfl
  | pointed hsign hwhole hplaces =>
      rw [List.all_append, List.all_append, List.all_cons, hsigns _ hsign,
        hdigits _ hwhole, hdigits _ hplaces]
      rfl

/-- Letters behind a number are a unit, whatever the number is. -/
theorem numberAndUnit_letters {number unit : String}
    (hnumber : number.toList.all isNumeric = true)
    (hunit : unit.toList.all Char.isAlpha = true) :
    numberAndUnit (number ++ unit) =
      match float? number with
      | some x => .ok (x, unit)
      | none => .error (.width (number ++ unit) (.notANumber number)) := by
  have hunits : ∀ c ∈ unit.toList, c.isAlpha = true := List.all_eq_true.mp hunit
  have htrim : Text.trim (number ++ unit) = number ++ unit := by
    refine trim_eq_self ?_
    intro c hc
    rw [String.toList_append] at hc
    rcases List.mem_append.mp hc with hc | hc
    · exact not_isBlank_of_isNumeric (List.all_eq_true.mp hnumber c hc)
    · exact not_isBlank_of_isAlpha (hunits c hc)
  have htrim' : Text.trim unit = unit :=
    trim_eq_self fun c hc => not_isBlank_of_isAlpha (hunits c hc)
  obtain ⟨htake, hdrop⟩ := takeWhile_exact unit.toList hnumber
    (by
      intro c hc
      exact not_isNumeric_of_isAlpha (hunits c (List.mem_of_mem_head? hc)))
  have hread : Scalar.read? number = float? number := rfl
  rw [numberAndUnit]
  simp only [htrim, String.toList_append, htake, hdrop, String.ofList_toList,
    htrim', hread]
  cases float? number with
  | none => rfl
  | some x => rfl

/-- A number and a unit of letters are read as just that. -/
theorem numberAndUnit_append {number unit : String} {x : Float}
    (hnumber : IsNumeral number.toList)
    (hunit : unit.toList.all Char.isAlpha = true)
    (hread : float? number = some x) :
    numberAndUnit (number ++ unit) = .ok (x, unit) := by
  rw [numberAndUnit_letters hnumber.all_isNumeric hunit, hread]

/-- The value of the option that sets a width. -/
def Width.toValue : Width Float → Value Float
  | .fraction x => .number x
  | .length x unit => .text (Scalar.text x ++ unit)

theorem Width.ofValue_toValue {w : Width Float} (h : w.Proper) (hw : w.Plain)
    (hread : float? (shortestText w.value) = some w.value) :
    ofValue w.toValue = .ok w := by
  refine ofValue_eq_ok.mpr ⟨?_, h.1⟩
  cases w with
  | fraction x => rfl
  | length x unit =>
      have hunit : ¬unit.isEmpty = true := by
        intro hempty
        exact h.2 x unit rfl (String.isEmpty_iff.mp hempty)
      show parse (shortestText x ++ unit) = _
      rw [parse, numberAndUnit_append (shortestText_isNumeral hw.1) hw.2 hread]
      show Except.ok (if unit.isEmpty then _ else _) = _
      rw [if_neg hunit]
      rfl

/-! ## Entries -/

/-- An option that may be given. -/
def entry (key : String) : Option (Value Float) → Entries (Value Float)
  | some v => [(key, v)]
  | none => []

/-- A value that is left out if it is the default. -/
def written (isDefault : Bool) (v : Value Float) : Option (Value Float) :=
  if isDefault then none else some v

def TextSetting.skip (t : TextSetting) : Option (Value Float) :=
  match t.baselineskip with
  | some skip => written (skip = "10pt") (.text skip)
  | none => some (.bool false)

def TextSetting.entries (t : TextSetting) : Entries (Value Float) :=
  entry "baselineskip" t.skip ++
    entry "raggedright" (written (!t.raggedright) (.bool true))

def Kind.entries : Kind Float → Entries (Value Float)
  | .simple _ => []
  | .paragraph p =>
      entry "indent_fraction" (written
        (p.indentFraction == defaultIndentFraction)
        (.number p.indentFraction)) ++ p.text.entries
  | .numeric n =>
      entry "table_format"
        (written (n.tableFormat.isText "3.2") n.tableFormat) ++
      (entry "add_integer_zero"
        (written n.addIntegerZero.isNothing n.addIntegerZero) ++
      (entry "table_number_alignment"
        (written n.tableNumberAlignment.isNothing n.tableNumberAlignment) ++
      (entry "retain_explicit_plus"
        (written n.retainExplicitPlus.isNothing n.retainExplicitPlus) ++
      (entry "detect_inline_weight"
        (written (n.detectInlineWeight.isText "math") n.detectInlineWeight) ++
      entry "table_column_width" (n.tableColumnWidth.map Width.toValue)))))
  | .autoWidth t => t.entries

/-- The argument that is given by position. -/
def Kind.positional : Kind Float → List (Value Float)
  | .paragraph p => [p.width.toValue]
  | _ => []

def Specifier.shared (c : Specifier Float) : Entries (Value Float) :=
  entry "multicolumn_definitions"
    (written c.hasDefaultOverride c.override.value) ++
  (entry "no_space_after" (written (!c.noSpaceAfter) (.bool true)) ++
  entry "space_after" (c.spaceAfter.map Value.text))

def Specifier.entries (c : Specifier Float) : Entries (Value Float) :=
  c.kind.entries ++ c.shared

theorem get?_entry (key : String) (v : Option (Value Float)) :
    (entry key v).get? key = v := by
  cases v with
  | none => rfl
  | some v => exact if_pos rfl

theorem keys_entry (key : String) (v : Option (Value Float)) :
    (entry key v).keys.Sublist [key] := by
  cases v with
  | none => exact List.nil_sublist _
  | some v => exact List.Sublist.refl _

theorem get?_entry_of_ne {key key' : String} (v : Option (Value Float))
    (h : key' ≠ key) : (entry key v).get? key' = none := by
  refine Entries.get?_eq_none ?_
  intro hmem
  exact h (List.mem_singleton.mp ((keys_entry key v).subset hmem))

theorem TextSetting.keys_entries (t : TextSetting) :
    t.entries.keys.Sublist ["baselineskip", "raggedright"] := by
  rw [entries, Entries.keys_append]
  exact (keys_entry _ _).append (keys_entry _ _)

theorem Kind.keys_entries (k : Kind Float) :
    k.entries.keys.Sublist k.options := by
  cases k with
  | simple => exact List.Sublist.refl _
  | paragraph p =>
      refine .cons _ ?_
      rw [entries, Entries.keys_append]
      exact (keys_entry _ _).append p.text.keys_entries
  | numeric n =>
      simp only [entries, Entries.keys_append]
      exact (keys_entry _ _).append ((keys_entry _ _).append
        ((keys_entry _ _).append ((keys_entry _ _).append
          ((keys_entry _ _).append (keys_entry _ _)))))
  | autoWidth t => exact t.keys_entries

theorem Specifier.keys_shared (c : Specifier Float) :
    c.shared.keys.Sublist sharedOptions := by
  rw [shared, Entries.keys_append, Entries.keys_append]
  exact (keys_entry _ _).append ((keys_entry _ _).append (keys_entry _ _))

theorem Specifier.keys_entries (c : Specifier Float) :
    c.entries.keys.Sublist (c.kind.options ++ sharedOptions) := by
  rw [entries, Entries.keys_append]
  exact c.kind.keys_entries.append c.keys_shared

theorem Kind.options_nodup (k : Kind Float) :
    (k.options ++ sharedOptions).Nodup := by
  cases k with
  | _ => rw [options, sharedOptions]; decide

/-- An option of a kind is none of those that all kinds have. -/
theorem Specifier.get?_kind {c : Specifier Float} {key : String}
    (h : key ∉ sharedOptions) :
    c.entries.get? key = c.kind.entries.get? key := by
  have hshared : c.shared.get? key = none :=
    Entries.get?_eq_none (mt (c.keys_shared.subset ·) h)
  rw [entries, Entries.get?_append, hshared, Option.or_none]

theorem Specifier.get?_shared {c : Specifier Float} {key : String}
    (h : key ∈ sharedOptions) : c.entries.get? key = c.shared.get? key := by
  have hnot : key ∉ c.kind.options := by
    intro hkey
    have hdisjoint := (List.nodup_append.mp c.kind.options_nodup).2.2
    exact hdisjoint key hkey key h rfl
  have hkind : c.kind.entries.get? key = none :=
    Entries.get?_eq_none (mt (c.kind.keys_entries.subset ·) hnot)
  rw [entries, Entries.get?_append, hkind, Option.none_or]

/-! ## Binding -/

theorem Bound.flag_of_get? {b : Bound Float} {name : String}
    {complaint : ColumnFault} {f : Bool}
    (h : b.named.get? name = written (!f) (.bool true)) :
    b.flag name complaint = .ok f := by
  rw [flag, h]
  cases f with
  | false => rfl
  | true => rfl

theorem Bound.baselineskip_of_get? {b : Bound Float} {t : TextSetting}
    (h : b.named.get? "baselineskip" = t.skip) (ht : t.Proper) :
    b.baselineskip = .ok t.baselineskip := by
  obtain ⟨baselineskip, raggedright⟩ := t
  rw [Bound.baselineskip, h, TextSetting.skip]
  cases baselineskip with
  | none => rfl
  | some skip =>
      by_cases hten : skip = "10pt"
      · subst hten
        rfl
      · have hread : Scalar.read? (α := Float) skip = none := ht skip rfl
        simp only [written, decide_eq_true_iff, if_neg hten, hread]
        rfl

theorem TextSetting.ofBound_entries {b : Bound Float} {t : TextSetting}
    (hskip : b.named.get? "baselineskip" = t.skip)
    (hragged : b.named.get? "raggedright" =
      written (!t.raggedright) (.bool true)) (ht : t.Proper) :
    TextSetting.ofBound b = .ok t := by
  rw [TextSetting.ofBound, Bound.baselineskip_of_get? hskip ht,
    Bound.flag_of_get? hragged]
  rfl

theorem TextSetting.get?_entries (t : TextSetting) :
    t.entries.get? "baselineskip" = t.skip ∧
      t.entries.get? "raggedright" =
        written (!t.raggedright) (.bool true) := by
  rw [entries, Entries.get?_append, Entries.get?_append, get?_entry,
    get?_entry, get?_entry_of_ne _ (by decide),
    get?_entry_of_ne _ (by decide), Option.or_none, Option.none_or]
  exact ⟨rfl, rfl⟩

theorem Bound.indentFraction_of_get? {b : Bound Float} {x : Float}
    (h : b.named.get? "indent_fraction" =
      written (x == defaultIndentFraction) (.number x)) :
    b.indentFraction = .ok x := by
  rw [Bound.indentFraction, h, written]
  by_cases hx : (x == defaultIndentFraction) = true
  · rw [if_pos hx, eq_defaultIndentFraction hx]
  · rw [if_neg hx]
    rfl

theorem Paragraph.ofBound_entries {p : Paragraph Float} {b : Bound Float}
    (hp : p.Proper) (hwidth : Width.ofValue p.width.toValue = .ok p.width)
    (hpositional : b.positional = [p.width.toValue])
    (h : ∀ key ∈ (Kind.paragraph p).options,
      b.named.get? key = (Kind.paragraph p).entries.get? key) :
    Paragraph.ofBound p.anchor b = .ok p := by
  have hnamed := h "width" (by rw [Kind.options]; decide)
  have hfraction := h "indent_fraction" (by rw [Kind.options]; decide)
  have hskip := h "baselineskip" (by rw [Kind.options]; decide)
  have hragged := h "raggedright" (by rw [Kind.options]; decide)
  simp (disch := decide) only [Kind.entries, TextSetting.entries,
    Entries.get?_append, get?_entry, get?_entry_of_ne, Option.none_or,
    Option.or_none] at hnamed hfraction hskip hragged
  have hrequired : b.required "width" = .ok p.width.toValue := by
    rw [Bound.required, hnamed, hpositional]
  have hrange : 0.0 ≤ p.indentFraction ∧ p.indentFraction < 1.0 :=
    ⟨hp.nonneg, hp.fraction⟩
  rw [Paragraph.ofBound, hrequired]
  show (Width.ofValue p.width.toValue >>= _) = _
  rw [hwidth]
  show (b.indentFraction >>= _) = _
  rw [Bound.indentFraction_of_get? hfraction]
  show (if _ then _ else _) = _
  rw [if_pos hrange]
  show (TextSetting.ofBound b >>= _) = _
  rw [TextSetting.ofBound_entries hskip hragged hp.text]
  obtain ⟨anchor, width, fraction, text, widths, renderAs⟩ := p
  cases hp.whole
  cases hp.alone
  rfl

theorem Value.eq_text {v : Value Float} {s : String}
    (h : v.isText s = true) : v = .text s := by
  cases v with
  | text t => exact congrArg Value.text (of_decide_eq_true h)
  | _ => cases h

theorem Value.eq_nothing {v : Value Float} (h : v.isNothing = true) :
    v = .nothing := by
  cases v with
  | nothing => rfl
  | _ => cases h

theorem getD_written {isDefault : Bool} {v default : Value Float}
    (h : isDefault = true → v = default) :
    (written isDefault v).getD default = v := by
  cases isDefault with
  | false => rfl
  | true => exact (h rfl).symm

theorem Bound.tableColumnWidth_of_get? {b : Bound Float}
    {width : Option (Width Float)}
    (h : b.named.get? "table_column_width" = width.map Width.toValue)
    (hwidth : ∀ w, width = some w → Width.ofValue w.toValue = .ok w) :
    b.tableColumnWidth = .ok width := by
  rw [Bound.tableColumnWidth, h]
  cases width with
  | none => rfl
  | some w =>
      have hw := hwidth w rfl
      cases w with
      | fraction x =>
          show (Width.ofValue (Width.fraction x).toValue).map some = _
          rw [hw]
          rfl
      | length x unit =>
          show (Width.ofValue (Width.length x unit).toValue).map some = _
          rw [hw]
          rfl

theorem Numeric.ofBound_entries {n : Numeric Float} {b : Bound Float}
    (hwidth : ∀ w, n.tableColumnWidth = some w →
      Width.ofValue w.toValue = .ok w)
    (h : ∀ key ∈ (Kind.numeric n).options,
      b.named.get? key = (Kind.numeric n).entries.get? key) :
    Numeric.ofBound b = .ok n := by
  have hformat := h "table_format" (by rw [Kind.options]; decide)
  have hzero := h "add_integer_zero" (by rw [Kind.options]; decide)
  have halignment := h "table_number_alignment" (by rw [Kind.options]; decide)
  have hplus := h "retain_explicit_plus" (by rw [Kind.options]; decide)
  have hweight := h "detect_inline_weight" (by rw [Kind.options]; decide)
  have hcolumn := h "table_column_width" (by rw [Kind.options]; decide)
  simp (disch := decide) only [Kind.entries, Entries.get?_append, get?_entry,
    get?_entry_of_ne, Option.none_or, Option.or_none]
    at hformat hzero halignment hplus hweight hcolumn
  rw [Numeric.ofBound, Bound.tableColumnWidth_of_get? hcolumn hwidth]
  simp only [hformat, hzero, halignment, hplus, hweight, Numeric.default,
    getD_written Value.eq_text, getD_written Value.eq_nothing]
  -- A structure that holds specifiers is not its own fields by definition.
  cases n
  rfl

/-- A kind is what its options bind to. -/
theorem Kind.ofBound_entries {k : Kind Float} {b : Bound Float}
    (hk : k.Proper)
    (hwidths : ∀ w ∈ (Specifier.plain k).widths,
      Width.ofValue w.toValue = .ok w)
    (hidentifier : b.identifier = k.identifier)
    (hpositional : b.positional = k.positional)
    (h : ∀ key ∈ k.options, b.named.get? key = k.entries.get? key) :
    Kind.ofBound b = .ok k := by
  cases k with
  | simple align =>
      rw [ofBound, hidentifier, identifier]
      cases align <;> rfl
  | paragraph p =>
      have hmap : ofBound b = (Paragraph.ofBound p.anchor b).map .paragraph := by
        rw [ofBound, hidentifier, identifier]
        cases p.anchor <;> rfl
      rw [hmap, Paragraph.ofBound_entries hk
        (hwidths p.width List.mem_cons_self) hpositional h]
      rfl
  | numeric n =>
      have hn := Numeric.ofBound_entries
        (fun w hw => hwidths w (Option.mem_toList.mpr hw)) h
      rw [ofBound, hidentifier]
      show (Numeric.ofBound b).map _ = _
      rw [hn]
      rfl
  | autoWidth t =>
      have hskip := h "baselineskip" (by rw [options]; decide)
      have hragged := h "raggedright" (by rw [options]; decide)
      rw [entries, t.get?_entries.1] at hskip
      rw [entries, t.get?_entries.2] at hragged
      rw [ofBound, hidentifier]
      show (TextSetting.ofBound b).map _ = _
      rw [TextSetting.ofBound_entries hskip hragged hk]
      rfl

/-! ## The options of every kind -/

theorem Specifier.isPlainLeft_eq {c : Specifier Float}
    (h : c.isPlainLeft = true) : c = .plainLeft := by
  rw [isPlainLeft.eq_def] at h
  split at h
  · rfl
  · cases h

theorem Specifier.hasDefaultOverride_eq {c : Specifier Float}
    (h : c.hasDefaultOverride = true) :
    c.override = (ofKind c.kind).override := by
  obtain ⟨kind, override, noSpaceAfter, spaceAfter, noLeft, noRight⟩ := c
  cases kind with
  | numeric n =>
      cases override with
      | single d => rw [isPlainLeft_eq h]; rfl
      | _ => cases h
  | _ =>
      cases override with
      | itself => rfl
      | _ => cases h

theorem Override.ofBound_of_get? {c : Specifier Float} {b : Bound Float}
    (h : b.named.get? "multicolumn_definitions" =
      written c.hasDefaultOverride c.override.value) :
    ofBound (Specifier.ofKind c.kind).override b = .ok c.override := by
  rw [ofBound, h, written]
  by_cases hdefault : c.hasDefaultOverride = true
  · rw [if_pos hdefault, ← Specifier.hasDefaultOverride_eq hdefault]
  · rw [if_neg hdefault]
    cases c.override with
    | itself => rfl
    | single d => rfl
    | indexed ds => rfl

theorem Bound.spaceAfter_of_get? {b : Bound Float} {space : Option String}
    (h : b.named.get? "space_after" = space.map Value.text) :
    b.spaceAfter = .ok space := by
  rw [spaceAfter, h]
  cases space with
  | none => rfl
  | some s => rfl

theorem Bound.finish_entries {b : Bound Float} {k : Kind Float}
    (hpositional : b.positional = k.positional)
    (hwidth : b.named.get? "width" = none)
    (hkeys : ∀ key ∈ b.named.keys, key ∈ k.options ++ sharedOptions) :
    b.finish k.requiredOptions (k.options ++ sharedOptions) = .ok () := by
  have hunclaimed : b.unclaimed k.requiredOptions = [] := by
    rw [unclaimed, hpositional]
    cases k with
    | paragraph p =>
        rw [Kind.requiredOptions, List.countP_singleton, hwidth]
        rfl
    | _ => exact List.drop_nil
  have hfind : (b.named.keys.find? fun key =>
      !(k.options ++ sharedOptions).contains key) = none := by
    rw [List.find?_eq_none]
    intro key hkey
    rw [Bool.not_eq_true, Bool.not_eq_false', List.contains_iff_mem]
    exact hkeys key hkey
  rw [finish, hunclaimed, hfind]
  rfl

theorem Kind.get?_width (k : Kind Float) : k.entries.get? "width" = none := by
  cases k with
  | simple => rfl
  | _ =>
      simp (disch := decide) only [entries, TextSetting.entries,
        Entries.get?_append, get?_entry_of_ne, Option.none_or]

/-- The options of a specifier that can be written bind to that specifier. -/
theorem Specifier.ofBound_entries {c : Specifier Float} {offset : Option Nat}
    (hkind : c.kind.Proper) (hleft : c.noLeftPadding = false)
    (hright : c.noRightPadding = false)
    (hwidths : ∀ w ∈ c.widths, Width.ofValue w.toValue = .ok w) :
    Specifier.ofBound ⟨c.kind.identifier, offset, c.kind.positional,
      c.entries⟩ = .ok c := by
  have hshared : ∀ key ∈ sharedOptions,
      c.entries.get? key = c.shared.get? key := fun key => c.get?_shared
  have hover := hshared "multicolumn_definitions" (by decide)
  have hspace := hshared "no_space_after" (by decide)
  have hafter := hshared "space_after" (by decide)
  simp (disch := decide) only [shared, Entries.get?_append, get?_entry,
    get?_entry_of_ne, Option.none_or, Option.or_none] at hover hspace hafter
  have hkinds : ∀ key ∈ c.kind.options,
      c.entries.get? key = c.kind.entries.get? key := by
    intro key hkey
    refine c.get?_kind ?_
    intro hmem
    exact (List.nodup_append.mp c.kind.options_nodup).2.2 key hkey key hmem rfl
  have hwidth : c.entries.get? "width" = none := by
    rw [c.get?_kind (by decide)]
    exact c.kind.get?_width
  have hkind := @Kind.ofBound_entries c.kind ⟨c.kind.identifier, offset,
    c.kind.positional, c.entries⟩ hkind hwidths rfl rfl hkinds
  have hfinish := @Bound.finish_entries ⟨c.kind.identifier, offset,
    c.kind.positional, c.entries⟩ c.kind rfl hwidth
    (fun key hkey => c.keys_entries.subset hkey)
  rw [ofBound, hkind]
  show (Override.ofBound (ofKind c.kind).override _ >>= _) = _
  rw [Override.ofBound_of_get? hover]
  show (Bound.flag _ _ _ >>= _) = _
  rw [Bound.flag_of_get? hspace]
  show (Bound.spaceAfter _ >>= _) = _
  rw [Bound.spaceAfter_of_get? hafter]
  show (Bound.finish _ _ _ >>= _) = _
  rw [hfinish]
  obtain ⟨kind, override, noSpaceAfter, spaceAfter, noLeft, noRight⟩ := c
  cases hleft
  cases hright
  cases kind with
  | _ => rfl

end Tabulation.Column
