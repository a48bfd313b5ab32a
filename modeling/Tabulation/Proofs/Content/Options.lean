import Tabulation.Content.Directive
import Tabulation.Proofs.Outcome

/-!
# What an option list does to a cell

The options of a cell take effect one after the other: the number of columns
before the specifier and the rule are looked at, and the specifier before the
rule. An option list that is refused has therefore done nothing if it cannot be
read, has an option of no meaning or is refused for its number of columns, and
has set a number of columns, possibly one that it never mentions, if it is
refused for what comes after that. `Effect` says so once for all lists, and
that nothing about it depends on the directive but what is left as it was.
-/

namespace Tabulation

open Column

variable {α : Type} [Scalar α]

/-! ## Options that have a default -/

namespace Column.Schema

variable {s : Schema α} {name : String}

omit [Scalar α] in
theorem bindOne_bound {b b' : Binding α} {key : String}
    (h : s.bindOne b key = .ok b') (hname : (b.bound.get? name).isSome = true) :
    (b'.bound.get? name).isSome = true := by
  rw [bindOne] at h
  split at h
  · cases h
    exact Entries.isSome_get?_insert hname _ _
  · split at h
    · cases h
      exact Entries.isSome_get?_insert hname _ _
    · split at h
      · cases h
        exact hname
      · cases h

omit [Scalar α] in
theorem bindRequired_bound {keys : List String} {b b' : Binding α}
    (h : s.bindRequired b keys = .ok b')
    (hname : (b.bound.get? name).isSome = true) :
    (b'.bound.get? name).isSome = true := by
  induction keys generalizing b with
  | nil =>
      rw [bindRequired] at h
      cases h
      exact hname
  | cons key keys ih =>
      rw [bindRequired] at h
      obtain ⟨first, hfirst, h⟩ := Except.bind_eq_ok.mp h
      exact ih h (bindOne_bound hfirst hname)

/-- An option that has a default has a value. -/
theorem parse_bound {text : String} {options : Entries (Value α)}
    (h : s.parse text = .ok options)
    (hname : (s.defaults.get? name).isSome = true) :
    (options.get? name).isSome = true := by
  rw [parse] at h
  obtain ⟨_, _, h⟩ := Except.bind_eq_ok.mp h
  obtain ⟨arguments, _, h⟩ := Except.bind_eq_ok.mp h
  rw [resolve] at h
  obtain ⟨positional, _, h⟩ := Except.bind_eq_ok.mp h
  obtain ⟨named, _, h⟩ := Except.bind_eq_ok.mp h
  obtain ⟨b, hb, h⟩ := Except.bind_eq_ok.mp h
  split at h
  · cases h
    rw [Entries.get?_insertAll, Option.isSome_or, bindRequired_bound hb hname,
      Bool.or_true]
  · cases h

end Column.Schema

namespace Directive

/-! ## What a list of options does -/

variable (α) in
/-- An option list is read up to the number of columns, which takes effect at
once. -/
def TakesColumns (text : String) : Prop :=
  ∃ options : Entries (Value α), schema.parse text = .ok options ∧
    (∀ key ∈ options.keys, key ∈ optionKeys) ∧
    ∃ columns, columnsOption none options = .ok columns

theorem columnsOption_cases {options : Entries (Value α)}
    (h : (options.get? "columns").isSome = true) :
    (∃ e, ∀ current, columnsOption current options = .error e) ∨
      ∃ n, ∀ current, columnsOption current options = .ok (some n) := by
  obtain ⟨value, hvalue⟩ := Option.isSome_iff_exists.mp h
  simp only [columnsOption, hvalue]
  split
  · exact .inr ⟨_, fun _ => rfl⟩
  · exact .inl ⟨_, fun _ => rfl⟩

theorem specifierOption_cases (options : Entries (Value α)) :
    (∃ source, ∀ current, specifierOption current options =
      .error (refuse (.cellSpecifier source))) ∨
    ∃ found : Option (Specifier α), ∀ current,
      specifierOption current options = .ok (found.or current) := by
  simp only [specifierOption]
  split
  · exact .inr ⟨none, fun _ => rfl⟩
  · exact .inr ⟨none, fun _ => rfl⟩
  · next c _ => exact .inr ⟨some c, fun _ => rfl⟩
  · exact .inl ⟨_, fun _ => rfl⟩

theorem underlineOption_cases (options : Entries (Value α)) :
    (∃ source, underlineOption options =
      .error (refuse (.cellUnderline source))) ∨
    ∃ underline, underlineOption options = .ok underline := by
  cases h : underlineOption options with
  | ok underline => exact .inr ⟨underline, rfl⟩
  | error e =>
      refine .inl ?_
      rw [underlineOption] at h
      split at h
      · cases h
      · cases h
      · cases h
      · cases h
      · split at h
        · cases h
        · split at h
          · cases h
          · cases h
            exact ⟨_, rfl⟩

omit [Scalar α] in
theorem find?_unknown_eq_none {options : Entries (Value α)} :
    (options.keys.find? fun key => !optionKeys.contains key) = none ↔
      ∀ key ∈ options.keys, key ∈ optionKeys := by
  simp [List.find?_eq_none]

/-- What an option list does to any directive. -/
inductive Effect (α : Type) [Scalar α] (text : String) : Prop where
  /-- It is refused and does nothing. -/
  | early (e : Error) (stops : ¬ TakesColumns α text)
      (applied : ∀ d : Directive α, d.withOptions text = (d, some e))
  /-- It is refused for the specifier or the rule. -/
  | late (n : Nat) (found : Option (Specifier α)) (e : Error)
      (takes : TakesColumns α text)
      (fault : ∃ source, e = refuse (.cellSpecifier source) ∨
        e = refuse (.cellUnderline source))
      (applied : ∀ d : Directive α, d.withOptions text =
        ({ d with columns := some n, specifier := found.or d.specifier },
          some e))
  | whole (n : Nat) (found : Option (Specifier α))
      (underline : Option Underline) (force : Bool)
      (applied : ∀ d : Directive α, d.withOptions text =
        ({ d with
            columns := some n, specifier := found.or d.specifier
            underline, force }, none))

theorem effect_of_columns {text : String} {options : Entries (Value α)}
    (hparse : schema.parse text = .ok options)
    (hknown : (options.keys.find? fun key => !optionKeys.contains key) = none)
    {n : Nat}
    (hcolumns : ∀ current, columnsOption current options = .ok (some n)) :
    Effect α text := by
  have htakes : TakesColumns α text :=
    ⟨options, hparse, find?_unknown_eq_none.mp hknown, some n, hcolumns none⟩
  rcases specifierOption_cases options with
    ⟨source, hspecifier⟩ | ⟨found, hspecifier⟩
  · refine .late n none _ htakes ⟨source, .inl rfl⟩ fun d => ?_
    simp only [withOptions, hparse, withBound, hknown, hcolumns, hspecifier]
    rfl
  · rcases underlineOption_cases options with
      ⟨source, hunderline⟩ | ⟨underline, hunderline⟩
    · refine .late n found _ htakes ⟨source, .inr rfl⟩ fun d => ?_
      simp only [withOptions, hparse, withBound, hknown, hcolumns, hspecifier,
        hunderline]
    · refine .whole n found underline (forceOption options) fun d => ?_
      simp only [withOptions, hparse, withBound, hknown, hcolumns, hspecifier,
        hunderline]

variable (α) in
theorem withOptions_effect (text : String) : Effect α text := by
  cases hparse : (schema (α := α)).parse text with
  | error e =>
      refine .early e ?_ fun d => by rw [withOptions, hparse]
      rintro ⟨options, hoptions, _⟩
      rw [hparse] at hoptions
      cases hoptions
  | ok options =>
      cases hknown : options.keys.find? fun key => !optionKeys.contains key with
      | some key =>
          refine .early (refuse (.unknownCellOption key)) ?_ fun d => ?_
          · rintro ⟨_, hoptions, hkeys, _⟩
            cases hparse.symm.trans hoptions
            rw [find?_unknown_eq_none.mpr hkeys] at hknown
            cases hknown
          · simp only [withOptions, hparse, withBound, hknown]
      | none =>
          have hbound : (options.get? "columns").isSome = true :=
            Schema.parse_bound hparse rfl
          rcases columnsOption_cases hbound with
            ⟨e, hcolumns⟩ | ⟨n, hcolumns⟩
          · refine .early e ?_ fun d => ?_
            · rintro ⟨_, hoptions, _, columns, hcounted⟩
              cases hparse.symm.trans hoptions
              rw [hcolumns] at hcounted
              cases hcounted
            · simp only [withOptions, hparse, withBound, hknown, hcolumns]
          · exact effect_of_columns hparse hknown hcolumns

section

variable {text : String} {e : Error} {d : Directive α}

/-- Whether an option list is refused, and why, does not depend on what came
before it. -/
theorem withOptions_error (d d' : Directive α) (text : String) :
    (d.withOptions text).2 = (d'.withOptions text).2 := by
  cases withOptions_effect α text with
  | early e _ applied => rw [applied, applied]
  | late n found e _ _ applied => rw [applied, applied]
  | whole n found underline force applied => rw [applied, applied]

/-- What is refused in front of the number of columns leaves nothing. -/
theorem eq_of_refused (hearly : ¬ TakesColumns α text)
    (h : (d.withOptions text).2 = some e) : (d.withOptions text).1 = d := by
  cases withOptions_effect α text with
  | early e _ applied => rw [applied]
  | late n found e takes _ _ => exact absurd takes hearly
  | whole n found underline force applied =>
      rw [applied] at h
      cases h

theorem columns_of_takes (hlate : TakesColumns α text) (d : Directive α) :
    ∃ n, (d.withOptions text).1.columns = some n := by
  cases withOptions_effect α text with
  | early e stops _ => exact absurd hlate stops
  | late n found e _ _ applied => exact ⟨n, by rw [applied]⟩
  | whole n found underline force applied => exact ⟨n, by rw [applied]⟩

theorem fault_of_takes (hlate : TakesColumns α text)
    (h : (d.withOptions text).2 = some e) :
    ∃ source, e = refuse (.cellSpecifier source) ∨
      e = refuse (.cellUnderline source) := by
  cases withOptions_effect α text with
  | early e stops _ => exact absurd hlate stops
  | late n found e _ fault applied =>
      rw [applied] at h
      cases h
      exact fault
  | whole n found underline force applied =>
      rw [applied] at h
      cases h

end

end Directive

end Tabulation
