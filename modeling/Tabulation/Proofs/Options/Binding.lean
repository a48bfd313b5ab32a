import Tabulation.Content.Directive
import Tabulation.Proofs.Options.Entries
import Tabulation.Proofs.Outcome

/-!
# Where the value of an option comes from

An option gets its value from the last named argument that sets it, or from a
positional argument, or from the schema. The positional arguments go to the
required options that are not named, from left to right, so it is enough to
know which ones these are: pairing them with the arguments says what goes
where. The loop over the required options changes the map that it answers with
and the two lists that it takes from, and `taken` says in one pass over the
names what it puts into the map. The rest is about maps only.
-/

namespace Tabulation.Column.Schema

variable {α : Type} [Scalar α] {s : Schema α}

/-- What a named argument sets: the canonical name of an option, and a value. A
bare word is rewritten before it is looked up among the tokens, and so is the
option that a token stands for. -/
inductive Assigns (s : Schema α) :
    NamedArgument α → String × Value α → Prop where
  | value {key : String} {literal : Literal α} {v : Value α}
      (h : Value.ofLiteral literal = .ok v) :
      Assigns s (.assign key literal) (s.canonical key, v)
  | token {word key : String} {v : Value α}
      (h : s.tokens.get? (s.canonical word) = some (key, v)) :
      Assigns s (.flag word) (s.canonical key, v)
  | flag {word : String} (h : s.tokens.get? (s.canonical word) = none) :
      Assigns s (.flag word) (s.canonical word, .bool true)

theorem valuesOf_eq {literals : List (Literal α)} {values : List (Value α)}
    (h : List.Forall₂ (fun l v => Value.ofLiteral l = .ok v) literals values) :
    valuesOf literals = .ok values := by
  induction h with
  | nil => rw [valuesOf]
  | cons hl _ ih =>
      rw [valuesOf, hl, ih]
      rfl

theorem bindNamed_eq {named : List (NamedArgument α)}
    {assigned : Entries (Value α)} (h : List.Forall₂ s.Assigns named assigned)
    (bound : Entries (Value α)) :
    s.bindNamed bound named = .ok (bound.insertAll assigned) := by
  induction h generalizing bound with
  | nil => rfl
  | cons ha _ ih =>
      cases ha with
      | value hv =>
          rw [bindNamed, hv]
          exact ih _
      | token hword =>
          rw [bindNamed, ofFlag, hword]
          exact ih _
      | flag hword =>
          rw [bindNamed, ofFlag, hword]
          exact ih _

/-! ## The required options -/

section

omit [Scalar α]

/-- The names that have to be bound in another way than by name. -/
def unnamed (given : String → Option (Value α)) (names : List String) :
    List String :=
  names.filter fun name => (given name).isNone

/-- What is bound to the names, one after the other, by name or by position. -/
def taken (given : String → Option (Value α)) :
    List (Value α) → List String → Entries (Value α)
  | _, [] => []
  | positional, name :: rest =>
      match given name with
      | some v => (name, v) :: taken given positional rest
      | none =>
          match positional with
          | [] => taken given [] rest
          | v :: positional => (name, v) :: taken given positional rest

variable {given : String → Option (Value α)} {name : String}
  {names : List String} {positional : List (Value α)}

theorem unnamed_named {v : Value α} (h : given name = some v) :
    unnamed given (name :: names) = unnamed given names := by
  rw [unnamed, List.filter_cons_of_neg (by rw [h]; nofun)]
  rfl

theorem unnamed_open (h : given name = none) :
    unnamed given (name :: names) = name :: unnamed given names := by
  rw [unnamed, List.filter_cons_of_pos (by rw [h]; rfl)]
  rfl

theorem taken_named {v : Value α} (h : given name = some v)
    (positional : List (Value α)) (names : List String) :
    taken given positional (name :: names) =
      (name, v) :: taken given positional names := by
  rw [taken.eq_def]
  simp only [h]

theorem taken_positional (h : given name = none) (v : Value α)
    (positional : List (Value α)) (names : List String) :
    taken given (v :: positional) (name :: names) =
      (name, v) :: taken given positional names := by
  rw [taken.eq_def]
  simp only [h]

theorem taken_open (h : given name = none) (names : List String) :
    taken given [] (name :: names) = taken given [] names := by
  rw [taken.eq_def]
  simp only [h]

theorem keys_taken (given : String → Option (Value α))
    (positional : List (Value α)) (names : List String) :
    (taken given positional names).keys.Sublist names := by
  induction names generalizing positional with
  | nil => exact .slnil
  | cons name names ih =>
      cases h : given name with
      | some v =>
          rw [taken_named h]
          exact (ih positional).cons_cons name
      | none =>
          cases positional with
          | nil =>
              rw [taken_open h]
              exact (ih []).cons name
          | cons v positional =>
              rw [taken_positional h]
              exact (ih positional).cons_cons name

/-- Only names that no positional argument reaches are left out. -/
theorem filter_keys_taken {p : String → Bool}
    (h : ∀ name ∈ (unnamed given names).drop positional.length,
      p name = false) :
    (taken given positional names).keys.filter p = names.filter p := by
  induction names generalizing positional with
  | nil => rfl
  | cons name names ih =>
      cases hname : given name with
      | some v =>
          rw [unnamed_named hname] at h
          rw [taken_named hname, Entries.keys_cons, List.filter_cons,
            List.filter_cons, ih h]
      | none =>
          rw [unnamed_open hname] at h
          cases positional with
          | nil =>
              rw [taken_open hname, List.filter_cons_of_neg, ih]
              · exact fun other hother => h other (List.mem_cons_of_mem _ hother)
              · exact Bool.eq_false_iff.mp (h name List.mem_cons_self)
          | cons v positional =>
              rw [taken_positional hname, Entries.keys_cons, List.filter_cons,
                List.filter_cons, ih h]

/-- What is bound to a name is given for it, or else is the positional argument
that is paired with it. -/
theorem get?_taken (hnames : names.Nodup) (positional : List (Value α))
    (key : String) :
    (taken given positional names).get? key =
      if key ∈ names then
        (given key).or (Entries.get? key ((unnamed given names).zip positional))
      else none := by
  induction names generalizing positional with
  | nil => rfl
  | cons name names ih =>
      obtain ⟨hname, hnames⟩ := List.nodup_cons.mp hnames
      by_cases hkey : name = key
      · subst hkey
        rw [if_pos List.mem_cons_self]
        cases h : given name with
        | some v =>
            rw [taken_named h, Entries.get?, if_pos rfl]
            rfl
        | none =>
            rw [unnamed_open h]
            cases positional with
            | nil =>
                rw [taken_open h, ih hnames, if_neg hname]
                rfl
            | cons v positional =>
                rw [taken_positional h, Entries.get?, if_pos rfl,
                  List.zip_cons_cons, Entries.get?, if_pos rfl]
                rfl
      · have hmem : key ∈ name :: names ↔ key ∈ names := by
          rw [List.mem_cons, or_iff_right (Ne.symm hkey)]
        simp only [hmem]
        cases h : given name with
        | some v =>
            rw [taken_named h, Entries.get?, if_neg hkey, ih hnames,
              unnamed_named h]
        | none =>
            rw [unnamed_open h]
            cases positional with
            | nil =>
                rw [taken_open h, ih hnames, List.zip_nil_right,
                  List.zip_nil_right]
            | cons v positional =>
                rw [taken_positional h, Entries.get?, if_neg hkey, ih hnames,
                  List.zip_cons_cons, Entries.get?, if_neg hkey]

theorem filter_erase {named : Entries (Value α)} (h : named.keys.Nodup)
    (name : String) (names : List String) :
    (named.erase name).filter (fun e => e.1 ∉ names) =
      named.filter fun e => e.1 ∉ name :: names := by
  rw [Entries.erase_eq_filter h, List.filter_filter]
  refine List.filter_congr fun e _ => ?_
  simp [Bool.and_comm]

theorem filter_not_mem {named : Entries (Value α)} (h : name ∉ named.keys)
    (names : List String) :
    named.filter (fun e => e.1 ∉ names) =
      named.filter fun e => e.1 ∉ name :: names := by
  refine List.filter_congr fun e he => ?_
  have hne : e.1 ≠ name := fun heq => h (heq ▸ List.mem_map_of_mem he)
  simp [hne]

/-- The required options are bound exactly if those that neither a name nor a
position gives a value have a default. -/
theorem bindRequired_eq_ok {b c : Binding α} (hnames : names.Nodup)
    (hnamed : b.named.keys.Nodup)
    (hgiven : ∀ name ∈ names, b.named.get? name = given name) :
    s.bindRequired b names = .ok c ↔
      (∀ name ∈ (unnamed given names).drop b.positional.length,
        (s.defaults.get? name).isSome = true) ∧
      c = {
        bound := b.bound.insertAll (taken given b.positional names)
        named := b.named.filter fun e => e.1 ∉ names
        positional := b.positional.drop (unnamed given names).length } := by
  induction names generalizing b with
  | nil =>
      have hall : (b.named.filter fun e => e.1 ∉ ([] : List String)) =
          b.named := List.filter_eq_self.mpr fun _ _ => by simp
      rw [bindRequired, hall, unnamed, List.filter_nil, List.drop_nil,
        Except.ok.injEq, eq_comm]
      exact ⟨fun h => ⟨nofun, h⟩, fun h => h.2⟩
  | cons name names ih =>
      obtain ⟨hname, hnames⟩ := List.nodup_cons.mp hnames
      have hfirst := hgiven name List.mem_cons_self
      have hrest : ∀ other ∈ names, b.named.get? other = given other :=
        fun other hother => hgiven other (List.mem_cons_of_mem _ hother)
      rw [bindRequired, bindOne.eq_def, hfirst]
      cases h : given name with
      | some v =>
          have herased : (b.named.erase name).keys.Nodup := by
            rw [Entries.erase_eq_filter hnamed]
            exact hnamed.sublist (List.filter_sublist.map _)
          have hothers : ∀ other ∈ names,
              (b.named.erase name).get? other = given other := by
            intro other hother
            have hne : other ≠ name := fun heq => hname (heq ▸ hother)
            rw [Entries.erase_eq_filter hnamed,
              Entries.get?_filter fun key => key ≠ name]
            simp [hne, hrest other hother]
          rw [unnamed_named h, taken_named h, ← filter_erase hnamed]
          exact ih hnames herased hothers
      | none =>
          rw [h] at hfirst
          have hnot := Entries.get?_eq_none_iff.mp hfirst
          rw [unnamed_open h, ← filter_not_mem hnot]
          obtain ⟨bound, named, positional⟩ := b
          cases positional with
          | nil =>
              rw [taken_open h]
              by_cases hdefault : (s.defaults.get? name).isSome = true
              · have hbound := ih (b := ⟨bound, named, []⟩) hnames hnamed hrest
                simp only [List.length_nil, List.drop_zero, List.drop_nil]
                  at hbound ⊢
                rw [List.forall_mem_cons, and_iff_right hdefault, if_pos hdefault]
                exact hbound
              · simp only [hdefault]
                exact ⟨nofun, fun h =>
                  absurd (h.1 name List.mem_cons_self) hdefault⟩
          | cons v positional =>
              rw [taken_positional h]
              exact ih hnames hnamed hrest

end

/-! ## All options -/

/-- The required options that no named argument sets. -/
def unset (s : Schema α) (assigned : Entries (Value α)) : List String :=
  s.required.filter (· ∉ assigned.keys)

/-- The value of the last assignment to an option. -/
def lastAssigned (assigned : Entries (Value α)) (key : String) :
    Option (Value α) :=
  Entries.get? key assigned.reverse

section

variable {arguments : Arguments α} {positional : List (Value α)}
  {assigned : Entries (Value α)}

omit [Scalar α] in
theorem get?_assigned (assigned : Entries (Value α)) (key : String) :
    (Entries.insertAll [] assigned).get? key = lastAssigned assigned key := by
  rw [Entries.get?_insertAll]
  exact Option.or_none

omit [Scalar α] in
theorem unnamed_lastAssigned (s : Schema α) (assigned : Entries (Value α)) :
    unnamed (lastAssigned assigned) s.required = s.unset assigned := by
  refine List.filter_congr fun name _ => ?_
  rw [← get?_assigned, Bool.eq_iff_iff, Option.isNone_iff_eq_none,
    Entries.get?_eq_none_iff, Entries.keys_insertAll, decide_eq_true_eq]
  simp [Entries.keys]

/-- All options: the defaults, with what the required options are bound to put
into them, and then what is named besides. -/
def answer (s : Schema α) (assigned : Entries (Value α))
    (positional : List (Value α)) : Entries (Value α) :=
  (s.defaults.insertAll
    (taken (lastAssigned assigned) positional s.required)).insertAll
      ((Entries.insertAll [] assigned).filter (·.1 ∉ s.required))

omit [Scalar α] in
theorem keys_assigned (assigned : Entries (Value α)) :
    (Entries.insertAll [] assigned).keys = assigned.keys.eraseDups := by
  rw [Entries.keys_insertAll]
  exact List.filter_eq_self.mpr fun _ _ => rfl

omit [Scalar α] in
theorem keys_rest (s : Schema α) (assigned : Entries (Value α)) :
    Entries.keys ((Entries.insertAll [] assigned).filter (·.1 ∉ s.required)) =
      assigned.keys.eraseDups.filter (· ∉ s.required) := by
  rw [← keys_assigned]
  exact Entries.keys_filter (fun key => key ∉ s.required) _

omit [Scalar α] in
theorem nodup_keys_rest (s : Schema α) (assigned : Entries (Value α)) :
    (Entries.keys ((Entries.insertAll [] assigned).filter
      (·.1 ∉ s.required))).Nodup := by
  rw [keys_rest, ← keys_assigned]
  exact (Entries.nodup_insertAll Entries.nodup_nil assigned).filter _

omit [Scalar α] in
theorem get?_answer (distinct : s.required.Nodup) (key : String) :
    (s.answer assigned positional).get? key =
      ((lastAssigned assigned key).or
        (Entries.get? key ((s.unset assigned).zip positional))).or
          (s.defaults.get? key) := by
  have hnamed := nodup_keys_rest s assigned
  have htaken := distinct.sublist
    (keys_taken (lastAssigned assigned) positional s.required)
  rw [answer, Entries.get?_insertAll, Entries.get?_insertAll,
    Entries.get?_reverse hnamed, Entries.get?_reverse htaken,
    Entries.get?_filter fun key => key ∉ s.required, get?_assigned,
    get?_taken distinct, unnamed_lastAssigned]
  by_cases hkey : key ∈ s.required
  · simp [hkey]
  · have hpaired : Entries.get? key ((s.unset assigned).zip positional) =
        none := by
      refine Entries.get?_eq_none fun hmem => hkey ?_
      obtain ⟨e, he, rfl⟩ := List.mem_map.mp hmem
      exact (List.mem_filter.mp (List.of_mem_zip he).1).1
    simp [hkey, hpaired]

omit [Scalar α] in
theorem keys_answer (distinct : s.required.Nodup)
    (hdefaults : ∀ name ∈ (s.unset assigned).drop positional.length,
      (s.defaults.get? name).isSome = true) :
    (s.answer assigned positional).keys =
      s.defaults.keys ++ s.required.filter (· ∉ s.defaults.keys) ++
        assigned.keys.eraseDups.filter fun key =>
          key ∉ s.defaults.keys ∧ key ∉ s.required := by
  have htaken := distinct.sublist
    (keys_taken (lastAssigned assigned) positional s.required)
  have hbound : (s.defaults.insertAll
      (taken (lastAssigned assigned) positional s.required)).keys =
        s.defaults.keys ++ s.required.filter (· ∉ s.defaults.keys) := by
    rw [Entries.keys_insertAll, Entries.eraseDups_eq_self htaken,
      filter_keys_taken]
    intro name hname
    rw [unnamed_lastAssigned] at hname
    simpa using Entries.isSome_get?_iff.mp (hdefaults name hname)
  rw [answer, Entries.keys_insertAll,
    Entries.eraseDups_eq_self (nodup_keys_rest s assigned), keys_rest, hbound,
    List.filter_filter]
  congr 1
  refine List.filter_congr fun key _ => ?_
  rw [Bool.eq_iff_iff]
  simp only [List.mem_append, List.mem_filter, Bool.and_eq_true,
    decide_eq_true_eq]
  tauto

theorem resolve_eq_ok (distinct : s.required.Nodup)
    (hpositional : List.Forall₂ (fun l v => Value.ofLiteral l = .ok v)
      arguments.positional positional)
    (hnamed : List.Forall₂ s.Assigns arguments.named assigned)
    (options : Entries (Value α)) :
    s.resolve arguments = .ok options ↔
      (positional.length ≤ (s.unset assigned).length ∧
        ∀ name ∈ (s.unset assigned).drop positional.length,
          (s.defaults.get? name).isSome = true) ∧
      options = s.answer assigned positional := by
  have hbind := fun after => bindRequired_eq_ok (s := s) (c := after)
    (b := ⟨s.defaults, Entries.insertAll [] assigned, positional⟩) distinct
    (Entries.nodup_insertAll Entries.nodup_nil assigned)
    fun name _ => get?_assigned assigned name
  simp only [unnamed_lastAssigned] at hbind
  rw [resolve, valuesOf_eq hpositional]
  show (s.bindNamed [] arguments.named >>= _) = _ ↔ _
  rw [bindNamed_eq hnamed]
  show (s.bindRequired _ _ >>= _) = _ ↔ _
  constructor
  · intro h
    obtain ⟨b, hb, h⟩ := Except.bind_eq_ok.mp h
    obtain ⟨hdefaults, rfl⟩ := (hbind b).mp hb
    simp only [] at h
    split at h
    · next hempty =>
        cases h
        rw [List.isEmpty_iff, List.drop_eq_nil_iff] at hempty
        exact ⟨⟨hempty, hdefaults⟩, rfl⟩
    · cases h
  · rintro ⟨⟨hle, hdefaults⟩, rfl⟩
    refine Except.bind_eq_ok.mpr ⟨_, (hbind _).mpr ⟨hdefaults, rfl⟩, ?_⟩
    rw [List.drop_eq_nil_iff.mpr hle]
    rfl

/-- Options are bound exactly if there are not more positional arguments than
required options that are not named, and if those of them that no argument
reaches have a default. Each option then has the value of its last assignment,
or else of the positional argument that it is paired with, or else its default;
and the options stand in the order of the defaults, of the required options
without one, and of the first occurrence of the rest. -/
theorem resolve_binds (arguments : Arguments α) (distinct : s.required.Nodup)
    (hpositional : List.Forall₂ (fun l v => Value.ofLiteral l = .ok v)
      arguments.positional positional)
    (hnamed : List.Forall₂ s.Assigns arguments.named assigned) :
    ((∃ options, s.resolve arguments = .ok options) ↔
      positional.length ≤ (s.unset assigned).length ∧
        ∀ name ∈ (s.unset assigned).drop positional.length,
          (s.defaults.get? name).isSome = true) ∧
    ∀ options, s.resolve arguments = .ok options →
      (∀ key, options.get? key =
        ((lastAssigned assigned key).or
          (Entries.get? key ((s.unset assigned).zip positional))).or
            (s.defaults.get? key)) ∧
      options.keys =
        s.defaults.keys ++ s.required.filter (· ∉ s.defaults.keys) ++
          assigned.keys.eraseDups.filter fun key =>
            key ∉ s.defaults.keys ∧ key ∉ s.required := by
  have hok := resolve_eq_ok distinct hpositional hnamed
  refine ⟨⟨fun ⟨options, h⟩ => ((hok options).mp h).1,
    fun h => ⟨_, (hok _).mpr ⟨h, rfl⟩⟩⟩, fun options h => ?_⟩
  obtain ⟨⟨-, hdefaults⟩, rfl⟩ := (hok options).mp h
  exact ⟨get?_answer distinct, keys_answer distinct hdefaults⟩

end

/-- A required option that is named leaves its place to the next one, and of a
token and an alias for one option the later one counts. -/
theorem resolve_binds_cellOptions : ∃ options : Entries (Value Float),
    Directive.schema.resolve ⟨[.int 3], [.assign "columns" (.int 2),
        .flag "mr", .flag "wide", .assign "ul" (.int 4)]⟩ = .ok options ∧
      options.get? "columns" = some (.int 2) ∧
      options.get? "column_specifier" = some (.int 3) ∧
      options.get? "underline" = some (.int 4) ∧
      options.keys =
        ["columns", "column_specifier", "underline", "force_multicolumn",
          "wide"] := by
  obtain ⟨hiff, hall⟩ := resolve_binds (s := Directive.schema (α := Float))
    ⟨[.int 3], [.assign "columns" (.int 2), .flag "mr", .flag "wide",
      .assign "ul" (.int 4)]⟩ (by decide) (.cons rfl .nil)
    (.cons (.value rfl) (.cons (.token rfl) (.cons (.flag rfl)
      (.cons (.value rfl) .nil))))
  obtain ⟨options, h⟩ := hiff.mpr (by decide)
  obtain ⟨hvalue, hkeys⟩ := hall options h
  exact ⟨options, h, hvalue "columns", hvalue "column_specifier",
    hvalue "underline", hkeys⟩

end Tabulation.Column.Schema
