import Tabulation.Column.Schema
import Tabulation.Proofs.Options.Entries
import Tabulation.Proofs.Outcome

/-!
# What holds of every option

The values of an option list come from four places: the defaults of its schema,
the tokens that the schema knows, bare words, and the literals of the list.
Binding moves them about and makes no new ones, so what holds of the values at
these places holds of every option.
-/

namespace Tabulation.Column

variable {α : Type}

/-- The literal of an argument that has one. -/
def NamedArgument.literal? : NamedArgument α → Option (Literal α)
  | .assign _ l => some l
  | .flag _ => none

/-- The literals of an argument list, those within definitions apart. -/
def Arguments.literals (as : Arguments α) : List (Literal α) :=
  as.positional ++ as.named.filterMap NamedArgument.literal?

variable [Scalar α]

/-- What all literals of a list are made into. -/
def Yields (p : Value α → Prop) (literals : List (Literal α)) : Prop :=
  ∀ l ∈ literals, ∀ v, Value.ofLiteral l = .ok v → p v

variable {p : Value α → Prop}

theorem Yields.valuesOf {literals : List (Literal α)} {values : List (Value α)}
    (hliterals : Yields p literals) (h : valuesOf literals = .ok values) :
    ∀ v ∈ values, p v := by
  induction literals generalizing values with
  | nil =>
      rw [Column.valuesOf] at h
      cases h
      exact nofun
  | cons l ls ih =>
      obtain ⟨hl, hls⟩ := List.forall_mem_cons.mp hliterals
      rw [Column.valuesOf] at h
      obtain ⟨v, hv, h⟩ := Except.bind_eq_ok.mp h
      obtain ⟨vs, hvs, h⟩ := Except.bind_eq_ok.mp h
      cases h
      exact List.forall_mem_cons.mpr ⟨hl v hv, ih hls hvs⟩

namespace Schema

variable {s : Schema α} {bound named : Entries (Value α)}

/-- A property that no value of a schema is against. -/
structure Keeps (s : Schema α) (p : Value α → Prop) : Prop where
  defaults : ∀ e ∈ s.defaults, p e.2
  tokens : ∀ e ∈ s.tokens, p e.2.2
  flag : p (.bool true)

omit [Scalar α] in
theorem Keeps.ofFlag (h : s.Keeps p) (word : String) : p (s.ofFlag word).2 := by
  rw [Schema.ofFlag]
  split
  · next hword =>
      have hvalue := Entries.of_get? (p := fun e : String × Value α => p e.2)
        h.tokens hword
      exact hvalue
  · exact h.flag

theorem Keeps.bindNamed (h : s.Keeps p) {arguments : List (NamedArgument α)}
    (hnamed : s.bindNamed bound arguments = .ok named)
    (hliterals : Yields p (arguments.filterMap NamedArgument.literal?))
    (hbound : ∀ e ∈ bound, p e.2) : ∀ e ∈ named, p e.2 := by
  induction arguments generalizing bound with
  | nil =>
      rw [Schema.bindNamed] at hnamed
      cases hnamed
      exact hbound
  | cons argument rest ih =>
      rw [Schema.bindNamed.eq_def] at hnamed
      cases argument with
      | assign key literal =>
          obtain ⟨v, hv, hnamed⟩ := Except.bind_eq_ok.mp hnamed
          obtain ⟨hl, hrest⟩ := List.forall_mem_cons.mp hliterals
          exact ih hnamed hrest (Entries.forall_insert hbound _ (hl v hv))
      | flag word =>
          exact ih hnamed hliterals
            (Entries.forall_insert hbound _ (h.ofFlag word))

/-- A property of all values that are bound, or are to be. -/
structure Binding.All (p : Value α → Prop) (b : Binding α) : Prop where
  bound : ∀ e ∈ b.bound, p e.2
  named : ∀ e ∈ b.named, p e.2
  positional : ∀ v ∈ b.positional, p v

omit [Scalar α] in
theorem Binding.All.bindOne {b b' : Binding α} {name : String}
    (hb : b.All p) (h : s.bindOne b name = .ok b') : b'.All p := by
  rw [Schema.bindOne] at h
  split at h
  · next v hv =>
      cases h
      exact
        { bound := Entries.forall_insert hb.bound name
            (Entries.of_get? hb.named hv)
          named := fun e he =>
            hb.named e ((Entries.erase_sublist name b.named).subset he)
          positional := hb.positional }
  · split at h
    · next v rest hrest =>
        cases h
        have hpositional := hb.positional
        rw [hrest, List.forall_mem_cons] at hpositional
        exact ⟨Entries.forall_insert hb.bound name hpositional.1, hb.named,
          hpositional.2⟩
    · split at h
      · cases h
        exact hb
      · cases h

omit [Scalar α] in
theorem Binding.All.bindRequired {names : List String} {b b' : Binding α}
    (hb : b.All p) (h : s.bindRequired b names = .ok b') : b'.All p := by
  induction names generalizing b with
  | nil =>
      rw [Schema.bindRequired] at h
      cases h
      exact hb
  | cons name names ih =>
      rw [Schema.bindRequired] at h
      obtain ⟨first, hfirst, h⟩ := Except.bind_eq_ok.mp h
      exact ih (hb.bindOne hfirst) h

/-- A property of the values of a schema and of those of the literals of a text
is one of all options that the text gives. -/
theorem Keeps.parse (hs : s.Keeps p) {text : String}
    {options : Entries (Value α)} (h : s.parse text = .ok options)
    (hliterals : ∀ arguments : Arguments α,
      parseArguments text = .ok arguments → Yields p arguments.literals) :
    ∀ e ∈ options, p e.2 := by
  rw [Schema.parse] at h
  obtain ⟨_, _, h⟩ := Except.bind_eq_ok.mp h
  obtain ⟨arguments, harguments, h⟩ := Except.bind_eq_ok.mp h
  have hgiven := hliterals arguments harguments
  have hpositional : Yields p arguments.positional :=
    fun l hl => hgiven l (List.mem_append_left _ hl)
  have hassigned : Yields p
      (arguments.named.filterMap NamedArgument.literal?) :=
    fun l hl => hgiven l (List.mem_append_right _ hl)
  rw [resolve] at h
  obtain ⟨positional, hvalues, h⟩ := Except.bind_eq_ok.mp h
  obtain ⟨named, hnamed, h⟩ := Except.bind_eq_ok.mp h
  obtain ⟨b, hb, h⟩ := Except.bind_eq_ok.mp h
  have hstart : Binding.All p ⟨s.defaults, named, positional⟩ :=
    ⟨hs.defaults, hs.bindNamed hnamed hassigned nofun,
      hpositional.valuesOf hvalues⟩
  have hall := hstart.bindRequired hb
  split at h
  · cases h
    exact Entries.forall_insertAll hall.bound hall.named
  · cases h

end Schema

end Tabulation.Column
