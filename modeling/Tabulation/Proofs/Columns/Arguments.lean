import Mathlib.Data.List.Perm.Basic
import Tabulation.Column.Builder
import Tabulation.Proofs.Options.Entries
import Tabulation.Proofs.Outcome

/-!
# What the arguments of a definition come to

The named arguments of a definition are bound one after the other, and each of
them comes to a value by itself. So binding succeeds exactly if every argument
has a value, and it leaves for each name the value of the last argument of that
name. The order of arguments therefore matters only among those of one name.
-/

namespace Tabulation.Column

variable {α : Type}

/-- The option that a named argument is for. -/
def NamedArgument.name : NamedArgument α → String
  | .assign key _ => key
  | .flag name => name

/-- The names of the arguments of a definition, in order. -/
def Definition.names (d : Definition α) : List String :=
  d.arguments.named.map NamedArgument.name

/-- The same named arguments in another order, in which those of one name stand
as before. -/
structure Reordered (named named' : List (NamedArgument α)) : Prop where
  perm : named'.Perm named
  same : ∀ name, named'.filter (·.name = name) = named.filter (·.name = name)

theorem Reordered.swap {a b : NamedArgument α} (h : a.name ≠ b.name)
    (rest : List (NamedArgument α)) :
    Reordered (a :: b :: rest) (b :: a :: rest) where
  perm := .swap a b rest
  same := by
    intro name
    by_cases ha : a.name = name
    · have hb : b.name ≠ name := fun hb => h (ha.trans hb.symm)
      simp [ha, hb]
    · simp [List.filter_cons, ha]

variable [Scalar α]

/-- What a named argument comes to: its name and its value. -/
inductive NamedArgument.Gives : NamedArgument α → String × Value α → Prop where
  | value {key : String} {literal : Literal α} {v : Value α}
      (h : Value.ofLiteral literal = .ok v) :
      Gives (.assign key literal) (key, v)
  | flag {name : String} : Gives (.flag name) (name, .bool true)

namespace NamedArgument.Gives

theorem name_eq {a : NamedArgument α} {e : String × Value α}
    (h : a.Gives e) : e.1 = a.name := by
  cases h <;> rfl

theorem rightUnique :
    Relator.RightUnique (NamedArgument.Gives : NamedArgument α → _ → Prop) := by
  intro a e e' h h'
  cases h with
  | value hv =>
      cases h' with
      | value hv' =>
          rw [hv] at hv'
          cases hv'
          rfl
  | flag =>
      cases h'
      rfl

end NamedArgument.Gives

theorem bindNamed_eq_ok {bound es : Entries (Value α)}
    {named : List (NamedArgument α)} :
    bindNamed bound named = .ok es ↔
      ∃ given, List.Forall₂ NamedArgument.Gives named given ∧
        es = bound.insertAll given := by
  induction named generalizing bound with
  | nil =>
      rw [bindNamed, Except.ok.injEq, eq_comm]
      constructor
      · intro h
        exact ⟨[], .nil, h⟩
      · rintro ⟨_, ⟨⟩, rfl⟩
        rfl
  | cons a rest ih =>
      cases a with
      | assign key literal =>
          rw [bindNamed]
          simp only [Except.bind_eq_ok, ih]
          constructor
          · rintro ⟨v, hv, given, hgiven, rfl⟩
            exact ⟨(key, v) :: given, .cons (.value hv) hgiven, rfl⟩
          · rintro ⟨_, hgiven, rfl⟩
            cases hgiven with
            | cons ha hgiven =>
                cases ha with
                | value hv => exact ⟨_, hv, _, hgiven, rfl⟩
      | flag name =>
          rw [bindNamed, ih]
          constructor
          · rintro ⟨given, hgiven, rfl⟩
            exact ⟨(name, .bool true) :: given, .cons .flag hgiven, rfl⟩
          · rintro ⟨_, hgiven, rfl⟩
            cases hgiven with
            | cons ha hgiven =>
                cases ha
                exact ⟨_, hgiven, rfl⟩

theorem names_given {named : List (NamedArgument α)} {given : Entries (Value α)}
    (h : List.Forall₂ NamedArgument.Gives named given) :
    given.keys = named.map NamedArgument.name := by
  induction h with
  | nil => rfl
  | cons ha _ ih => rw [Entries.keys_cons, List.map_cons, ih, ha.name_eq]

theorem mem_keys_of_bindNamed {named : List (NamedArgument α)}
    {es : Entries (Value α)} {name : String} (h : bindNamed [] named = .ok es)
    (hname : name ∈ named.map NamedArgument.name) : name ∈ es.keys := by
  obtain ⟨given, hgiven, rfl⟩ := bindNamed_eq_ok.mp h
  rw [← names_given hgiven] at hname
  rw [Entries.keys_insertAll]
  exact List.mem_append_right _ (List.mem_filter.mpr
    ⟨List.mem_eraseDups.mpr hname, decide_eq_true List.not_mem_nil⟩)

theorem length_valuesOf {literals : List (Literal α)} {values : List (Value α)}
    (h : valuesOf literals = .ok values) : values.length = literals.length := by
  induction literals generalizing values with
  | nil =>
      rw [valuesOf] at h
      cases h
      rfl
  | cons l ls ih =>
      rw [valuesOf] at h
      obtain ⟨v, _, h⟩ := Except.bind_eq_ok.mp h
      obtain ⟨vs, hvs, h⟩ := Except.bind_eq_ok.mp h
      cases h
      rw [List.length_cons, List.length_cons, ih hvs]

theorem specifiersOf_cons {d : Definition α} {ds : List (Definition α)}
    {cs : List (Specifier α)} :
    specifiersOf (d :: ds) = .ok cs ↔
      ∃ c rest, Specifier.ofDefinition d = .ok c ∧
        specifiersOf ds = .ok rest ∧ cs = c :: rest := by
  rw [specifiersOf]
  simp only [Except.bind_eq_ok, Except.pure_eq_ok]
  constructor
  · intro h
    obtain ⟨c, hc, rest, hrest, heq⟩ := h
    exact ⟨c, rest, hc, hrest, heq.symm⟩
  · intro h
    obtain ⟨c, rest, hc, hrest, heq⟩ := h
    exact ⟨c, hc, rest, hrest, heq.symm⟩

theorem ofDefinition_eq_ok {c : Char} {as : Arguments α} {start : Nat}
    {specifier : Specifier α} :
    Specifier.ofDefinition ⟨c, as, start⟩ = .ok specifier ↔
      ∃ positional named, valuesOf as.positional = .ok positional ∧
        bindNamed [] as.named = .ok named ∧
        Specifier.ofBound ⟨c, some start, positional, named⟩ =
          .ok specifier := by
  obtain ⟨positional, named⟩ := as
  rw [Specifier.ofDefinition]
  simp only [Except.bind_eq_ok]
  constructor
  · intro h
    obtain ⟨positional', hp, named', hn, hspecifier⟩ := h
    exact ⟨positional', named', hp, hn, hspecifier⟩
  · intro h
    obtain ⟨positional', named', hp, hn, hspecifier⟩ := h
    exact ⟨positional', hp, named', hn, hspecifier⟩

/-! ## Arguments in another order -/

omit [Scalar α] in
/-- What is looked up depends on the entries of that name only. -/
theorem get?_of_filter {given given' : Entries (Value α)} {name : String}
    (h : given'.filter (fun e => e.1 = name) =
      given.filter (fun e => e.1 = name)) :
    (Entries.insertAll [] given').get? name =
      (Entries.insertAll [] given).get? name := by
  have hlast : ∀ es : Entries (Value α), (Entries.insertAll [] es).get? name =
      Entries.get? name (es.filter fun e => e.1 = name).reverse := by
    intro es
    have hkept := Entries.get?_filter (fun key => key = name) es.reverse name
    rw [decide_eq_true rfl, if_pos rfl] at hkept
    rw [Entries.get?_insertAll, ← List.filter_reverse, hkept]
    exact Option.or_none
  rw [hlast, hlast, h]

theorem gives_filter {named : List (NamedArgument α)}
    {given : Entries (Value α)}
    (h : List.Forall₂ NamedArgument.Gives named given) (name : String) :
    List.Forall₂ NamedArgument.Gives (named.filter (·.name = name))
      (given.filter fun e => e.1 = name) := by
  refine List.rel_filter ?_ h
  intro a e ha
  show decide (a.name = name) = true ↔ decide (e.1 = name) = true
  rw [ha.name_eq]

/-- Arguments in another order have values if they had some, and the same ones
for each name. -/
theorem Reordered.gives {named named' : List (NamedArgument α)}
    {given : Entries (Value α)} (h : Reordered named named')
    (hgiven : List.Forall₂ NamedArgument.Gives named given) :
    ∃ given', List.Forall₂ NamedArgument.Gives named' given' ∧
      ∀ name, (Entries.insertAll [] given').get? name =
        (Entries.insertAll [] given).get? name := by
  obtain ⟨given', hgiven', _⟩ := List.perm_comp_forall₂ h.perm hgiven
  refine ⟨given', hgiven', fun name => get?_of_filter ?_⟩
  have hnamed := gives_filter hgiven' name
  rw [h.same] at hnamed
  exact List.right_unique_forall₂' NamedArgument.Gives.rightUnique hnamed
    (gives_filter hgiven name)

end Tabulation.Column
