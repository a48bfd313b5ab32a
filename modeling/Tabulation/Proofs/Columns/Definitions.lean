import Tabulation.Proofs.Columns.Kinds
import Tabulation.Proofs.Source.Writable

/-!
# What a definition makes

Definitions stand inside of definitions, as the values of options and as what
replaces a column below a group. Every specifier that comes out of this, at any
depth, was bound by itself, so what binding checks holds of all of them: widths
are not negative, a level of indentation takes less than what is left, and
nothing is split into levels or has lost its padding yet.
-/

namespace Tabulation.Column

variable {α : Type} [Scalar α]

/-- A specifier as binding makes it. -/
structure Specifier.Fresh (c : Specifier α) : Prop where
  widths : ∀ w ∈ c.widths, ¬w.value < 0.0
  range : ∀ p, c.kind = .paragraph p →
    0.0 ≤ p.indentFraction ∧ p.indentFraction < 1.0
  whole : c.indentWidths = []
  left : c.noLeftPadding = false
  right : c.noRightPadding = false

/-- A specifier that is as binding makes it at any depth. -/
def Specifier.AllFresh (c : Specifier α) : Prop := ∀ s ∈ c.within, s.Fresh

/-- A value of which all specifiers are as binding makes them. -/
def Value.AllFresh (v : Value α) : Prop := ∀ s ∈ v.within, s.Fresh

/-! ## The specifiers in a value -/

omit [Scalar α] in
theorem Kind.mem_within {kind : Kind α} {s : Specifier α} :
    s ∈ kind.within ↔ ∃ v ∈ kind.values, s ∈ v.within := by
  constructor
  · intro h
    cases kind with
    | numeric n =>
        obtain ⟨format, zero, width, alignment, plus, weight⟩ := n
        rw [within] at h
        simp only [List.mem_append] at h
        rcases h with h | h | h | h | h
        · exact ⟨format, by simp [values], h⟩
        · exact ⟨zero, by simp [values], h⟩
        · exact ⟨alignment, by simp [values], h⟩
        · exact ⟨plus, by simp [values], h⟩
        · exact ⟨weight, by simp [values], h⟩
    | _ => simp [within] at h
  · rintro ⟨v, hv, hs⟩
    exact within_of_mem hv s hs

omit [Scalar α] in
theorem mem_withinList {cs : List (Specifier α)} {s : Specifier α} :
    s ∈ withinList cs ↔ ∃ c ∈ cs, s ∈ c.within := by
  induction cs with
  | nil => simp [withinList]
  | cons c cs ih =>
      rw [withinList, List.mem_append, ih, List.exists_mem_cons_iff]

omit [Scalar α] in
theorem Override.mem_within {o : Override α} {s : Specifier α} :
    s ∈ o.within ↔
      (∃ c, o = .single c ∧ s ∈ c.within) ∨
        ∃ cs, o = .indexed cs ∧ ∃ c ∈ cs, s ∈ c.within := by
  cases o with
  | itself => simp [within]
  | single c => simp [within]
  | indexed cs => simp [within, mem_withinList]

omit [Scalar α] in
theorem within_plainLeft :
    (Specifier.plainLeft : Specifier α).within = [.plainLeft] := by
  simp [Specifier.plainLeft, Specifier.plain, Specifier.within,
    Override.within, Kind.within]

omit [Scalar α] in
theorem Bound.mem_named {b : Bound α} {key : String} {v : Value α}
    (h : b.named.get? key = some v) : ∃ e ∈ b.named, e.2 = v :=
  Entries.of_get? (p := fun v => ∃ e ∈ b.named, e.2 = v)
    (fun e he => ⟨e, he, rfl⟩) h

/-- The options of a numeric column are given, or else have defaults without
columns in them. -/
theorem Numeric.Binds.values {b : Bound α} {n : Numeric α} (h : n.Binds b) :
    ∀ v ∈ (Kind.numeric n).values,
      (∃ e ∈ b.named, e.2 = v) ∨ v.within = [] := by
  have hoption : ∀ {key : String} {v default : Value α},
      v = (b.named.get? key).getD default → default.within = [] →
      (∃ e ∈ b.named, e.2 = v) ∨ v.within = [] := by
    intro key v default hv hdefault
    cases hget : b.named.get? key with
    | none =>
        rw [hget] at hv
        exact .inr (hv ▸ hdefault)
    | some given =>
        rw [hget] at hv
        cases hv
        exact .inl (Bound.mem_named hget)
  have hnothing : (Value.nothing : Value α).within = [] := by
    simp [Value.within]
  have htext : ∀ s, (Value.text s : Value α).within = [] := by
    simp [Value.within]
  intro v hv
  simp only [Kind.values, List.mem_cons, List.not_mem_nil, or_false] at hv
  rcases hv with rfl | rfl | rfl | rfl | rfl
  · exact hoption h.tableFormat (htext _)
  · exact hoption h.addIntegerZero hnothing
  · exact hoption h.tableNumberAlignment hnothing
  · exact hoption h.retainExplicitPlus hnothing
  · exact hoption h.detectInlineWeight (htext _)

theorem Override.ofBound_within {default o : Override α} {b : Bound α}
    (h : Override.ofBound default b = .ok o) :
    ∀ s ∈ o.within, s ∈ default.within ∨ ∃ e ∈ b.named, s ∈ e.2.within := by
  intro s hs
  rw [Override.ofBound.eq_def] at h
  split at h
  · cases h
    exact .inl hs
  · cases h
    rw [within] at hs
    cases hs
  · next c hc =>
      cases h
      obtain ⟨e, he, heq⟩ := Bound.mem_named hc
      rw [within] at hs
      exact .inr ⟨e, he, by rw [heq, Value.within]; exact hs⟩
  · next cs hcs =>
      cases h
      obtain ⟨e, he, heq⟩ := Bound.mem_named hcs
      rw [within] at hs
      exact .inr ⟨e, he, by rw [heq, Value.within]; exact hs⟩
  · cases h

/-! ## What is bound -/

theorem Specifier.plainLeft_fresh :
    (Specifier.plainLeft : Specifier α).Fresh where
  widths := nofun
  range := nofun
  whole := rfl
  left := rfl
  right := rfl

namespace Specifier.Binds

variable {b : Bound α} {c : Specifier α}

theorem fresh (h : c.Binds b) : c.Fresh := by
  have hkind := Kind.ofBound_binds h.kind
  refine ⟨?_, ?_, ?_, h.left, h.right⟩
  · intro w hw
    rw [Specifier.widths] at hw
    generalize c.kind = kind at hkind hw
    cases hkind with
    | simple => cases hw
    | paragraph hp _ =>
        obtain ⟨_, _, hwidth⟩ := (Paragraph.ofBound_binds hp).width
        rw [List.mem_singleton.mp hw]
        exact (Width.ofValue_eq_ok.mp hwidth).2
    | numeric _ hn =>
        exact (Numeric.ofBound_binds hn).nonneg w (Option.mem_toList.mp hw)
    | autoWidth => cases hw
  · intro p hp
    rw [hp] at hkind
    cases hkind with
    | paragraph hp _ => exact (Paragraph.ofBound_binds hp).range
  · rw [Specifier.indentWidths]
    generalize c.kind = kind at hkind
    cases hkind with
    | paragraph hp _ => exact (Paragraph.ofBound_binds hp).whole
    | _ => rfl

/-- A specifier in one that is bound is that one, or in a value that is given
for it, or the one that stands in for a group of numbers. -/
theorem within (h : c.Binds b) : ∀ s ∈ c.within,
    s = c ∨ s = .plainLeft ∨ ∃ e ∈ b.named, s ∈ e.2.within := by
  intro s hs
  rw [c.within_eq, List.mem_cons, List.mem_append] at hs
  rcases hs with rfl | hs | hs
  · exact .inl rfl
  · obtain ⟨v, hv, hs⟩ := Kind.mem_within.mp hs
    have hkind := Kind.ofBound_binds h.kind
    generalize c.kind = kind at hkind hv
    cases hkind with
    | numeric _ hn =>
        rcases (Numeric.ofBound_binds hn).values v hv with
          ⟨e, he, rfl⟩ | hnone
        · exact .inr (.inr ⟨e, he, hs⟩)
        · rw [hnone] at hs
          cases hs
    | _ => cases hv
  · rcases Override.ofBound_within h.override s hs with hdefault | hgiven
    · refine .inr (.inl ?_)
      generalize c.kind = kind at hdefault
      cases kind with
      | numeric n =>
          change s ∈ (Override.single Specifier.plainLeft).within at hdefault
          rw [Override.within, within_plainLeft] at hdefault
          exact List.mem_singleton.mp hdefault
      | _ =>
          change s ∈ Override.itself.within at hdefault
          rw [Override.within] at hdefault
          cases hdefault
    · exact .inr (.inr hgiven)

theorem allFresh (h : c.Binds b) (hb : ∀ e ∈ b.named, e.2.AllFresh) :
    c.AllFresh := by
  intro s hs
  rcases h.within s hs with rfl | rfl | ⟨e, he, hs⟩
  · exact h.fresh
  · exact Specifier.plainLeft_fresh
  · exact hb e he s hs

end Specifier.Binds

theorem Value.bool_fresh (b : Bool) : (Value.bool b : Value α).AllFresh := by
  simp [AllFresh, within]

mutual

theorem Value.ofLiteral_fresh {l : Literal α} {v : Value α}
    (h : Value.ofLiteral l = .ok v) : v.AllFresh := by
  match l with
  | .nothing | .bool _ | .int _ | .number _ | .text _ =>
      rw [Value.ofLiteral] at h
      cases h
      simp [Value.AllFresh, Value.within]
  | .column d =>
      rw [Value.ofLiteral] at h
      obtain ⟨c, hc, h⟩ := Except.bind_eq_ok.mp h
      cases h
      intro s hs
      rw [Value.within] at hs
      exact Specifier.ofDefinition_fresh hc s hs
  | .columns ds =>
      rw [Value.ofLiteral] at h
      obtain ⟨cs, hcs, h⟩ := Except.bind_eq_ok.mp h
      cases h
      intro s hs
      rw [Value.within] at hs
      obtain ⟨c, hc, hs⟩ := mem_withinList.mp hs
      exact specifiersOf_fresh hcs c hc s hs

theorem bindNamed_fresh {bound es : Entries (Value α)}
    {named : List (NamedArgument α)} (h : bindNamed bound named = .ok es)
    (hbound : ∀ e ∈ bound, e.2.AllFresh) : ∀ e ∈ es, e.2.AllFresh := by
  match named with
  | [] =>
      rw [bindNamed] at h
      cases h
      exact hbound
  | .assign key literal :: rest =>
      rw [bindNamed] at h
      obtain ⟨v, hv, h⟩ := Except.bind_eq_ok.mp h
      exact bindNamed_fresh h
        (Entries.forall_insert hbound key (Value.ofLiteral_fresh hv))
  | .flag name :: rest =>
      rw [bindNamed] at h
      exact bindNamed_fresh h
        (Entries.forall_insert hbound name (Value.bool_fresh true))

theorem Specifier.ofDefinition_fresh {d : Definition α} {c : Specifier α}
    (h : Specifier.ofDefinition d = .ok c) : c.AllFresh := by
  match d with
  | ⟨identifier, ⟨positional, named⟩, offset⟩ =>
      obtain ⟨values, bound, _, hbound, h⟩ := ofDefinition_eq_ok.mp h
      exact (Specifier.ofBound_eq_ok.mp h).allFresh
        (bindNamed_fresh hbound fun _ he => nomatch he)

theorem specifiersOf_fresh {ds : List (Definition α)} {cs : List (Specifier α)}
    (h : specifiersOf ds = .ok cs) : ∀ c ∈ cs, c.AllFresh := by
  match ds with
  | [] =>
      rw [specifiersOf] at h
      cases h
      exact fun _ hc => nomatch hc
  | d :: ds =>
      obtain ⟨first, rest, hfirst, hrest, rfl⟩ := specifiersOf_cons.mp h
      intro c hc
      rcases List.mem_cons.mp hc with rfl | hc
      · exact Specifier.ofDefinition_fresh hfirst
      · exact specifiersOf_fresh hrest c hc

end

/-! ## Arguments of a definition -/

/-- A definition with other named arguments. -/
def Definition.withNamed (d : Definition α) (named : List (NamedArgument α)) :
    Definition α :=
  ⟨d.identifier, ⟨d.arguments.positional, named⟩, d.offset⟩

omit [Scalar α] in
theorem Definition.withNamed_named (d : Definition α) :
    d.withNamed d.arguments.named = d := by
  obtain ⟨identifier, ⟨positional, named⟩, offset⟩ := d
  rfl

/-- What a definition is bound to, argument by argument. -/
theorem ofDefinition_withNamed {d : Definition α}
    {named : List (NamedArgument α)} {c : Specifier α} :
    Specifier.ofDefinition (d.withNamed named) = .ok c ↔
      ∃ positional given, valuesOf d.arguments.positional = .ok positional ∧
        List.Forall₂ NamedArgument.Gives named given ∧
        c.Binds ⟨d.identifier, some d.offset, positional,
          Entries.insertAll [] given⟩ := by
  rw [Definition.withNamed, ofDefinition_eq_ok]
  simp only [bindNamed_eq_ok, Specifier.ofBound_eq_ok]
  constructor
  · rintro ⟨positional, _, hpositional, ⟨given, hgiven, rfl⟩, hbinds⟩
    exact ⟨positional, given, hpositional, hgiven, hbinds⟩
  · rintro ⟨positional, given, hpositional, hgiven, hbinds⟩
    exact ⟨positional, _, hpositional, ⟨given, hgiven, rfl⟩, hbinds⟩

/-- What is added behind the named arguments is what is looked up. -/
theorem get?_added {named : List (NamedArgument α)}
    {given given' : Entries (Value α)} {name : String} {literal : Literal α}
    {v : Value α} (hgiven : List.Forall₂ NamedArgument.Gives named given)
    (hv : Value.ofLiteral literal = .ok v)
    (hadded : List.Forall₂ NamedArgument.Gives
      (named ++ [.assign name literal]) given') :
    (Entries.insertAll [] given').get? name = some v := by
  have hlast : List.Forall₂ NamedArgument.Gives
      (named ++ [.assign name literal]) (given ++ [(name, v)]) :=
    List.rel_append hgiven (.cons (.value hv) .nil)
  have hinsert : Entries.insertAll [] (given ++ [(name, v)]) =
      (Entries.insertAll [] given).insert name v :=
    List.foldl_append
  rw [List.right_unique_forall₂' NamedArgument.Gives.rightUnique hadded hlast,
    hinsert, Entries.get?_insert_self]

/-- A definition that makes a specifier of its kind has no argument that does
nothing. Its named arguments are options of the kind or of every kind, each of
which is looked at, since it cannot be both true and false without a
difference; the only positional argument is the width of a paragraph that does
not name it; and the order of named arguments matters only among those of one
name. At any depth, a paragraph has a width that is not negative, and its
levels take less than the whole of what is left. -/
theorem Specifier.ofDefinition_takes {d : Definition α} {c : Specifier α}
    (h : Specifier.ofDefinition d = .ok c) :
    c.identifier = d.identifier ∧
    (∀ name ∈ d.names, (name ∈ c.kind.options ∨ name ∈ sharedOptions) ∧
      ∃ flag, Specifier.ofDefinition (d.withNamed
        (d.arguments.named ++ [.assign name (.bool flag)])) ≠ .ok c) ∧
    d.arguments.positional.length =
      (if d.identifier ∈ ['p', 'm', 'b'] ∧ "width" ∉ d.names then 1 else 0) ∧
    (∀ named, Reordered d.arguments.named named →
      Specifier.ofDefinition (d.withNamed named) = .ok c) ∧
    ∀ s ∈ c.within, ∀ p, s.kind = .paragraph p →
      (0.0 ≤ p.indentFraction ∧ p.indentFraction < 1.0) ∧
        ¬p.width.value < 0.0 := by
  have hbound := h
  rw [← d.withNamed_named] at hbound
  obtain ⟨positional, given, hpositional, hgiven, hbinds⟩ :=
    ofDefinition_withNamed.mp hbound
  have hnames : ∀ name, name ∈ (Entries.insertAll [] given).keys ↔
      name ∈ d.names := by
    intro name
    rw [Entries.keys_insertAll, names_given hgiven, Definition.names]
    simp [Entries.keys]
  refine ⟨(Kind.ofBound_binds hbinds.kind).identifier_eq,
    fun name hname => ?_, ?_, fun named hnamed => ?_, fun s hs p hp => ?_⟩
  · have hoption := hbinds.named name ((hnames name).mpr hname)
    refine ⟨List.mem_append.mp hoption, ?_⟩
    -- If neither truth value made a difference, the specifier would be bound
    -- from both.
    by_contra hnone
    have hflag : ∀ flag, ∃ b : Bound α,
        b.named.get? name = some (.bool flag) ∧ c.Binds b := by
      intro flag
      have hsame := not_not.mp (not_exists.mp hnone flag)
      obtain ⟨_, given', _, hadded, hb⟩ := ofDefinition_withNamed.mp hsame
      exact ⟨_, get?_added hgiven (by rw [Value.ofLiteral]) hadded, hb⟩
    obtain ⟨b, htrue, hb⟩ := hflag true
    obtain ⟨b', hfalse, hb'⟩ := hflag false
    exact hb.notices hoption htrue hb' hfalse
  · rw [← length_valuesOf hpositional, hbinds.length_positional]
    simp only [hnames]
  · obtain ⟨given', hgiven', hsame⟩ := hnamed.gives hgiven
    have halike : Bound.Alike
        ⟨d.identifier, some d.offset, positional, Entries.insertAll [] given⟩
        ⟨d.identifier, some d.offset, positional, Entries.insertAll [] given'⟩ :=
      ⟨rfl, rfl, rfl, hsame⟩
    exact ofDefinition_withNamed.mpr
      ⟨positional, given', hpositional, hgiven', halike.ofBound hbinds⟩
  · have hfresh := Specifier.ofDefinition_fresh h s hs
    refine ⟨hfresh.range p hp, hfresh.widths p.width ?_⟩
    rw [Specifier.widths, hp]
    exact List.mem_singleton.mpr rfl

/-- A paragraph with a column of numbers below it, of which the format is a
column again. -/
def nestedDefinition (named : List (NamedArgument Float)) : Definition Float :=
  ⟨'m', ⟨[.number 0.3], named ++
    [.assign "multicolumn_definitions" (.column ⟨'S', ⟨[],
        [.assign "table_format" (.column ⟨'p', ⟨[.text "2cm"], []⟩, 9⟩)]⟩, 5⟩),
      .assign "raggedright" (.bool false)]⟩, 0⟩

/-- A flag that is taken back stays in front of what takes it back. -/
theorem Specifier.ofDefinition_takes_nested :
    let named : List (NamedArgument Float) :=
      [.assign "indent_fraction" (.number 0.2), .flag "raggedright"]
    ∃ c, Specifier.ofDefinition (nestedDefinition named) = .ok c ∧
      c.identifier = 'm' ∧ c.within.length = 4 ∧
      Specifier.ofDefinition (nestedDefinition named.reverse) = .ok c ∧
      ∀ s ∈ c.within, ∀ p, s.kind = .paragraph p → ¬p.width.value < 0.0 := by
  intro named
  have hreordered : Reordered (nestedDefinition named).arguments.named
      (nestedDefinition named.reverse).arguments.named :=
    .swap (by decide) _
  have hcheck : ((Specifier.ofDefinition (nestedDefinition named)).toOption.any
      fun c => c.within.length = 4) = true := by
    decide +kernel
  cases hc : Specifier.ofDefinition (nestedDefinition named) with
  | error e =>
      rw [hc] at hcheck
      cases hcheck
  | ok c =>
      rw [hc] at hcheck
      obtain ⟨hidentifier, _, _, horder, hwithin⟩ :=
        Specifier.ofDefinition_takes hc
      exact ⟨c, rfl, hidentifier, of_decide_eq_true hcheck,
        horder _ hreordered, fun s hs p hp => (hwithin s hs p hp).2⟩

end Tabulation.Column
