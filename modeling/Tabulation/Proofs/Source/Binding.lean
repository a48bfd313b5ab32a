import Tabulation.Proofs.Columns.Kinds
import Tabulation.Proofs.Source.Writable

/-!
# Binding makes what can be written

The values of arguments can be written, since the numbers among them are those
that have their own text. Binding takes the options of a specifier from these,
so a specifier that a text defines can be written, with every specifier in it.
-/

namespace Tabulation.Column

open Decimal

/-! ## Values of literals -/

theorem numberLiteral_offset {n : String} {start : Nat} {l : Literal Float}
    (h : numberLiteral n start = .ok l) (start' : Nat) :
    numberLiteral n start' = .ok l := by
  rw [numberLiteral] at h ⊢
  split
  · next hpoint =>
      rw [if_pos hpoint] at h
      split at h
      · cases h
      · exact h
  · next hpoint =>
      rw [if_neg hpoint] at h
      split at h
      · cases h
      · exact h

/-- The value of a number is one that has the text it was read from, or that
text. -/
theorem writable_numberLiteral {n : String} {start : Nat} {l : Literal Float}
    {v : Value Float} (hn : IsNumeral n.toList)
    (h : numberLiteral n start = .ok l) (hv : Value.ofLiteral l = .ok v) :
    Writable (.value v) := by
  obtain ⟨hnumeral, -⟩ := numberLiteral_numeral h
  cases l with
  | int k =>
      cases Option.some.inj hnumeral
      rw [Value.ofLiteral] at hv
      cases hv
      exact .int hn (numberLiteral_offset h)
  | number x =>
      cases Option.some.inj hnumeral
      rw [Value.ofLiteral] at hv
      cases hv
      exact .number hn (numberLiteral_offset h)
  | text s =>
      rw [Value.ofLiteral] at hv
      cases hv
      exact .text
  | _ => cases hnumeral

theorem writable_wordLiteral {w : String} {v : Value Float}
    (hv : Value.ofLiteral (wordLiteral w) = .ok v) : Writable (.value v) := by
  rw [wordLiteral] at hv
  split at hv
  · rw [Value.ofLiteral] at hv
    cases hv
    exact .bool
  · split at hv
    · rw [Value.ofLiteral] at hv
      cases hv
      exact .nothing
    · rw [Value.ofLiteral] at hv
      cases hv
      exact .text

/-! ## Options -/

theorem Width.parse_proper {s : String} {w : Width Float}
    (h : Width.parse s = .ok w) : ∀ v unit, w = .length v unit → unit ≠ "" := by
  rw [Width.parse] at h
  obtain ⟨⟨value, unit⟩, _, hw⟩ := Except.bind_eq_ok.mp h
  intro v unit' heq
  cases heq
  simp only [Except.pure_eq_ok] at hw
  split at hw
  · cases hw
  · next hunit =>
      cases hw
      intro hempty
      rw [hempty] at hunit
      exact hunit rfl

theorem Width.read_proper {v : Value Float} {w : Width Float}
    (h : Width.read v = .ok w) : ∀ x unit, w = .length x unit → unit ≠ "" := by
  cases v with
  | number x => cases h; intro _ _ heq; cases heq
  | int n => cases h; intro _ _ heq; cases heq
  | text s => exact Width.parse_proper h
  | _ => cases h

theorem Width.ofValue_proper {v : Value Float} {w : Width Float}
    (h : Width.ofValue v = .ok w) : w.Proper := by
  obtain ⟨hread, hneg⟩ := ofValue_eq_ok.mp h
  exact ⟨hneg, read_proper hread⟩

theorem TextSetting.ofBound_proper {b : Bound Float} {t : TextSetting}
    (h : TextSetting.ofBound b = .ok t) : t.Proper := by
  rw [TextSetting.ofBound] at h
  obtain ⟨baselineskip, hskip, hrest⟩ := Except.bind_eq_ok.mp h
  obtain ⟨raggedright, _, ht⟩ := Except.bind_eq_ok.mp hrest
  cases ht
  intro skip heq
  cases heq
  rw [Bound.baselineskip.eq_def] at hskip
  split at hskip
  · cases hskip
    exact float?_points "10"
  · cases hskip
  · cases hskip
  · next s _ =>
      cases hskip
      split
      · exact float?_points s
      · next hread => exact Option.not_isSome_iff_eq_none.mp hread
  · cases hskip
    exact float?_points _
  · cases hskip
    exact float?_points _
  · cases hskip

theorem Paragraph.ofBound_proper {anchor : Anchor} {b : Bound Float}
    {p : Paragraph Float} (h : Paragraph.ofBound anchor b = .ok p) :
    p.Proper := by
  rw [Paragraph.ofBound] at h
  obtain ⟨value, _, hrest⟩ := Except.bind_eq_ok.mp h
  obtain ⟨width, hwidth, hrest⟩ := Except.bind_eq_ok.mp hrest
  obtain ⟨fraction, _, hrest⟩ := Except.bind_eq_ok.mp hrest
  simp only [] at hrest
  split at hrest
  · next hrange =>
      obtain ⟨text, htext, hp⟩ := Except.bind_eq_ok.mp hrest
      cases hp
      exact ⟨Width.ofValue_proper hwidth, hrange.1, hrange.2,
        TextSetting.ofBound_proper htext, rfl, rfl⟩
  · cases hrest

theorem Bound.tableColumnWidth_proper {b : Bound Float}
    {width : Option (Width Float)} (h : b.tableColumnWidth = .ok width) :
    ∀ w, width = some w → w.Proper := by
  intro w hw
  subst hw
  rw [Bound.tableColumnWidth.eq_def] at h
  split at h
  · cases h
  · cases h
  · obtain ⟨w', hvalue, heq⟩ := Except.map_eq_ok.mp h
    cases heq
    exact Width.ofValue_proper hvalue

theorem Numeric.ofBound_writable {b : Bound Float} {n : Numeric Float}
    (h : Numeric.ofBound b = .ok n)
    (hb : ∀ e ∈ b.named, Writable (.value e.2)) :
    (∀ v ∈ (Kind.numeric n).values, Writable (.value v)) ∧
      (Kind.numeric n).Proper := by
  rw [Numeric.ofBound] at h
  obtain ⟨width, hwidth, hn⟩ := Except.bind_eq_ok.mp h
  cases hn
  refine ⟨?_, Bound.tableColumnWidth_proper hwidth⟩
  have hoption : ∀ (key : String) (default : Value Float),
      Writable (.value default) →
      Writable (.value ((b.named.get? key).getD default)) := by
    intro key default hdefault
    cases hv : b.named.get? key with
    | none => exact hdefault
    | some v => exact Entries.of_get? (p := fun v => Writable (.value v)) hb hv
  intro v hv
  simp only [Kind.values, List.mem_cons, List.not_mem_nil, or_false] at hv
  rcases hv with rfl | rfl | rfl | rfl | rfl
  · exact hoption _ _ .text
  · exact hoption _ _ .nothing
  · exact hoption _ _ .nothing
  · exact hoption _ _ .nothing
  · exact hoption _ _ .text

theorem Kind.ofBound_writable {b : Bound Float} {k : Kind Float}
    (h : Kind.ofBound b = .ok k)
    (hb : ∀ e ∈ b.named, Writable (.value e.2)) :
    (∀ v ∈ k.values, Writable (.value v)) ∧ k.Proper := by
  have hnone : ∀ k : Kind Float, k.values = [] →
      ∀ v ∈ k.values, Writable (.value v) := by
    intro k hk v hv
    rw [hk] at hv
    cases hv
  rw [Kind.ofBound.eq_def] at h
  split at h
  · cases h; exact ⟨hnone _ rfl, trivial⟩
  · cases h; exact ⟨hnone _ rfl, trivial⟩
  · cases h; exact ⟨hnone _ rfl, trivial⟩
  · obtain ⟨p, hp, heq⟩ := Except.map_eq_ok.mp h
    cases heq
    exact ⟨hnone _ rfl, Paragraph.ofBound_proper hp⟩
  · obtain ⟨p, hp, heq⟩ := Except.map_eq_ok.mp h
    cases heq
    exact ⟨hnone _ rfl, Paragraph.ofBound_proper hp⟩
  · obtain ⟨p, hp, heq⟩ := Except.map_eq_ok.mp h
    cases heq
    exact ⟨hnone _ rfl, Paragraph.ofBound_proper hp⟩
  · obtain ⟨n, hn, heq⟩ := Except.map_eq_ok.mp h
    cases heq
    exact Numeric.ofBound_writable hn hb
  · obtain ⟨t, ht, heq⟩ := Except.map_eq_ok.mp h
    cases heq
    exact ⟨hnone _ rfl, TextSetting.ofBound_proper ht⟩
  · cases h

theorem Override.ofBound_writable {default o : Override Float}
    {b : Bound Float} (h : Override.ofBound default b = .ok o)
    (hdefault : Writable (.value default.value))
    (hb : ∀ e ∈ b.named, Writable (.value e.2)) :
    Writable (.value o.value) := by
  rw [Override.ofBound.eq_def] at h
  split at h
  · cases h
    exact hdefault
  · cases h
    exact .nothing
  · next c hc =>
      cases h
      exact Entries.of_get? (p := fun v => Writable (.value v)) hb hc
  · next cs hcs =>
      cases h
      exact Entries.of_get? (p := fun v => Writable (.value v)) hb hcs
  · cases h

theorem writable_plainLeft : Writable (.specifier .plainLeft) :=
  .specifier (by intro v hv; cases hv) trivial .nothing rfl rfl

/-- A specifier bound to values that can be written can be written. -/
theorem Specifier.ofBound_writable {b : Bound Float} {c : Specifier Float}
    (h : Specifier.ofBound b = .ok c)
    (hb : ∀ e ∈ b.named, Writable (.value e.2)) :
    Writable (.specifier c) := by
  rw [Specifier.ofBound] at h
  obtain ⟨kind, hkind, hrest⟩ := Except.bind_eq_ok.mp h
  obtain ⟨override, hoverride, hrest⟩ := Except.bind_eq_ok.mp hrest
  obtain ⟨noSpaceAfter, _, hrest⟩ := Except.bind_eq_ok.mp hrest
  obtain ⟨spaceAfter, _, hrest⟩ := Except.bind_eq_ok.mp hrest
  obtain ⟨_, _, hc⟩ := Except.bind_eq_ok.mp hrest
  cases hc
  obtain ⟨hvalues, hproper⟩ := Kind.ofBound_writable hkind hb
  have hdefault : Writable (.value (Specifier.ofKind kind).override.value) := by
    cases kind with
    | numeric n => exact .column writable_plainLeft
    | _ => exact .nothing
  have hvalue := Override.ofBound_writable hoverride hdefault hb
  cases kind with
  | _ => exact .specifier hvalues hproper hvalue rfl rfl

/-! ## Derivations -/

theorem bindNamed_cons {bound es : Entries (Value Float)}
    {n : NamedArgument Float} {ns : List (NamedArgument Float)} :
    bindNamed bound (n :: ns) = .ok es ↔
      ∃ mid, bindNamed bound [n] = .ok mid ∧ bindNamed mid ns = .ok es := by
  cases n with
  | assign key l =>
      rw [bindNamed, bindNamed, Except.bind_eq_ok]
      simp only [Except.bind_eq_ok]
      constructor
      · intro h
        obtain ⟨v, hv, hes⟩ := h
        exact ⟨_, ⟨v, hv, by rw [bindNamed]⟩, hes⟩
      · intro h
        obtain ⟨mid, ⟨v, hv, hmid⟩, hes⟩ := h
        rw [bindNamed] at hmid
        cases hmid
        exact ⟨v, hv, hes⟩
  | flag name =>
      rw [bindNamed, bindNamed, bindNamed]
      constructor
      · intro h
        exact ⟨_, rfl, h⟩
      · intro h
        obtain ⟨mid, hmid, hes⟩ := h
        cases hmid
        exact hes

/-- Named arguments that add entries which can be written. -/
def Binds (ns : List (NamedArgument Float)) : Prop :=
  ∀ bound es, (∀ e ∈ bound, Writable (.value e.2)) →
    bindNamed bound ns = .ok es → ∀ e ∈ es, Writable (.value e.2)

theorem binds_nil : Binds [] := by
  intro bound es hbound h
  rw [bindNamed] at h
  cases h
  exact hbound

theorem Binds.cons {n : NamedArgument Float} {ns : List (NamedArgument Float)}
    (hn : Binds [n]) (hns : Binds ns) : Binds (n :: ns) := by
  intro bound es hbound h
  obtain ⟨mid, hmid, hes⟩ := bindNamed_cons.mp h
  exact hns mid es (hn bound mid hbound hmid) hes

theorem binds_assign {key : String} {l : Literal Float}
    (hl : ∀ v, Value.ofLiteral l = .ok v → Writable (.value v)) :
    Binds [.assign key l] := by
  intro bound es hbound h e he
  rw [bindNamed] at h
  obtain ⟨v, hv, hes⟩ := Except.bind_eq_ok.mp h
  rw [bindNamed] at hes
  cases hes
  rcases Entries.mem_insert he with heq | he
  · rw [heq]
    exact hl v hv
  · exact hbound e he

theorem binds_flag {name : String} : Binds [.flag name] := by
  intro bound es hbound h e he
  rw [bindNamed, bindNamed] at h
  cases h
  rcases Entries.mem_insert he with heq | he
  · rw [heq]
    exact .bool
  · exact hbound e he

/-- A phrase of which everything that binding makes can be written. -/
def Phrase.Writes : Phrase Float → Prop
  | .definitions ds =>
      ds ≠ [] ∧ ∀ cs, specifiersOf ds = .ok cs → Writable (.specifiers cs)
  | .definition d =>
      ∀ c, Specifier.ofDefinition d = .ok c → Writable (.specifier c)
  | .arguments _ as => Binds as.named
  | .named n => Binds [n]
  | .positional l => ∀ v, Value.ofLiteral l = .ok v → Writable (.value v)
  | .value l => ∀ v, Value.ofLiteral l = .ok v → Writable (.value v)
  | .operand l => ∀ v, Value.ofLiteral l = .ok v → Writable (.value v)

theorem writable_definition {c : Char} {as : Arguments Float} {start : Nat}
    (has : Binds as.named) : (Phrase.definition ⟨c, as, start⟩).Writes := by
  intro specifier h
  obtain ⟨positional, named, _, hnamed, hspecifier⟩ := ofDefinition_eq_ok.mp h
  exact Specifier.ofBound_writable hspecifier
    (has [] named (by intro e he; cases he) hnamed)

/-- What binding makes of a derived tree can be written. -/
theorem Derives.writes {p : Phrase Float} {ts : List Token} (h : Derives p ts)
    (hn : Numerals ts) : p.Writes := by
  induction h with
  | lastDefinition _ ih =>
      refine ⟨List.cons_ne_nil _ _, ?_⟩
      intro cs hcs
      obtain ⟨c, rest, hc, hrest, rfl⟩ := specifiersOf_cons.mp hcs
      rw [specifiersOf] at hrest
      cases hrest
      exact .cons (ih hn c hc) .nil
  | moreDefinitions _ _ ihd ihds =>
      refine ⟨List.cons_ne_nil _ _, ?_⟩
      intro cs hcs
      obtain ⟨c, rest, hc, hrest, rfl⟩ := specifiersOf_cons.mp hcs
      exact .cons (ihd hn.left c hc) ((ihds hn.right.tail).2 rest hrest)
  | bare _ => exact writable_definition binds_nil
  | empty _ => exact writable_definition binds_nil
  | withArguments _ _ ih => exact writable_definition (ih hn.tail.tail.left)
  | lastPositional => exact binds_nil
  | morePositional _ _ _ ih => exact ih hn.right.tail
  | lastNamed _ ih => exact ih hn
  | moreNamed _ _ ihn ihas => exact (ihn hn.left).cons (ihas hn.right.tail)
  | assign _ ih => exact binds_assign (ih hn.tail.tail)
  | flag _ _ => exact binds_flag
  | truth _ =>
      intro v hv
      rw [Value.ofLiteral] at hv
      cases hv
      exact .bool
  | positional _ ih => exact ih hn
  | word _ =>
      intro v hv
      exact writable_wordLiteral hv
  | value _ ih => exact ih hn
  | column _ ih =>
      intro v hv
      rw [Value.ofLiteral] at hv
      obtain ⟨c, hc, heq⟩ := Except.bind_eq_ok.mp hv
      cases heq
      exact .column (ih hn c hc)
  | columns _ ih =>
      intro v hv
      rw [Value.ofLiteral] at hv
      obtain ⟨cs, hcs, heq⟩ := Except.bind_eq_ok.mp hv
      cases heq
      obtain ⟨hne, hwritable⟩ := ih hn.tail.left
      refine .columns ?_ (hwritable cs hcs)
      intro hnil
      subst hnil
      rename_i ds _ _ _ _
      cases ds with
      | nil => exact hne rfl
      | cons d ds =>
          obtain ⟨c, rest, _, _, heq⟩ := specifiersOf_cons.mp hcs
          cases heq
  | number hl =>
      intro v hv
      exact writable_numberLiteral (hn _ _ List.mem_cons_self) hl hv
  | length =>
      intro v hv
      rw [Value.ofLiteral] at hv
      cases hv
      exact .text
  | quoted =>
      intro v hv
      rw [Value.ofLiteral] at hv
      cases hv
      exact .text

end Tabulation.Column
