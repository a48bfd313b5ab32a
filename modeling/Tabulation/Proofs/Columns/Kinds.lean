import Tabulation.Proofs.Columns.Arguments

/-!
# What a column takes of its arguments

Each kind of column looks its options up by name, and what is left over is
refused. Binding therefore depends on the named arguments only through what is
looked up, and a specifier that it makes has used every argument: the named
ones are options of its kind or of every kind, and the only positional one is
the width of a paragraph that does not name it.
-/

namespace Tabulation.Column

variable {α : Type} [Scalar α]

/-! ## What is left over -/

theorem Bound.finish_eq_ok {b : Bound α} {required options : List String} :
    b.finish required options = .ok () ↔
      b.unclaimed required = [] ∧ ∀ key ∈ b.named.keys, key ∈ options := by
  have hfind : (b.named.keys.find? fun key => !options.contains key) = none ↔
      ∀ key ∈ b.named.keys, key ∈ options := by
    simp [List.find?_eq_none]
  rw [← hfind, Bound.finish]
  cases b.unclaimed required with
  | cons value rest => exact ⟨nofun, nofun⟩
  | nil =>
      cases b.named.keys.find? fun key => !options.contains key with
      | none => exact ⟨fun _ => ⟨rfl, rfl⟩, fun _ => rfl⟩
      | some key => exact ⟨nofun, nofun⟩

/-! ## Kinds -/

/-- What a kind of column is bound from. -/
inductive Kind.Binds (b : Bound α) : Kind α → Prop where
  | simple {align : Align} (h : align.identifier = b.identifier) :
      Binds b (.simple align)
  | paragraph {anchor : Anchor} {p : Paragraph α}
      (hp : Paragraph.ofBound anchor b = .ok p)
      (h : anchor.identifier = b.identifier) : Binds b (.paragraph p)
  | numeric {n : Numeric α} (h : 'S' = b.identifier)
      (hn : Numeric.ofBound b = .ok n) : Binds b (.numeric n)
  | autoWidth {t : TextSetting} (h : 'X' = b.identifier)
      (ht : TextSetting.ofBound b = .ok t) : Binds b (.autoWidth t)

theorem Kind.ofBound_binds {b : Bound α} {kind : Kind α}
    (h : Kind.ofBound b = .ok kind) : kind.Binds b := by
  rw [Kind.ofBound.eq_def] at h
  split at h
  · next hid => cases h; exact .simple hid.symm
  · next hid => cases h; exact .simple hid.symm
  · next hid => cases h; exact .simple hid.symm
  · next hid =>
      obtain ⟨p, hp, heq⟩ := Except.map_eq_ok.mp h
      cases heq
      exact .paragraph hp hid.symm
  · next hid =>
      obtain ⟨p, hp, heq⟩ := Except.map_eq_ok.mp h
      cases heq
      exact .paragraph hp hid.symm
  · next hid =>
      obtain ⟨p, hp, heq⟩ := Except.map_eq_ok.mp h
      cases heq
      exact .paragraph hp hid.symm
  · next hid =>
      obtain ⟨n, hn, heq⟩ := Except.map_eq_ok.mp h
      cases heq
      exact .numeric hid.symm hn
  · next hid =>
      obtain ⟨t, ht, heq⟩ := Except.map_eq_ok.mp h
      cases heq
      exact .autoWidth hid.symm ht
  · cases h

/-- The width that an option gives is read from its value and not negative. -/
theorem Width.ofValue_eq_ok {v : Value α} {w : Width α} :
    Width.ofValue v = .ok w ↔ Width.read v = .ok w ∧ ¬w.value < 0.0 := by
  rw [Width.ofValue]
  constructor
  · intro h
    obtain ⟨width, hread, h⟩ := Except.bind_eq_ok.mp h
    split at h
    · cases h
    · next hneg =>
        cases h
        exact ⟨hread, hneg⟩
  · rintro ⟨hread, hneg⟩
    rw [hread]
    exact if_neg hneg

/-- A paragraph as it is bound: of a width that is given, and not split. -/
structure Paragraph.Binds (anchor : Anchor) (b : Bound α) (p : Paragraph α) :
    Prop where
  width : ∃ value, b.required "width" = .ok value ∧
    Width.ofValue value = .ok p.width
  fraction : b.indentFraction = .ok p.indentFraction
  range : 0.0 ≤ p.indentFraction ∧ p.indentFraction < 1.0
  text : TextSetting.ofBound b = .ok p.text
  anchor : p.anchor = anchor
  whole : p.indentWidths = []

theorem Paragraph.ofBound_binds {anchor : Anchor} {b : Bound α}
    {p : Paragraph α} (h : Paragraph.ofBound anchor b = .ok p) :
    p.Binds anchor b := by
  rw [Paragraph.ofBound] at h
  obtain ⟨value, hvalue, h⟩ := Except.bind_eq_ok.mp h
  obtain ⟨width, hwidth, h⟩ := Except.bind_eq_ok.mp h
  obtain ⟨fraction, hfraction, h⟩ := Except.bind_eq_ok.mp h
  simp only [] at h
  split at h
  · next hrange =>
      obtain ⟨text, htext, h⟩ := Except.bind_eq_ok.mp h
      cases h
      exact ⟨⟨value, hvalue, hwidth⟩, hfraction, hrange, htext, rfl, rfl⟩
  · cases h

theorem TextSetting.ofBound_binds {b : Bound α} {t : TextSetting}
    (h : TextSetting.ofBound b = .ok t) :
    b.baselineskip = .ok t.baselineskip ∧
      b.flag "raggedright" .raggedright = .ok t.raggedright := by
  rw [TextSetting.ofBound] at h
  obtain ⟨baselineskip, hskip, h⟩ := Except.bind_eq_ok.mp h
  obtain ⟨raggedright, hflag, h⟩ := Except.bind_eq_ok.mp h
  cases h
  exact ⟨hskip, hflag⟩

/-- A column of numbers as it is bound. -/
structure Numeric.Binds (b : Bound α) (n : Numeric α) : Prop where
  tableFormat : n.tableFormat =
    (b.named.get? "table_format").getD Numeric.default.tableFormat
  addIntegerZero : n.addIntegerZero =
    (b.named.get? "add_integer_zero").getD Numeric.default.addIntegerZero
  tableColumnWidth : b.tableColumnWidth = .ok n.tableColumnWidth
  tableNumberAlignment : n.tableNumberAlignment =
    (b.named.get? "table_number_alignment").getD
      Numeric.default.tableNumberAlignment
  retainExplicitPlus : n.retainExplicitPlus =
    (b.named.get? "retain_explicit_plus").getD
      Numeric.default.retainExplicitPlus
  detectInlineWeight : n.detectInlineWeight =
    (b.named.get? "detect_inline_weight").getD
      Numeric.default.detectInlineWeight

theorem Numeric.ofBound_binds {b : Bound α} {n : Numeric α}
    (h : Numeric.ofBound b = .ok n) : n.Binds b := by
  rw [Numeric.ofBound] at h
  obtain ⟨width, hwidth, h⟩ := Except.bind_eq_ok.mp h
  cases h
  exact ⟨rfl, rfl, hwidth, rfl, rfl, rfl⟩

theorem Numeric.Binds.nonneg {b : Bound α} {n : Numeric α} (h : n.Binds b) :
    ∀ w, n.tableColumnWidth = some w → ¬w.value < 0.0 := by
  intro w hw
  have hwidth := h.tableColumnWidth
  rw [hw, Bound.tableColumnWidth.eq_def] at hwidth
  split at hwidth
  · cases hwidth
  · cases hwidth
  · obtain ⟨w', hvalue, heq⟩ := Except.map_eq_ok.mp hwidth
    cases heq
    exact (Width.ofValue_eq_ok.mp hvalue).2

theorem Kind.Binds.identifier_eq {b : Bound α} {kind : Kind α}
    (h : kind.Binds b) : kind.identifier = b.identifier := by
  cases h with
  | simple h => exact h
  | paragraph hp h =>
      rw [← h, Kind.identifier, (Paragraph.ofBound_binds hp).anchor]
  | numeric h => exact h
  | autoWidth h => exact h

/-! ## Specifiers -/

/-- A specifier as it is bound: all options of it have values, and no argument
is left over. -/
structure Specifier.Binds (b : Bound α) (c : Specifier α) : Prop where
  kind : Kind.ofBound b = .ok c.kind
  override : Override.ofBound (Specifier.ofKind c.kind).override b =
    .ok c.override
  noSpaceAfter : b.flag "no_space_after" .noSpaceAfter = .ok c.noSpaceAfter
  spaceAfter : b.spaceAfter = .ok c.spaceAfter
  positional : b.unclaimed c.kind.requiredOptions = []
  named : ∀ key ∈ b.named.keys, key ∈ c.kind.options ++ sharedOptions
  left : c.noLeftPadding = false
  right : c.noRightPadding = false

omit [Scalar α] in
theorem Specifier.ofKind_eq (kind : Kind α) (override : Override α)
    (noSpaceAfter : Bool) (spaceAfter : Option String) :
    { Specifier.ofKind kind with override, noSpaceAfter, spaceAfter } =
      Specifier.mk kind override noSpaceAfter spaceAfter false false := by
  cases kind <;> rfl

theorem Specifier.ofBound_eq_ok {b : Bound α} {c : Specifier α} :
    Specifier.ofBound b = .ok c ↔ c.Binds b := by
  rw [Specifier.ofBound]
  simp only [Except.bind_eq_ok, Except.pure_eq_ok, Specifier.ofKind_eq]
  constructor
  · rintro ⟨kind, hkind, override, hoverride, noSpaceAfter, hflag, spaceAfter,
      hspace, _, hfinish, rfl⟩
    obtain ⟨hpositional, hnamed⟩ := Bound.finish_eq_ok.mp hfinish
    exact ⟨hkind, hoverride, hflag, hspace, hpositional, hnamed, rfl, rfl⟩
  · intro h
    refine ⟨c.kind, h.kind, c.override, h.override, c.noSpaceAfter,
      h.noSpaceAfter, c.spaceAfter, h.spaceAfter, (),
      Bound.finish_eq_ok.mpr ⟨h.positional, h.named⟩, ?_⟩
    have hleft := h.left
    have hright := h.right
    obtain ⟨kind, override, noSpaceAfter, spaceAfter, left, right⟩ := c
    cases hleft
    cases hright
    rfl

namespace Specifier.Binds

variable {b : Bound α} {c : Specifier α}

/-- The one positional argument that a column may have is the width of a
paragraph. -/
theorem length_positional (h : c.Binds b) :
    b.positional.length =
      if b.identifier ∈ ['p', 'm', 'b'] ∧ "width" ∉ b.named.keys then 1
      else 0 := by
  have hrest := h.positional
  rw [Bound.unclaimed, List.drop_eq_nil_iff] at hrest
  have hnone : c.kind.requiredOptions = [] → b.identifier ∉ ['p', 'm', 'b'] →
      b.positional.length =
        if b.identifier ∈ ['p', 'm', 'b'] ∧ "width" ∉ b.named.keys then 1
        else 0 := by
    intro heq hother
    rw [heq] at hrest
    rw [if_neg fun h => hother h.1]
    exact Nat.le_zero.mp hrest
  generalize hkind : c.kind = kind at hrest hnone
  have hbinds := Kind.ofBound_binds h.kind
  rw [hkind] at hbinds
  cases hbinds with
  | @simple align hid =>
      refine hnone rfl ?_
      rw [← hid]
      cases align <;> decide
  | numeric hid => exact hnone rfl (by rw [← hid]; decide)
  | autoWidth hid => exact hnone rfl (by rw [← hid]; decide)
  | @paragraph anchor p hp hid =>
      have hanchor : b.identifier ∈ ['p', 'm', 'b'] := by
        rw [← hid]
        cases anchor <;> decide
      have hwidth : Kind.requiredOptions (.paragraph p) = ["width"] := rfl
      rw [hwidth] at hrest
      obtain ⟨value, hvalue, _⟩ := (Paragraph.ofBound_binds hp).width
      rw [Bound.required] at hvalue
      cases hnamed : b.named.get? "width" with
      | some v =>
          have hmem := Entries.isSome_get?_iff.mp
            (Option.isSome_of_eq_some hnamed)
          rw [List.countP_cons, hnamed] at hrest
          rw [if_neg fun h => h.2 hmem]
          exact Nat.le_zero.mp hrest
      | none =>
          rw [if_pos ⟨hanchor, Entries.get?_eq_none_iff.mp hnamed⟩]
          rw [List.countP_cons, hnamed] at hrest
          rw [hnamed] at hvalue
          cases hpositional : b.positional with
          | nil => rw [hpositional] at hvalue; cases hvalue
          | cons first rest =>
              rw [hpositional] at hrest
              exact Nat.le_antisymm hrest (Nat.succ_pos _)

end Specifier.Binds

/-! ## No option is passed over -/

/-- A text setting does not come from both truth values of one option. -/
theorem TextSetting.notices {t : TextSetting} {name : String}
    (hname : name ∈ ["baselineskip", "raggedright"]) {b b' : Bound α}
    (h : TextSetting.ofBound b = .ok t)
    (htrue : b.named.get? name = some (.bool true))
    (h' : TextSetting.ofBound b' = .ok t)
    (hfalse : b'.named.get? name = some (.bool false)) : False := by
  obtain ⟨hskip, hflag⟩ := TextSetting.ofBound_binds h
  obtain ⟨_, hflag'⟩ := TextSetting.ofBound_binds h'
  simp only [List.mem_cons, List.not_mem_nil, or_false] at hname
  rcases hname with rfl | rfl
  · rw [Bound.baselineskip, htrue] at hskip
    cases hskip
  · rw [Bound.flag, htrue] at hflag
    rw [Bound.flag, hfalse] at hflag'
    exact nomatch hflag.trans hflag'.symm

theorem Paragraph.Binds.notices {anchor anchor' : Anchor} {p : Paragraph α}
    {name : String} (hname : name ∈ (Kind.paragraph p).options) {b b' : Bound α}
    (h : p.Binds anchor b) (htrue : b.named.get? name = some (.bool true))
    (h' : p.Binds anchor' b')
    (hfalse : b'.named.get? name = some (.bool false)) : False := by
  rw [Kind.options, List.mem_cons, List.mem_cons] at hname
  rcases hname with rfl | rfl | hname
  · obtain ⟨value, hvalue, hwidth⟩ := h.width
    rw [Bound.required, htrue] at hvalue
    cases hvalue
    cases hwidth
  · have hfraction := h.fraction
    rw [Bound.indentFraction, htrue] at hfraction
    cases hfraction
  · exact TextSetting.notices hname h.text htrue h'.text hfalse

theorem Numeric.Binds.notices {n : Numeric α} {name : String}
    (hname : name ∈ (Kind.numeric n).options) {b b' : Bound α}
    (h : n.Binds b) (htrue : b.named.get? name = some (.bool true))
    (h' : n.Binds b') (hfalse : b'.named.get? name = some (.bool false)) :
    False := by
  have hkept : ∀ {field default : Value α},
      field = (b.named.get? name).getD default →
      field = (b'.named.get? name).getD default → False := by
    intro field default hfield hfield'
    rw [htrue] at hfield
    rw [hfalse, hfield] at hfield'
    cases hfield'
  simp only [Kind.options, List.mem_cons, List.not_mem_nil, or_false] at hname
  rcases hname with rfl | rfl | rfl | rfl | rfl | rfl
  · exact hkept h.tableFormat h'.tableFormat
  · exact hkept h.addIntegerZero h'.addIntegerZero
  · exact hkept h.tableNumberAlignment h'.tableNumberAlignment
  · exact hkept h.retainExplicitPlus h'.retainExplicitPlus
  · exact hkept h.detectInlineWeight h'.detectInlineWeight
  · have hwidth := h.tableColumnWidth
    rw [Bound.tableColumnWidth, htrue] at hwidth
    cases hwidth

/-- Every option of a specifier is looked at, so that it matters which truth
value it is given. -/
theorem Specifier.Binds.notices {c : Specifier α} {name : String}
    (hname : name ∈ c.kind.options ++ sharedOptions) {b b' : Bound α}
    (h : c.Binds b) (htrue : b.named.get? name = some (.bool true))
    (h' : c.Binds b') (hfalse : b'.named.get? name = some (.bool false)) :
    False := by
  rcases List.mem_append.mp hname with hname | hname
  · have hkind := Kind.ofBound_binds h.kind
    have hkind' := Kind.ofBound_binds h'.kind
    generalize c.kind = kind at hname hkind hkind'
    cases hkind with
    | simple => cases hname
    | paragraph hp _ =>
        cases hkind' with
        | paragraph hp' _ =>
            exact (Paragraph.ofBound_binds hp).notices hname htrue
              (Paragraph.ofBound_binds hp') hfalse
    | numeric _ hn =>
        cases hkind' with
        | numeric _ hn' =>
            exact (Numeric.ofBound_binds hn).notices hname htrue
              (Numeric.ofBound_binds hn') hfalse
    | autoWidth _ ht =>
        cases hkind' with
        | autoWidth _ ht' =>
            exact TextSetting.notices hname ht htrue ht' hfalse
  · simp only [sharedOptions, List.mem_cons, List.not_mem_nil, or_false]
      at hname
    rcases hname with rfl | rfl | rfl
    · have hoverride := h.override
      rw [Override.ofBound, htrue] at hoverride
      cases hoverride
    · have hflag := h.noSpaceAfter
      have hflag' := h'.noSpaceAfter
      rw [Bound.flag, htrue] at hflag
      rw [Bound.flag, hfalse] at hflag'
      exact nomatch hflag.trans hflag'.symm
    · have hspace := h.spaceAfter
      rw [Bound.spaceAfter, htrue] at hspace
      cases hspace

/-! ## Named arguments in another order -/

/-- Bound arguments of which the same is looked up. -/
structure Bound.Alike (b b' : Bound α) : Prop where
  identifier : b'.identifier = b.identifier
  offset : b'.offset = b.offset
  positional : b'.positional = b.positional
  get? : ∀ key, b'.named.get? key = b.named.get? key

namespace Bound.Alike

variable {b b' : Bound α}

omit [Scalar α] in
theorem fault (h : b.Alike b') (cause : ColumnFault) :
    b'.fault cause = b.fault cause := by
  rw [Bound.fault, Bound.fault, h.identifier, h.offset]

omit [Scalar α] in
theorem flag (h : b.Alike b') (name : String) (complaint : ColumnFault) :
    b'.flag name complaint = b.flag name complaint := by
  rw [Bound.flag, Bound.flag, h.get?, h.fault]

theorem baselineskip (h : b.Alike b') : b'.baselineskip = b.baselineskip := by
  simp only [Bound.baselineskip, h.get?, h.fault]

theorem textSetting (h : b.Alike b') :
    TextSetting.ofBound b' = TextSetting.ofBound b := by
  rw [TextSetting.ofBound, TextSetting.ofBound, h.baselineskip, h.flag]

theorem paragraph (h : b.Alike b') (anchor : Anchor) :
    Paragraph.ofBound anchor b' = Paragraph.ofBound anchor b := by
  simp only [Paragraph.ofBound, Bound.required, Bound.indentFraction, h.get?,
    h.positional, h.identifier, h.fault, h.textSetting]

theorem numeric (h : b.Alike b') : Numeric.ofBound b' = Numeric.ofBound b := by
  simp only [Numeric.ofBound, Bound.tableColumnWidth, h.get?]

theorem kind (h : b.Alike b') : Kind.ofBound b' = Kind.ofBound b := by
  simp only [Kind.ofBound, h.identifier, h.paragraph, h.numeric, h.textSetting,
    h.fault]

theorem override (h : b.Alike b') (default : Override α) :
    Override.ofBound default b' = Override.ofBound default b := by
  simp only [Override.ofBound, h.get?, h.fault]

theorem spaceAfter (h : b.Alike b') : b'.spaceAfter = b.spaceAfter := by
  simp only [Bound.spaceAfter, h.get?, h.fault]

omit [Scalar α] in
theorem unclaimed (h : b.Alike b') (required : List String) :
    b'.unclaimed required = b.unclaimed required := by
  simp only [Bound.unclaimed, h.get?, h.positional]

omit [Scalar α] in
theorem mem_keys (h : b.Alike b') (key : String) :
    key ∈ b'.named.keys ↔ key ∈ b.named.keys := by
  rw [← Entries.isSome_get?_iff, ← Entries.isSome_get?_iff, h.get?]

theorem ofBound (h : b.Alike b') {c : Specifier α} (hc : c.Binds b) :
    c.Binds b' where
  kind := h.kind.trans hc.kind
  override := (h.override _).trans hc.override
  noSpaceAfter := (h.flag _ _).trans hc.noSpaceAfter
  spaceAfter := h.spaceAfter.trans hc.spaceAfter
  positional := (h.unclaimed _).trans hc.positional
  named := fun key hkey => hc.named key ((h.mem_keys key).mp hkey)
  left := hc.left
  right := hc.right

end Bound.Alike

end Tabulation.Column
