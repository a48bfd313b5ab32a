import Tabulation.Proofs.Columns.Definitions
import Tabulation.Proofs.Content.Pieces
import Tabulation.Proofs.Layout.Columns
import Tabulation.Proofs.Layout.Placement
import Tabulation.Proofs.Options.Values

/-!
# Where the specifiers of a table come from

The columns of a table come from its alignment, from its widths or from
nothing, and a cell may bring a specifier in its options. Each of these was
bound by itself, or stands in for one that could not be. So every specifier
that a layout begins with, at any depth, is as binding makes it: nothing has
been split into levels and no padding has been taken away before the rows are
placed.
-/

namespace Tabulation

open Column

variable {α : Type} [Scalar α]

namespace Column

theorem Specifier.AllFresh.self {c : Specifier α} (h : c.AllFresh) : c.Fresh :=
  h c (by rw [c.within_eq]; exact List.mem_cons_self)

theorem Specifier.AllFresh.override {c : Specifier α} (h : c.AllFresh) :
    ∀ s ∈ c.override.within, s.Fresh := by
  intro s hs
  refine h s ?_
  rw [c.within_eq]
  exact List.mem_cons_of_mem c (List.mem_append_right _ hs)

theorem Specifier.plainLeft_allFresh :
    (Specifier.plainLeft : Specifier α).AllFresh := by
  rw [Specifier.AllFresh, within_plainLeft]
  intro s hs
  rw [List.mem_singleton.mp hs]
  exact Specifier.plainLeft_fresh

/-! ## Columns -/

theorem recoverEach_fresh {lenient : Bool} {ds : List (Definition α)}
    {cs : List (Specifier α)} {ws : List Warning}
    (h : recoverEach lenient ds = .ok (cs, ws)) : ∀ c ∈ cs, c.AllFresh := by
  induction ds generalizing cs ws with
  | nil =>
      rw [recoverEach] at h
      cases h
      exact fun _ hc => by cases hc
  | cons d ds ih =>
      rw [recoverEach] at h
      split at h
      · next first hfirst =>
          obtain ⟨⟨rest, more⟩, hrest, h⟩ := Except.bind_eq_ok.mp h
          cases h
          exact List.forall_mem_cons.mpr
            ⟨Specifier.ofDefinition_fresh hfirst, ih hrest⟩
      · split at h
        · obtain ⟨⟨rest, more⟩, hrest, h⟩ := Except.bind_eq_ok.mp h
          cases h
          exact List.forall_mem_cons.mpr
            ⟨Specifier.plainLeft_allFresh, ih hrest⟩
        · cases h

theorem fitTo_fresh {columns : List (Specifier α)}
    (h : ∀ c ∈ columns, c.AllFresh) (count : Nat) :
    ∀ c ∈ fitTo count columns, c.AllFresh := by
  intro c hc
  rcases List.mem_append.mp hc with hc | hc
  · exact h c (List.mem_of_mem_take hc)
  · rw [List.eq_of_mem_replicate hc]
    exact Specifier.plainLeft_allFresh

theorem tableColumns_fresh {alignment : String} {count : Nat} {lenient : Bool}
    {columns : List (Specifier α)} {ws : List Warning}
    (h : tableColumns alignment count lenient = .ok (columns, ws)) :
    ∀ c ∈ columns, c.AllFresh := by
  rw [tableColumns] at h
  split at h
  · cases h
    intro c hc
    rw [List.eq_of_mem_replicate hc]
    exact Specifier.plainLeft_allFresh
  · obtain ⟨⟨definitions, unread⟩, _, h⟩ := Except.bind_eq_ok.mp h
    obtain ⟨⟨found, replaced⟩, hfound, h⟩ := Except.bind_eq_ok.mp h
    have hfitted := fitTo_fresh (recoverEach_fresh hfound) count
    simp only [] at h
    split at h
    · cases h
      exact hfitted
    · split at h
      · cases h
        exact hfitted
      · cases h

end Column

theorem layoutColumns_fresh {attributes : Attributes α} {count : Nat}
    {total : α} {lenient : Bool} {ws : List Warning}
    {columns : List (Specifier α)} {widths : List α}
    (h : layoutColumns attributes count total lenient =
      (ws, .ok (columns, widths))) : ∀ c ∈ columns, c.AllFresh := by
  rw [layoutColumns] at h
  split at h
  · split at h
    · cases h
    · next found _ hfound =>
        obtain ⟨_, h⟩ := Prod.mk.inj h
        obtain ⟨_, _, h⟩ := Except.map_eq_ok.mp h
        cases h
        exact tableColumns_fresh hfound
  · split at h
    · cases h
    · split at h
      · cases h
      · split at h
        · obtain ⟨_, h⟩ := Prod.mk.inj h
          obtain ⟨made, hmade, h⟩ := Except.map_eq_ok.mp h
          cases h
          intro c hc
          obtain ⟨i, hi⟩ := List.getElem?_of_mem hc
          obtain ⟨w, _, hbound⟩ := forall₂_at (mapM_gives hmade).flip hi
          exact (Specifier.ofBound_eq_ok.mp hbound).allFresh
            fun _ he => by cases he
        · split at h
          · cases h
          · next found _ hfound =>
              cases h
              exact tableColumns_fresh hfound

/-! ## Options of a cell -/

namespace Directive

/-- A directive of which the specifier, if there is one, is as binding makes
it. -/
def Fresh (d : Directive α) : Prop := ∀ c, d.specifier = some c → c.AllFresh

theorem schema_fresh : (schema (α := α)).Keeps Value.AllFresh where
  defaults := by
    simp [schema, Value.AllFresh, Value.within]
  tokens := by
    simp [schema, Value.AllFresh, Value.within]
  flag := Value.bool_fresh true

theorem specifierOption_given {current found : Option (Specifier α)}
    {options : Entries (Value α)}
    (h : specifierOption current options = .ok found) :
    found = current ∨ ∃ c, found = some c ∧
      options.get? "column_specifier" = some (.column c) := by
  rw [specifierOption] at h
  split at h
  · cases h
    exact .inl rfl
  · cases h
    exact .inl rfl
  · next c hc =>
      cases h
      exact .inr ⟨c, rfl, hc⟩
  · cases h

theorem withBound_fresh {d : Directive α} {options : Entries (Value α)}
    (hd : d.Fresh) (hoptions : ∀ e ∈ options, e.2.AllFresh) :
    (d.withBound options).1.Fresh := by
  simp only [withBound]
  split
  · exact hd
  · split
    · exact hd
    · split
      · exact hd
      · next found hfound =>
          have hspecifier : ∀ c, found = some c → c.AllFresh := by
            rcases specifierOption_given hfound with rfl | ⟨c, rfl, hc⟩
            · exact hd
            · rintro _ ⟨⟩
              have hvalue :=
                Entries.of_get? (p := Value.AllFresh) hoptions hc
              rwa [Value.AllFresh, Value.within] at hvalue
          split
          · exact hspecifier
          · exact hspecifier

theorem withOptions_fresh {d : Directive α} (hd : d.Fresh) (text : String) :
    (d.withOptions text).1.Fresh := by
  rw [withOptions]
  split
  · exact hd
  · next hoptions =>
      have hfresh := schema_fresh.parse hoptions
        fun _ _ _ _ _ hv => Value.ofLiteral_fresh hv
      exact withBound_fresh hd hfresh

theorem extractFrom_fresh {lenient leading : Bool} {d d' : Directive α}
    {content kept : List Inline} {ws : List Warning} (hd : d.Fresh)
    (h : extractFrom lenient leading d content = .ok (d', kept, ws)) :
    d'.Fresh := by
  induction content generalizing leading d d' kept ws with
  | nil =>
      rw [extractFrom] at h
      cases h
      exact hd
  | cons x rest ih =>
      cases reads α leading x with
      | passed hx =>
          rw [hx] at h
          exact ih hd h
      | indents hx =>
          have hindented : Fresh { d with indent := d.indent + 1 } := hd
          rw [hx] at h
          exact ih hindented h
      | marks underline extra hx =>
          have hmarked : (d.withMarks underline extra).Fresh := hd
          rw [hx] at h
          exact ih hmarked h
      | kept hx =>
          rw [hx] at h
          obtain ⟨⟨e, more, w⟩, hmore, h⟩ := Except.bind_eq_ok.mp h
          cases h
          exact ih hd hmore
      | options text hx =>
          subst hx
          obtain ⟨_, hrest⟩ := extractFrom_pastOptions h
          exact ih (withOptions_fresh hd text) hrest

theorem extract_fresh {lenient : Bool} {d : Directive α}
    {content kept : List Inline} {ws : List Warning}
    (h : extract content lenient = .ok (d, kept, ws)) : d.Fresh := by
  rw [extract] at h
  obtain ⟨⟨_, _, _⟩, hfrom, h⟩ := Except.bind_eq_ok.mp h
  cases h
  have hempty : Fresh ({} : Directive α) := fun _ hc => by cases hc
  exact extractFrom_fresh hempty hfrom

end Directive

/-! ## Tables -/

namespace Compilation

variable {t : Table α} {s : Session α} (c : Compilation t s)

theorem columns_fresh : ∀ column ∈ c.columns, column.AllFresh :=
  layoutColumns_fresh c.resolved

end Compilation

end Tabulation
