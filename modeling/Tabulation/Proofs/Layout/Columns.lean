import Mathlib.Data.List.Forall2
import Tabulation.Proofs.Outcome
import Tabulation.Table.Layout

/-!
# As many columns as the rows claim

The rows of a table that compiles have one slot for each logical column.
However the columns of the table are given, by an alignment that may be too
short or too long for a lenient reading, by widths alone, or not at all, what
comes out of their resolution is one specifier and one width for each logical
column.
-/

namespace Tabulation

open Column

variable {α : Type}

/-- A row that claims a number of columns and has a slot for each of them, of
which those that spans ask for are covered. -/
structure Row.Fills (row : Row) (count : Nat) : Prop where
  claims : row.spanSum = count
  slots : row.slots.length = count
  covers : Row.covers 0 row.slots = true

theorem checkRows_eq_ok {expected index : Nat} {rows : List Row} :
    Table.checkRows expected index rows = .ok () ↔
      ∀ row ∈ rows, row.Fills expected := by
  induction rows generalizing index with
  | nil => exact ⟨fun _ => nofun, fun _ => rfl⟩
  | cons row rest ih =>
      rw [Table.checkRows, List.forall_mem_cons]
      constructor
      · intro h
        split at h
        · cases h
        · next hclaims =>
            split at h
            · cases h
            · next hslots =>
                rw [not_or, Decidable.not_not, Bool.not_eq_true'] at hslots
                exact ⟨⟨Decidable.not_not.mp hclaims, hslots.1,
                  by simpa using hslots.2⟩, ih.mp h⟩
      · rintro ⟨⟨hclaims, hslots, hcovers⟩, hrest⟩
        rw [if_neg (not_not.mpr hclaims), if_neg (by simp [hslots, hcovers])]
        exact ih.mpr hrest

/-- The rows of a table are accepted if each of them has as many columns as the
first one. -/
theorem validate_eq_ok {t : Table α} {count : Nat} :
    t.validate = .ok count ↔
      (1 ≤ count ∧ count = t.columnCount) ∧
        ∀ row ∈ t.rows, row.Fills count := by
  rw [Table.validate]
  simp only []
  split
  · next hcount =>
      refine ⟨nofun, fun h => ?_⟩
      omega
  · next hcount =>
      have hcount := Nat.one_le_iff_ne_zero.mpr hcount
      constructor
      · intro h
        obtain ⟨⟨⟩, hrows, h⟩ := Except.bind_eq_ok.mp h
        cases h
        exact ⟨⟨hcount, rfl⟩, checkRows_eq_ok.mp hrows⟩
      · rintro ⟨⟨_, rfl⟩, hrows⟩
        exact Except.bind_eq_ok.mpr ⟨(), checkRows_eq_ok.mpr hrows, rfl⟩

theorem validate_rows {t : Table α} {count : Nat}
    (h : t.validate = .ok count) :
    1 ≤ count ∧
      ∀ r ∈ t.rows, r.slots.length = count ∧ Row.covers 0 r.slots = true := by
  obtain ⟨⟨hcount, _⟩, hrows⟩ := validate_eq_ok.mp h
  exact ⟨hcount, fun r hr => ⟨(hrows r hr).slots, (hrows r hr).covers⟩⟩

theorem validate_count {t : Table α} {count : Nat}
    (h : t.validate = .ok count) : count = t.columnCount :=
  (validate_eq_ok.mp h).1.2

variable [Scalar α]

namespace Column

omit [Scalar α] in
theorem length_fitTo (count : Nat) (columns : List (Specifier α)) :
    (fitTo count columns).length = count := by
  rw [fitTo, List.length_append, List.length_take, List.length_replicate]
  omega

theorem tableColumns_length {alignment : String} {count : Nat}
    {lenient : Bool} {columns : List (Specifier α)} {warnings : List Warning}
    (h : tableColumns alignment count lenient = .ok (columns, warnings)) :
    columns.length = count := by
  rw [tableColumns] at h
  split at h
  · cases h
    exact List.length_replicate
  · obtain ⟨⟨definitions, unread⟩, _, h⟩ := Except.bind_eq_ok.mp h
    obtain ⟨⟨found, replaced⟩, _, h⟩ := Except.bind_eq_ok.mp h
    simp only [] at h
    split at h
    · cases h
      exact length_fitTo count found
    · split at h
      · cases h
        exact length_fitTo count found
      · cases h

end Column

theorem length_shareRest (raw : List α) (allocated : α) :
    (shareRest raw allocated).length = raw.length := by
  rw [shareRest]
  simp only []
  split
  · rfl
  · exact List.length_map _

theorem length_normalizeWidths (widths : List α) :
    (normalizeWidths widths).length = widths.length := by
  rw [normalizeWidths]
  split
  · exact List.length_map _
  · rfl

theorem shareWidths_length {raw widths : List α} {total : α}
    {explicit : Bool} (h : shareWidths raw total explicit = .ok widths) :
    widths.length = raw.length := by
  rw [shareWidths] at h
  split at h
  · next hempty =>
      cases h
      rw [List.isEmpty_iff.mp hempty]
  · split at h
    · cases h
    · split at h
      · cases h
      · simp only [] at h
        split at h
        · cases h
        · cases h
          rw [List.length_map, length_normalizeWidths, length_shareRest]

theorem mapM_gives {ε β γ : Type} {f : β → Except ε γ} {xs : List β}
    {ys : List γ} (h : xs.mapM f = .ok ys) :
    List.Forall₂ (fun x y => f x = .ok y) xs ys := by
  induction xs generalizing ys with
  | nil =>
      cases h
      exact .nil
  | cons x xs ih =>
      rw [List.mapM_cons] at h
      obtain ⟨y, hy, h⟩ := Except.bind_eq_ok.mp h
      obtain ⟨rest, hrest, h⟩ := Except.bind_eq_ok.mp h
      cases h
      exact .cons hy (ih hrest)

theorem layoutColumns_length {attributes : Attributes α} {count : Nat}
    {total : α} {lenient : Bool} {warnings : List Warning}
    {columns : List (Specifier α)} {widths : List α}
    (h : layoutColumns attributes count total lenient =
      (warnings, .ok (columns, widths))) :
    columns.length = count ∧ widths.length = count := by
  rw [layoutColumns] at h
  split at h
  · split at h
    · cases h
    · next found ws hfound =>
        have hcols := tableColumns_length hfound
        obtain ⟨_, h⟩ := Prod.mk.inj h
        obtain ⟨shared, hshared, h⟩ := Except.map_eq_ok.mp h
        cases h
        refine ⟨hcols, ?_⟩
        rw [shareWidths_length hshared, List.length_map, hcols]
  · split at h
    · cases h
    · next hcount =>
        have hgiven := Decidable.not_not.mp hcount
        split at h
        · cases h
        · next shared hshared =>
            have hwidths := shareWidths_length hshared
            split at h
            · obtain ⟨_, h⟩ := Prod.mk.inj h
              obtain ⟨made, hmade, h⟩ := Except.map_eq_ok.mp h
              cases h
              exact ⟨by rw [← (mapM_gives hmade).length_eq, hwidths, hgiven],
                by rw [hwidths, hgiven]⟩
            · split at h
              · cases h
              · next found ws hfound =>
                  cases h
                  exact ⟨tableColumns_length hfound, by rw [hwidths, hgiven]⟩

end Tabulation
