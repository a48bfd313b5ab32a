import Mathlib
import Tabulation.Column.Indentation
import Tabulation.Proofs.Layout.Grid
import Tabulation.Proofs.Widths.Exact

/-!
# The widths of the levels of a paragraph

Each level of indentation takes the same part of what the levels before it left
of the width. So the widths of the levels are a geometric progression, the
content gets what is left behind the last of them, and the levels from one on
make up what was left in front of it, however many of them there are. A column
that is set as a group from a level on has that width, in its own unit.
-/

namespace Tabulation.Column

section

variable {α : Type}

namespace Width

theorem withValue_withValue (w : Width α) (x y : α) :
    (w.withValue x).withValue y = w.withValue y := by
  cases w <;> rfl

theorem value_withValue (w : Width α) (x : α) : (w.withValue x).value = x := by
  cases w <;> rfl

theorem withValue_value (w : Width α) : w.withValue w.value = w := by
  cases w <;> rfl

theorem eq_fraction {w : Width α} {x : α} (h : w.fraction? = some x) :
    w = .fraction x := by
  cases w with
  | fraction v =>
      cases h
      rfl
  | length v unit => cases h

end Width

variable [Scalar α] {c d : Specifier α} {p : Paragraph α} {levels : Nat}

namespace Specifier

theorem indent_paragraph (hc : c.kind = .paragraph p) (hlevels : 1 ≤ levels) :
    c.indent levels =
      let widths := levelWidths p.indentFraction levels p.width.value
      (widths.take levels).map (c.level p widths false) ++
        (widths.drop levels).map (c.level p widths true) := by
  rw [indent, if_neg (Nat.one_le_iff_ne_zero.mp hlevels), hc]

/-- The levels share the width of the paragraph, in its unit. -/
theorem map_width?_indent (hc : c.kind = .paragraph p) (hlevels : 1 ≤ levels) :
    (c.indent levels).map width? =
      (levelWidths p.indentFraction levels p.width.value).map fun x =>
        some (p.width.withValue x) := by
  have hlevel : ∀ widths isContent,
      width? ∘ c.level p widths isContent = fun x =>
        some (p.width.withValue x) := fun _ _ => rfl
  rw [indent_paragraph hc hlevels]
  simp only [List.map_append, List.map_map, hlevel]
  rw [← List.map_append, List.take_append_drop]

/-- Every level knows the widths of all of them. -/
theorem level_of_mem_indent (hc : c.kind = .paragraph p) (hlevels : 1 ≤ levels)
    (hd : d ∈ c.indent levels) :
    ∃ isContent x, d = c.level p
      (levelWidths p.indentFraction levels p.width.value) isContent x := by
  rw [indent_paragraph hc hlevels] at hd
  rcases List.mem_append.mp hd with hd | hd
  · obtain ⟨x, _, rfl⟩ := List.mem_map.mp hd
    exact ⟨false, x, rfl⟩
  · obtain ⟨x, _, rfl⟩ := List.mem_map.mp hd
    exact ⟨true, x, rfl⟩

/-- A column that nothing replaces is set as a group of the width of its levels
from the given one on. -/
theorem group_paragraph (ho : c.override = .itself) (hc : c.kind = .paragraph p)
    (level : Nat) :
    ∃ g, c.group level = .ok g ∧ g.width? = some (p.merge level).width := by
  rw [group, ho, hc]
  exact ⟨_, rfl, rfl⟩

theorem group_of_mem_indent (ho : c.override = .itself)
    (hc : c.kind = .paragraph p) (hlevels : 1 ≤ levels)
    (hd : d ∈ c.indent levels) (level : Nat) :
    ∃ g, d.group level = .ok g ∧ g.width? = some (p.width.withValue
      (Scalar.sum ((levelWidths p.indentFraction levels p.width.value).drop
        level))) := by
  obtain ⟨isContent, x, rfl⟩ := level_of_mem_indent hc hlevels hd
  have hsplit : (levelWidths p.indentFraction levels p.width.value).isEmpty =
      false := by
    rw [List.isEmpty_eq_false_iff, ← List.length_pos_iff, length_levelWidths]
    exact Nat.succ_pos levels
  obtain ⟨g, hg, hwidth⟩ := group_paragraph
    (c := c.level p (levelWidths p.indentFraction levels p.width.value)
      isContent x) ho rfl level
  refine ⟨g, hg, ?_⟩
  rw [hwidth, Paragraph.merge, if_neg (by rw [hsplit]; nofun)]
  exact congrArg some (p.width.withValue_withValue _ _)

end Specifier

end

/-! ## Exact widths -/

variable (texts : RationalTexts)

theorem levelWidths_rat (f : ℚ) (levels : Nat) (w : ℚ) :
    @levelWidths ℚ texts.scalar f levels w =
      (List.range levels).map (fun k => w * f * (1 - f) ^ k) ++
        [w * (1 - f) ^ levels] := by
  induction levels generalizing w with
  | zero =>
      show [w] = [w * (1 - f) ^ 0]
      rw [pow_zero, mul_one]
  | succ levels ih =>
      show w * f :: @levelWidths ℚ texts.scalar f levels (w - w * f) = _
      have hnext : ∀ k, (w - w * f) * (1 - f) ^ k = w * (1 - f) ^ (k + 1) := by
        intro k
        ring
      have hstep : ∀ k,
          (w - w * f) * f * (1 - f) ^ k = w * f * (1 - f) ^ (k + 1) := by
        intro k
        ring
      rw [ih, List.range_succ_eq_map, List.map_cons, List.map_map, pow_zero,
        mul_one, hnext]
      simp only [hstep]
      rfl

/-- The levels from one on make up what was left in front of it. -/
theorem sum_drop_levelWidths (f : ℚ) {levels level : Nat} (w : ℚ)
    (h : level ≤ levels) :
    ((@levelWidths ℚ texts.scalar f levels w).drop level).sum =
      w * (1 - f) ^ level := by
  induction levels generalizing level w with
  | zero =>
      rw [Nat.le_zero.mp h]
      show [w].sum = w * (1 - f) ^ 0
      rw [List.sum_singleton, pow_zero, mul_one]
  | succ levels ih =>
      show ((w * f :: @levelWidths ℚ texts.scalar f levels
        (w - w * f)).drop level).sum = _
      cases level with
      | zero =>
          have hrest := ih (w - w * f) (Nat.zero_le levels)
          rw [List.drop_zero] at hrest ⊢
          rw [List.sum_cons, hrest]
          ring
      | succ level =>
          rw [List.drop_succ_cons, ih _ (Nat.le_of_succ_le_succ h)]
          ring

/-- A column that is split or not is set as a group of what is left in front of
the level. -/
theorem Specifier.group_level {c d : Specifier ℚ} {p : Paragraph ℚ}
    (ho : c.override = .itself) (hc : c.kind = .paragraph p)
    {levels level : Nat} (h : 1 ≤ levels ∨ p.indentWidths = [])
    (hd : d ∈ @Specifier.indent ℚ texts.scalar c levels)
    (hlevel : level ≤ levels) :
    ∃ g, @Specifier.group ℚ texts.scalar d level = .ok g ∧
      g.width? = some (p.width.withValue
        (p.width.value * (1 - p.indentFraction) ^ level)) := by
  let := texts.scalar
  by_cases hlevels : 1 ≤ levels
  · obtain ⟨g, hg, hwidth⟩ := group_of_mem_indent ho hc hlevels hd level
    rw [sum_rat, sum_drop_levelWidths texts _ _ hlevel] at hwidth
    exact ⟨g, hg, hwidth⟩
  -- A column that is not split is its own only level.
  · obtain rfl : levels = 0 := by omega
    obtain rfl : level = 0 := by omega
    obtain rfl : d = c := List.mem_singleton.mp hd
    obtain ⟨g, hg, hwidth⟩ := group_paragraph ho hc 0
    refine ⟨g, hg, ?_⟩
    rw [hwidth, Paragraph.merge, h.resolve_left hlevels, pow_zero, mul_one,
      p.width.withValue_value]
    rfl

/-- A paragraph column that is split into levels in exact arithmetic. The
levels are one more than asked for, they have its unit and share its width, and
a group from one of them on is as wide whatever level it is made of. -/
structure Specifier.SplitsExactly (c : Specifier ℚ) (p : Paragraph ℚ)
    (levels : Nat) : Prop where
  length : (@Specifier.indent ℚ texts.scalar c levels).length = levels + 1
  widths : (@Specifier.indent ℚ texts.scalar c levels).map Specifier.width? =
    (List.range levels).map (fun k => some (p.width.withValue
      (p.width.value * p.indentFraction * (1 - p.indentFraction) ^ k))) ++
    [some (p.width.withValue
      (p.width.value * (1 - p.indentFraction) ^ levels))]
  sum : ((@Specifier.indent ℚ texts.scalar c levels).map fun d =>
    (d.width?.map Width.value).getD 0).sum = p.width.value
  groups : c.override = .itself →
    ∀ d ∈ @Specifier.indent ℚ texts.scalar c levels, ∀ level ≤ levels,
      ∃ g, @Specifier.group ℚ texts.scalar d level = .ok g ∧
        g.width? = some (p.width.withValue
          (p.width.value * (1 - p.indentFraction) ^ level))

theorem Specifier.splits {c : Specifier ℚ} {p : Paragraph ℚ} {levels : Nat}
    (hc : c.kind = .paragraph p) (hlevels : 1 ≤ levels) :
    c.SplitsExactly texts p levels := by
  let := texts.scalar
  have hwidths := map_width?_indent hc hlevels
  refine ⟨c.length_indent levels, ?_, ?_, fun ho d hd level hlevel =>
    Specifier.group_level texts ho hc (.inl hlevels) hd hlevel⟩
  · rw [hwidths, levelWidths_rat, List.map_append, List.map_map]
    rfl
  · have htotal := sum_drop_levelWidths texts p.indentFraction p.width.value
      (Nat.zero_le levels)
    have hvalues : (c.indent levels).map
        (fun d => (d.width?.map Width.value).getD 0) =
          levelWidths p.indentFraction levels p.width.value := by
      have hmapped := congrArg
        (List.map fun w? => (w?.map Width.value).getD 0) hwidths
      rw [List.map_map, List.map_map] at hmapped
      refine hmapped.trans ((List.map_congr_left fun x _ => ?_).trans
        (List.map_id _))
      exact p.width.value_withValue x
    rw [List.drop_zero, pow_zero, mul_one] at htotal
    rw [hvalues, htotal]

end Tabulation.Column
