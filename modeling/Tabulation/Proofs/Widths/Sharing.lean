import Mathlib
import Tabulation.Proofs.Widths.Exact

/-!
# The width of a table is shared out

Every sharing of widths comes to one factor: columns that say nothing are given
equal widths, and then all widths are multiplied by the same number. So columns
that say what they take keep their ratios whatever is done to reach the width
of the table. The factor is there because the sum that it divides by is never
zero: if some column says nothing the sum is one or more, and if all columns say
something it is a sum of positive numbers.
-/

namespace Tabulation

/-- What a column comes to before the sum is looked at. -/
def filledWidth (raw : List ℚ) (w : ℚ) : ℚ :=
  if w = 0 then restShare raw else w

theorem restShare_nonneg (raw : List ℚ) : 0 ≤ restShare raw :=
  div_nonneg (le_max_right _ _) (Nat.cast_nonneg _)

theorem filledWidth_nonneg {raw : List ℚ} {w : ℚ} (h : 0 ≤ w) :
    0 ≤ filledWidth raw w := by
  rw [filledWidth]
  split
  · exact restShare_nonneg raw
  · exact h

theorem sum_filled (widths : List ℚ) (share : ℚ) :
    (widths.map fun w => if w = 0 then share else w).sum =
      widths.sum + widths.count 0 * share := by
  induction widths with
  | nil => simp
  | cons w ws ih =>
      rw [List.map_cons, List.sum_cons, ih, List.sum_cons, List.count_cons]
      by_cases h : w = 0
      · simp only [h, if_true, beq_self_eq_true, Nat.cast_add, Nat.cast_one]
        ring
      · simp only [h, if_false, beq_iff_eq, Nat.add_zero]
        ring

/-- Columns that say nothing bring the sum up to one. -/
theorem sum_filledWidth {raw : List ℚ} (h : 0 ∈ raw) :
    (raw.map (filledWidth raw)).sum = max 1 raw.sum := by
  have hcount : (raw.count 0 : ℚ) ≠ 0 :=
    Nat.cast_ne_zero.mpr (List.count_pos_iff.mpr h).ne'
  have hsum : (raw.map (filledWidth raw)).sum = _ :=
    sum_filled raw (restShare raw)
  rw [hsum, restShare, mul_div_cancel₀ _ hcount, ← max_add_add_left]
  simp

/-- There is something to divide by. -/
theorem sum_filledWidth_pos {raw : List ℚ} (hraw : raw ≠ [])
    (hwidths : ∀ w ∈ raw, 0 ≤ w) : 0 < (raw.map (filledWidth raw)).sum := by
  by_cases h : 0 ∈ raw
  · rw [sum_filledWidth h]
    exact lt_max_of_lt_left one_pos
  · refine List.sum_pos _ (fun filled hfilled => ?_) (by simpa using hraw)
    obtain ⟨w, hw, rfl⟩ := List.mem_map.mp hfilled
    have hne : w ≠ 0 := fun heq => h (heq ▸ hw)
    rw [filledWidth, if_neg hne]
    exact lt_of_le_of_ne (hwidths w hw) hne.symm

/-- What widths are refused for. -/
def Unshareable (raw : List ℚ) (total : ℚ) (explicit : Bool) : Prop :=
  (∃ w ∈ raw, w < 0) ∨ total ≤ 0 ∨ (explicit = true ∧ 1 + 1e-9 < raw.sum)

theorem acceptable {raw : List ℚ} {total : ℚ} {explicit : Bool}
    (h : ¬ Unshareable raw total explicit) :
    (∀ w ∈ raw, 0 ≤ w) ∧ 0 < total := by
  rw [Unshareable, not_or, not_or, not_exists] at h
  exact ⟨fun w hw => not_lt.mp fun hneg => h.1 w ⟨hw, hneg⟩, not_le.mp h.2.1⟩

/-- Widths that the columns of a table get out of its width, each next to what
the column said: they make up the width of the table, columns that said how
much they take keep their ratios, and those that said nothing get the same. -/
structure SharedOut (raw : List ℚ) (total : ℚ) (widths : List ℚ) : Prop where
  length : widths.length = raw.length
  nonneg : ∀ w ∈ widths, 0 ≤ w
  total : |widths.sum - total| ≤ 1e-9 * total
  ratios : ∀ c ∈ raw.zip widths, ∀ d ∈ raw.zip widths,
    0 < c.1 → 0 < d.1 → c.2 / d.2 = c.1 / d.1
  rest : ∀ c ∈ raw.zip widths, ∀ d ∈ raw.zip widths,
    c.1 = 0 → d.1 = 0 → c.2 = d.2

/-- One factor for all columns shares the width out if it meets the total. -/
theorem SharedOut.of_factor {raw : List ℚ} {total factor : ℚ}
    (hwidths : ∀ w ∈ raw, 0 ≤ w) (hfactor : 0 < factor)
    (htotal : |(raw.map (filledWidth raw)).sum * factor - total| ≤
      1e-9 * total) :
    SharedOut raw total (raw.map fun w => filledWidth raw w * factor) := by
  have hcolumn : ∀ c ∈ raw.zip (raw.map fun w => filledWidth raw w * factor),
      c.2 = filledWidth raw c.1 * factor := by
    intro c hc
    rw [← List.map_prod_left_eq_zip] at hc
    obtain ⟨w, _, rfl⟩ := List.mem_map.mp hc
    rfl
  have hgiven : ∀ {w : ℚ}, 0 < w → filledWidth raw w = w :=
    fun hw => if_neg hw.ne'
  refine ⟨List.length_map _, fun v hv => ?_, ?_, ?_, ?_⟩
  · obtain ⟨w, hw, rfl⟩ := List.mem_map.mp hv
    exact mul_nonneg (filledWidth_nonneg (hwidths w hw)) hfactor.le
  · rw [List.sum_map_mul_right]
    exact htotal
  · intro c hc d hd hcpos hdpos
    rw [hcolumn c hc, hcolumn d hd, hgiven hcpos, hgiven hdpos]
    exact mul_div_mul_right _ _ hfactor.ne'
  · intro c hc d hd hczero hdzero
    rw [hcolumn c hc, hcolumn d hd, hczero, hdzero]

variable (texts : RationalTexts)

/-- Bringing the sum to one and the widths to their total is one factor. -/
theorem normalizeWidths_factor {raw : List ℚ} {total : ℚ} (hraw : raw ≠ [])
    (hwidths : ∀ w ∈ raw, 0 ≤ w) (htotal : 0 < total) :
    ∃ factor, 0 < factor ∧
      |(raw.map (filledWidth raw)).sum * factor - total| ≤ 1e-9 * total ∧
      (@normalizeWidths ℚ texts.scalar (raw.map (filledWidth raw))).map
        (· * total) = raw.map fun w => filledWidth raw w * factor := by
  have hsum := sum_filledWidth_pos hraw hwidths
  rw [normalizeWidths_rat]
  split
  · refine ⟨total / (raw.map (filledWidth raw)).sum, div_pos htotal hsum, ?_, ?_⟩
    · rw [mul_div_cancel₀ _ hsum.ne', sub_self, abs_zero]
      positivity
    · rw [List.map_map, List.map_map]
      refine List.map_congr_left fun w _ => ?_
      show filledWidth raw w / (raw.map (filledWidth raw)).sum * total = _
      ring
  · next hclose =>
      refine ⟨total, htotal, ?_, ?_⟩
      · rw [← sub_one_mul, abs_mul, abs_of_pos htotal]
        exact mul_le_mul_of_nonneg_right (not_lt.mp hclose) htotal.le
      · rw [List.map_map]
        rfl

theorem find?_negative (raw : List ℚ) :
    raw.find? (!@isWidth ℚ texts.scalar ·) = none ↔ ∀ w ∈ raw, 0 ≤ w := by
  simp only [List.find?_eq_none, Bool.not_eq_true', Bool.not_eq_false,
    isWidth_rat]

/-- Widths are refused for what they may be refused for, or else brought to
their total. -/
theorem shareWidths_cases {raw : List ℚ} (hraw : raw ≠ []) (total : ℚ)
    (explicit : Bool) :
    (Unshareable raw total explicit ∧
      ∃ e, @shareWidths ℚ texts.scalar raw total explicit = .error e) ∨
    ¬ Unshareable raw total explicit ∧
      @shareWidths ℚ texts.scalar raw total explicit =
        .ok ((@normalizeWidths ℚ texts.scalar
          (raw.map (filledWidth raw))).map (· * total)) := by
  have hone : (1.0 : ℚ) = 1 := by norm_num
  have hrest : @shareRest ℚ texts.scalar raw raw.sum =
    raw.map (filledWidth raw) := shareRest_rat texts raw
  unfold shareWidths
  rw [if_neg (by simpa using hraw)]
  split
  · next w hfind =>
      refine .inl ⟨.inl ⟨w, List.mem_of_find?_eq_some hfind, ?_⟩, _, rfl⟩
      have hwidth := List.find?_some hfind
      rw [Bool.not_eq_true', ← Bool.not_eq_true, isWidth_rat] at hwidth
      exact not_le.mp hwidth
  · next hfind =>
      have hwidths := (find?_negative texts raw).mp hfind
      split
      · next htotal =>
          refine .inl ⟨.inr (.inl ?_), _, rfl⟩
          rw [Bool.not_eq_true', ← Bool.not_eq_true, isTotalWidth_rat] at htotal
          exact not_lt.mp htotal
      · next htotal =>
          rw [Bool.not_eq_true', Bool.not_eq_false, isTotalWidth_rat] at htotal
          simp only [sum_rat, hrest]
          show (_ ∧ ∃ e, (if explicit = true ∧ (1.0 : ℚ) + 1e-9 < raw.sum then
            _ else _) = _) ∨ _ ∧ (if explicit = true ∧
              (1.0 : ℚ) + 1e-9 < raw.sum then _ else _) = _
          rw [hone]
          split
          · next hexcess => exact .inl ⟨.inr (.inr hexcess), _, rfl⟩
          · next hexcess =>
              refine .inr ⟨?_, rfl⟩
              rintro (⟨w, hw, hneg⟩ | hzero | hover)
              · exact absurd (hwidths w hw) (not_le.mpr hneg)
              · exact absurd htotal (not_lt.mpr hzero)
              · exact hexcess hover

/-- Sharing the width of a table fails exactly for a width below zero, a total
that is not above zero, or widths given for the table as a whole that make more
than one; and otherwise it shares the width out, and the numbers it divides by
are not zero. -/
theorem shareWidths_conserves {raw : List ℚ} (hraw : raw ≠ []) (total : ℚ)
    (explicit : Bool) :
    ((∃ e, @shareWidths ℚ texts.scalar raw total explicit = .error e) ↔
      Unshareable raw total explicit) ∧
    (¬ Unshareable raw total explicit →
      ∃ widths, @shareWidths ℚ texts.scalar raw total explicit = .ok widths ∧
        SharedOut raw total widths) ∧
    (¬ Unshareable raw total explicit →
      (0 ∈ raw → 0 < raw.count 0) ∧
        0 < (@shareRest ℚ texts.scalar raw
          (@Scalar.sum ℚ texts.scalar raw)).sum) := by
  rcases shareWidths_cases texts hraw total explicit with
    ⟨hrefused, e, he⟩ | ⟨hshared, hok⟩
  · exact ⟨⟨fun _ => hrefused, fun _ => ⟨e, he⟩⟩,
      fun h => absurd hrefused h, fun h => absurd hrefused h⟩
  · obtain ⟨hwidths, htotal⟩ := acceptable hshared
    have hsum := sum_filledWidth_pos hraw hwidths
    obtain ⟨factor, hfactor, hclose, heq⟩ :=
      normalizeWidths_factor texts hraw hwidths htotal
    refine ⟨⟨fun h => ?_, fun h => absurd h hshared⟩, fun _ => ?_, fun _ => ?_⟩
    · obtain ⟨e, he⟩ := h
      rw [hok] at he
      cases he
    · rw [hok, heq]
      exact ⟨_, rfl, .of_factor hwidths hfactor hclose⟩
    · rw [sum_rat, shareRest_rat]
      exact ⟨List.count_pos_iff.mpr, hsum⟩

/-- Rational numbers written as quotients and read as whole numbers. -/
def quotientTexts : RationalTexts where
  read? s := (Decimal.int64? s).map fun n => (n : ℚ)
  text q := toString q.num ++ "/" ++ toString q.den
  twoPlaces q := toString q.num ++ "/" ++ toString q.den

/-- Two columns that together want more than there is leave a third one
nothing. -/
theorem shareWidths_crowded :
    [3 / 5, 3 / 5, 0] ≠ ([] : List ℚ) ∧
      ¬ Unshareable [3 / 5, 3 / 5, 0] (4 / 5) false ∧
      @shareWidths ℚ quotientTexts.scalar [3 / 5, 3 / 5, 0] (4 / 5) false =
        .ok [2 / 5, 2 / 5, 0] ∧
      SharedOut [3 / 5, 3 / 5, 0] (4 / 5) [2 / 5, 2 / 5, 0] := by
  have hraw : [3 / 5, 3 / 5, 0] ≠ ([] : List ℚ) := List.cons_ne_nil _ _
  have hshared : ¬ Unshareable [3 / 5, 3 / 5, 0] (4 / 5) false := by
    norm_num [Unshareable]
  have hok : @shareWidths ℚ quotientTexts.scalar [3 / 5, 3 / 5, 0] (4 / 5)
      false = .ok [2 / 5, 2 / 5, 0] := by
    decide +kernel
  obtain ⟨widths, heq, hwidths⟩ :=
    (shareWidths_conserves quotientTexts hraw (4 / 5) false).2.1 hshared
  rw [hok] at heq
  cases heq
  exact ⟨hraw, hshared, hok, hwidths⟩

end Tabulation
