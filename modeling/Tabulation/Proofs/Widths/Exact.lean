import Mathlib
import Tabulation.Table.Widths

/-!
# Widths in exact arithmetic

The laws of the width algebra do not hold of floats, whose sums depend on the
order of their terms. They are laws of the same definitions run over the
rationals. There a number is written in messages only, so how numbers are
written and read is left open, and what is proved holds for every way of doing
so.
-/

namespace Tabulation

/-- How rational numbers are written and read. -/
structure RationalTexts where
  read? : String → Option ℚ
  text : ℚ → String
  twoPlaces : ℚ → String

/-- The rational numbers as the numbers that widths are measured in. -/
@[reducible] def RationalTexts.scalar (texts : RationalTexts) : Scalar ℚ where
  decLt := inferInstance
  decLe := inferInstance
  ofInt n := n
  read? := texts.read?
  text := texts.text
  twoPlaces := texts.twoPlaces
  isFinite _ := true

variable (texts : RationalTexts)

theorem sum_rat (xs : List ℚ) : @Scalar.sum ℚ texts.scalar xs = xs.sum := by
  show xs.foldl (· + ·) (-0.0) = xs.sum
  rw [List.sum_eq_foldl]
  norm_num

theorem isWidth_rat (w : ℚ) : @isWidth ℚ texts.scalar w = true ↔ 0 ≤ w := by
  show (true && decide ((0.0 : ℚ) ≤ w)) = true ↔ 0 ≤ w
  norm_num

theorem isTotalWidth_rat (w : ℚ) :
    @isTotalWidth ℚ texts.scalar w = true ↔ 0 < w := by
  show (true && decide ((0.0 : ℚ) < w)) = true ↔ 0 < w
  norm_num

/-- What a column that says nothing gets when the others say how much they
take. -/
def restShare (raw : List ℚ) : ℚ :=
  max (1 - raw.sum) 0 / raw.count 0

/-- Columns that say nothing get their share of the rest, and the others stay
as they are. -/
theorem shareRest_rat (raw : List ℚ) :
    @shareRest ℚ texts.scalar raw raw.sum =
      raw.map fun w => if w = 0 then restShare raw else w := by
  have hzero : (0.0 : ℚ) = 0 := by norm_num
  have hone : (1.0 : ℚ) = 1 := by norm_num
  have hcount : raw.countP (fun w => w == 0) = raw.count 0 := rfl
  show (if raw.countP (fun w => w == (0.0 : ℚ)) = 0 then raw
    else raw.map fun w => if w == (0.0 : ℚ) then
      (if (0.0 : ℚ) < 1.0 - raw.sum then 1.0 - raw.sum else 0.0) /
        ((raw.countP fun w => w == (0.0 : ℚ) : ℤ) : ℚ) else w) = _
  simp only [hzero, hone, hcount]
  split
  · next hnone =>
      refine ((List.map_congr_left fun w hw => ?_).trans (List.map_id _)).symm
      rw [if_neg]
      · rfl
      · rintro rfl
        exact List.count_eq_zero.mp hnone hw
  · refine List.map_congr_left fun w _ => ?_
    rw [restShare, max_comm, max_def_lt]
    simp

/-- Widths are divided by their sum if that is not close to one. -/
theorem normalizeWidths_rat (widths : List ℚ) :
    @normalizeWidths ℚ texts.scalar widths =
      if 1e-9 < |widths.sum - 1| then widths.map (· / widths.sum)
      else widths := by
  have hone : (1.0 : ℚ) = 1 := by norm_num
  have hsum := sum_rat texts widths
  show (if (1e-9 : ℚ) < @Scalar.sum ℚ texts.scalar widths - 1.0 ∨
      (1e-9 : ℚ) < -(@Scalar.sum ℚ texts.scalar widths - 1.0) then
    widths.map (· / @Scalar.sum ℚ texts.scalar widths) else widths) = _
  rw [hsum, hone]
  exact if_congr lt_abs.symm rfl rfl

end Tabulation
