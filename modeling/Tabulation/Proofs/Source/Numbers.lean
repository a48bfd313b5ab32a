import Tabulation.Proofs.Source.Floats

/-!
# The texts of numbers

A finite float is written as a numeral, with a point if it has to be told from
a whole number. A point with a zero behind it does not change what a numeral
is read as, and a text that ends in a unit is never read as a number.
-/

namespace Tabulation.Column

open Decimal

theorem padded_isDigits (width n : Nat) :
    isDigits (padded width n).toList = true := by
  rw [padded, isDigits_iff, String.toList_ofList]
  refine ⟨List.append_ne_nil_of_right_ne_nil _ Nat.toDigits_ne_nil, ?_⟩
  rw [List.all_eq_true]
  intro c hc
  rcases List.mem_append.mp hc with hc | hc
  · rw [List.eq_of_mem_replicate hc]
    rfl
  · exact Nat.isDigit_of_mem_toDigits (by decide) (by decide) hc

theorem positional_isNumeral {sign : List Char}
    (hsign : sign ∈ [[], ['-'], ['+']]) (digits places : Nat) :
    IsNumeral (sign ++ (positional digits places).toList) := by
  rw [positional]
  split
  · exact .whole hsign (padded_isDigits _ _)
  · rw [String.toList_append, String.toList_append, List.append_assoc]
    have hwhole := isDigits_iff.mp (padded_isDigits 1 (digits / tenTo places))
    have hplaces := isDigits_iff.mp
      (padded_isDigits places (digits % tenTo places))
    refine .pointed hsign hwhole.2 hplaces.2 (isDigits_iff.mpr ⟨?_, ?_⟩)
    · exact List.append_ne_nil_of_left_ne_nil hwhole.1 _
    · rw [List.all_append, hwhole.2]
      show (true && (padded places _).toList.all Char.isDigit) = true
      rw [hplaces.2]
      rfl

/-- The sign in front of the text of a float. -/
theorem sign_mem (x : Float) :
    (if isNegative x then "-" else "").toList ∈ [[], ['-'], ['+']] := by
  split
  · exact List.mem_cons_of_mem _ List.mem_cons_self
  · exact List.mem_cons_self

theorem shortestText_isNumeral {x : Float} (h : x.isFinite = true) :
    IsNumeral (shortestText x).toList := by
  obtain ⟨hnan, hinf⟩ := isNaN_of_isFinite h
  rw [shortestText]
  simp only [hnan, hinf, Bool.false_eq_true, if_false]
  split
  · rw [String.toList_append]
    exact .whole (sign_mem x) rfl
  · rw [String.toList_append]
    exact positional_isNumeral (sign_mem x) _ _

theorem shortestText_of_not_isFinite {x : Float} (h : ¬x.isFinite = true) :
    shortestText x ∈ ["NaN", "inf", "-inf"] := by
  rw [shortestText]
  split
  · decide
  · next hnan =>
      have hinf := (isNaN_or_isInf h).resolve_left hnan
      simp only [hinf, if_true]
      split <;> decide

theorem IsNumeral.pointZero {cs : List Char} (h : IsNumeral cs)
    (hpoint : '.' ∉ cs) : IsNumeral (cs ++ ['.', '0']) := by
  cases h with
  | @whole sign whole hsign hwhole =>
      rw [List.append_assoc]
      refine .pointed hsign (isDigits_iff.mp hwhole).2 rfl
        (isDigits_iff.mpr ⟨?_, ?_⟩)
      · exact List.append_ne_nil_of_right_ne_nil _ (List.cons_ne_nil _ _)
      · rw [List.all_append, (isDigits_iff.mp hwhole).2]
        rfl
  | pointed => simp at hpoint

/-- The text of a finite number with a point is a numeral that has one. -/
theorem pointedText_isNumeral {x : Float} (h : x.isFinite = true) :
    IsNumeral (Scalar.pointedText x).toList ∧
      '.' ∈ (Scalar.pointedText x).toList := by
  have htext : IsNumeral (Scalar.text x).toList := shortestText_isNumeral h
  have hfinite : Scalar.isFinite x = true := h
  rw [Scalar.pointedText]
  simp only [hfinite, Bool.not_true, Bool.or_false]
  split
  · next hpoint => exact ⟨htext, List.contains_iff_mem.mp hpoint⟩
  · next hpoint =>
      rw [String.toList_append]
      refine ⟨htext.pointZero (mt List.contains_iff_mem.mpr hpoint), ?_⟩
      exact List.mem_append_right _ List.mem_cons_self

/-- No character of a numeral stands in a name. -/
theorem IsNumeral.toLower_ne {cs : List Char} (h : IsNumeral cs) {c : Char}
    (hc : c ∈ cs) : c.toLower ≠ 'n' := by
  have hdigit : ∀ d : Char, d.isDigit = true → d.toLower ≠ 'n' := by
    intro d hd
    have hle : d.val ≤ '9'.val := by
      rw [Char.isDigit, Bool.and_eq_true] at hd
      exact of_decide_eq_true hd.2
    have hupper : ¬(d.val ≥ 'A'.val ∧ d.val ≤ 'Z'.val) := by
      intro hd'
      exact absurd (UInt32.le_trans hd'.1 hle) (by decide)
    have hlower : d.toLower = d := dif_neg hupper
    rw [hlower]
    intro hn
    rw [hn] at hd
    cases hd
  have hsign : ∀ sign ∈ [[], ['-'], ['+']], ∀ d ∈ sign, d.toLower ≠ 'n' := by
    intro sign hs d hd
    simp only [List.mem_cons, List.not_mem_nil, or_false] at hs
    rcases hs with rfl | rfl | rfl
    · cases hd
    · cases List.mem_singleton.mp hd
      decide
    · cases List.mem_singleton.mp hd
      decide
  cases h with
  | whole hs hwhole =>
      rcases List.mem_append.mp hc with hc | hc
      · exact hsign _ hs c hc
      · exact hdigit c (List.all_eq_true.mp (isDigits_iff.mp hwhole).2 c hc)
  | pointed hs hwhole hplaces =>
      rcases List.mem_append.mp hc with hc | hc
      · exact hsign _ hs c hc
      · rcases List.mem_append.mp hc with hc | hc
        · exact hdigit c (List.all_eq_true.mp hwhole c hc)
        · rcases List.mem_cons.mp hc with rfl | hc
          · decide
          · exact hdigit c (List.all_eq_true.mp hplaces c hc)

theorem mem_of_mem_splitSign {cs : List Char} {c : Char}
    (h : c ∈ (splitSign cs).2) : c ∈ cs := by
  rw [splitSign.eq_def] at h
  split at h
  · exact List.mem_cons_of_mem _ h
  · exact List.mem_cons_of_mem _ h
  · exact h

/-- A numeral is no name for infinity or for what is no number. -/
theorem IsNumeral.float?_eq {n : String} (h : IsNumeral n.toList) :
    float? n = (numeral? n.toList).map Numeral.toFloat := by
  have hname : 'n' ∉ (splitSign n.toList).2.map Char.toLower := by
    intro hn
    obtain ⟨c, hc, hcn⟩ := List.mem_map.mp hn
    exact h.toLower_ne (mem_of_mem_splitSign hc) hcn
  rw [float?]
  simp only []
  rw [if_neg, if_neg]
  · intro heq
    rw [heq] at hname
    exact hname (by decide)
  · intro heq
    rcases heq with heq | heq
    · rw [heq] at hname
      exact hname (by decide)
    · rw [heq] at hname
      exact hname (by decide)

/-- A zero behind the point is dropped. -/
theorem toFloat_pointZero (negative : Bool) (digits : Nat) :
    Numeral.toFloat ⟨negative, 10 * digits, -1⟩ =
      Numeral.toFloat ⟨negative, digits, 0⟩ := by
  by_cases hzero : digits = 0
  · subst hzero
    rfl
  · have hsize : ((Nat.toDigits 10 (10 * digits)).length : Int) + -1 =
        (Nat.toDigits 10 digits).length + 0 := by
      have happend := Nat.toDigits_append_toDigits (b := 10) (n := digits)
        (d := 0) (by decide) (Nat.pos_of_ne_zero hzero) (by decide)
      rw [Nat.add_zero] at happend
      rw [← happend, List.length_append, Nat.toDigits_zero]
      show (((Nat.toDigits 10 digits).length + 1 : Nat) : Int) + -1 = _
      omega
    have hdrop : dropZeros (10 * digits) (- -1 : Int).toNat = (digits, 0) := by
      show dropZeros (10 * digits) 1 = _
      rw [dropZeros, if_pos (by omega), dropZeros]
      rw [Nat.mul_div_cancel_left digits (by decide)]
    have hne : ¬10 * digits = 0 := by omega
    rw [Numeral.toFloat, Numeral.toFloat]
    simp only [hsize, hne, hzero, hdrop]
    rfl

theorem float?_pointZero {s : String} (h : IsNumeral s.toList)
    (hpoint : '.' ∉ s.toList) : float? (s ++ ".0") = float? s := by
  have h' : IsNumeral (s ++ ".0").toList := by
    rw [String.toList_append]
    exact h.pointZero hpoint
  rw [h.float?_eq, h'.float?_eq, String.toList_append]
  show (numeral? (s.toList ++ ['.', '0'])).map _ = _
  generalize s.toList = cs at h hpoint
  cases h with
  | @whole sign whole hsign hwhole =>
      have hall := (isDigits_iff.mp hwhole).2
      have hdigits : isDigits (whole ++ ['0']) = true := by
        rw [isDigits_iff, List.all_append, hall]
        exact ⟨List.append_ne_nil_of_right_ne_nil _ (List.cons_ne_nil _ _), rfl⟩
      have hvalue : ofDigits (whole ++ ['0']) = 10 * ofDigits whole := by
        rw [ofDigits, List.foldl_append]
        rfl
      rw [List.append_assoc, numeral?_pointed hsign hall rfl hdigits,
        numeral?_whole hsign hwhole, hvalue]
      exact congrArg some (toFloat_pointZero _ _)
  | pointed => simp at hpoint

/-- A number that is read back from its text is so from its text with a
point. -/
theorem float?_pointedText {x : Float} (h : x.isFinite = true)
    (hread : float? (shortestText x) = some x) :
    float? (Scalar.pointedText x) = some x := by
  have hfinite : Scalar.isFinite x = true := h
  have htext : Scalar.text x = shortestText x := rfl
  rw [Scalar.pointedText]
  simp only [hfinite, Bool.not_true, Bool.or_false, htext]
  split
  · exact hread
  · next hpoint =>
      rw [float?_pointZero (shortestText_isNumeral h)
        (mt List.contains_iff_mem.mpr hpoint)]
      exact hread

theorem mem_splitSign {cs : List Char} (h : 'p' ∈ cs) :
    'p' ∈ (splitSign cs).2 := by
  rw [splitSign.eq_def]
  split
  · exact List.mem_of_ne_of_mem (by decide) h
  · exact List.mem_of_ne_of_mem (by decide) h
  · exact h

theorem mem_dropWhile_isDigit {cs : List Char} (h : 'p' ∈ cs) :
    'p' ∈ cs.dropWhile Char.isDigit := by
  rw [← List.takeWhile_append_dropWhile (p := Char.isDigit) (l := cs)] at h
  rcases List.mem_append.mp h with h | h
  · exact absurd (List.all_eq_true.mp List.all_takeWhile 'p' h) (by decide)
  · exact h

theorem exponent?_eq_none {cs : List Char} (h : 'p' ∈ cs) :
    exponent? cs = none := by
  cases cs with
  | nil => cases h
  | cons c rest =>
      rw [exponent?]
      split
      · next hc =>
          have hne : 'p' ≠ c := by
            rcases hc with rfl | rfl <;> decide
          have hmem := mem_splitSign (List.mem_of_ne_of_mem hne h)
          have hdigits : isDigits (splitSign rest).2 = false := by
            rw [isDigits, Bool.and_eq_false_iff]
            exact .inr (List.all_eq_false.mpr ⟨'p', hmem, by decide⟩)
          simp only [hdigits]
          rfl
      · rfl

/-- The letter of points stands in no number. -/
theorem float?_eq_none {s : String} (h : 'p' ∈ s.toList) :
    float? s = none := by
  have hmem := mem_splitSign h
  have hlower : 'p' ∈ (splitSign s.toList).2.map Char.toLower :=
    List.mem_map.mpr ⟨'p', hmem, by decide⟩
  have hnumeral : numeral? s.toList = none := by
    rw [numeral?]
    simp only [unsigned?]
    have hdrop := mem_dropWhile_isDigit hmem
    split
    · next r hr =>
        rw [hr] at hdrop
        have hrest := mem_dropWhile_isDigit
          (List.mem_of_ne_of_mem (by decide) hdrop)
        rw [exponent?_eq_none hrest]
        split <;> rfl
    · rw [exponent?_eq_none hdrop]
      split <;> rfl
  rw [float?]
  simp only []
  rw [if_neg, if_neg, hnumeral]
  · rfl
  · intro heq
    rw [heq] at hlower
    exact absurd hlower (by decide)
  · intro heq
    rcases heq with heq | heq
    · rw [heq] at hlower
      exact absurd hlower (by decide)
    · rw [heq] at hlower
      exact absurd hlower (by decide)

theorem float?_points (s : String) : float? (s ++ "pt") = none := by
  refine float?_eq_none ?_
  rw [String.toList_append]
  exact List.mem_append_right _ List.mem_cons_self

end Tabulation.Column
