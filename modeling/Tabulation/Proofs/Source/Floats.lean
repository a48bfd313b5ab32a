import Tabulation.Column.Specifier
import Tabulation.Proofs.Grammar.Numerals

/-!
# Floats and their texts

What the source text of a column needs to know of floats. A finite float is
written as a numeral, and a point with a zero behind it changes nothing about
the number. A text that ends in letters is no number. Equality tells floats
apart but for the two zeros and for what is no number, so a number that equals
the default of an option is that default.
-/

namespace Tabulation.Column

open Decimal

theorem isNaN_of_isFinite {x : Float} (h : x.isFinite = true) :
    x.isNaN = false ∧ x.isInf = false := by
  change x.toModel.unpack.isFinite = true at h
  change x.toModel.unpack.isNaN = false ∧ x.toModel.unpack.isInf = false
  cases hx : x.toModel.unpack with
  | infinity => rw [hx] at h; cases h
  | notANumber => rw [hx] at h; cases h
  | zero => exact ⟨rfl, rfl⟩
  | finite => exact ⟨rfl, rfl⟩

theorem isNaN_or_isInf {x : Float} (h : ¬x.isFinite = true) :
    x.isNaN = true ∨ x.isInf = true := by
  change ¬x.toModel.unpack.isFinite = true at h
  change x.toModel.unpack.isNaN = true ∨ x.toModel.unpack.isInf = true
  generalize x.toModel.unpack = u at h
  cases u with
  | notANumber => exact .inl rfl
  | infinity => exact .inr rfl
  | zero => exact absurd rfl h
  | finite => exact absurd rfl h

theorem beq_self {x : Float} (h : x.isNaN = false) : (x == x) = true := by
  change x.toModel.unpack.isNaN = false at h
  change x.toModel.unpack.beq x.toModel.unpack = true
  generalize x.toModel.unpack = u at h
  cases u with
  | notANumber => cases h
  | zero => rfl
  | infinity sign => cases sign <;> rfl
  | finite sign m e =>
      have hself : (compare e e).then (compare m m) = .eq := by
        rw [Std.ReflOrd.compare_self, Std.ReflOrd.compare_self]
        rfl
      cases sign with
      | positive =>
          show (some ((compare e e).then (compare m m)) == some .eq) = true
          rw [hself]
          rfl
      | negative =>
          show (some ((compare e e).then (compare m m)).swap == some .eq) = true
          rw [hself]
          rfl

theorem isFinite_of_range {x : Float} (h : 0.0 ≤ x) (h' : x < 1.0) :
    x.isFinite = true := by
  have hzero : (0.0 : Float).toModel.unpack = .zero .positive := rfl
  have hone : (1.0 : Float).toModel.unpack =
      .finite .positive 0x10000000000000 (-52) (by decide) := rfl
  have hlow : (0.0 : Float).toModel.unpack.le x.toModel.unpack = true :=
    of_decide_eq_true h
  have hhigh : x.toModel.unpack.lt (1.0 : Float).toModel.unpack = true :=
    of_decide_eq_true h'
  rw [hzero] at hlow
  rw [hone] at hhigh
  change x.toModel.unpack.isFinite = true
  generalize x.toModel.unpack = u at hlow hhigh
  cases u with
  | notANumber => cases hlow
  | zero => rfl
  | finite => rfl
  | infinity sign =>
      cases sign with
      | positive => cases hhigh
      | negative => cases hlow

open Float.Model Float.Model.UnpackedFloat in
/-- The bits of a positive number are its exponent and its significand, unless
that is too small for the exponent. -/
theorem toNat_of_unpack {b : BitVec 64} {m : Nat} {e : Int} {pos : 0 < m}
    (hm : 0x10000000000000 ≤ m)
    (hb : UnpackedFloat.unpack .binary64 b = .finite .positive m e pos) :
    (b.toNat : Int) = (e + 1075) * 0x10000000000000 + m - 0x10000000000000 := by
  have hsmall : (@unpackMantissa .binary64 b).toNat <
      0x10000000000000 := (@unpackMantissa .binary64 b).isLt
  delta UnpackedFloat.unpack at hb
  dsimp only at hb
  by_cases hspecial : @unpackExponent .binary64 b = -1#11
  · rw [if_pos hspecial] at hb
    by_cases hzero : @unpackMantissa .binary64 b = 0#52
    · rw [if_pos hzero] at hb
      cases hb
    · rw [if_neg hzero] at hb
      cases hb
  · rw [if_neg hspecial] at hb
    by_cases hsubnormal : @unpackExponent .binary64 b = 0#11
    · rw [if_pos hsubnormal] at hb
      by_cases hzero : @unpackMantissa .binary64 b = 0#52
      · rw [dif_pos hzero] at hb
        cases hb
      · rw [dif_neg hzero] at hb
        injection hb with _ hmantissa _
        omega
    · rw [if_neg hsubnormal] at hb
      injection hb with hsign hmantissa hexponent
      have hm' : (@unpackMantissa .binary64 b).toNat +
          0x10000000000000 = m := by
        change (1#1 ++ (@unpackMantissa .binary64 b :
          BitVec 52)).toNat = m at hmantissa
        rw [BitVec.toNat_append, ← Nat.shiftLeft_add_eq_or_of_lt hsmall,
          Nat.shiftLeft_eq] at hmantissa
        change 1 * 0x10000000000000 + _ = m at hmantissa
        omega
      have he : ((@unpackExponent .binary64 b).toNat : Int) =
          e + 1075 := by
        change _ - ((1023 : Int) + 52) = e at hexponent
        omega
      have hs : @unpackSign .binary64 b = 0#1 := by
        rw [Sign.ofBitVec] at hsign
        split at hsign
        · next hs => exact hs
        · cases hsign
      have hs' : (b.extractLsb 63 63).toNat = 0 := congrArg BitVec.toNat hs
      delta unpackMantissa at hm'
      delta unpackExponent at he
      simp only [BitVec.toNat_cast, BitVec.extractLsb_toNat,
        Nat.shiftRight_eq_div_pow] at hm' he hs'
      have hbound := b.isLt
      omega

theorem float_ext {x y : Float}
    (h : x.toModel.toBits.toBitVec.toNat = y.toModel.toBits.toBitVec.toNat) :
    x = y := by
  obtain ⟨⟨⟨a⟩, _⟩⟩ := x
  obtain ⟨⟨⟨b⟩, _⟩⟩ := y
  cases BitVec.eq_of_toNat_eq h
  rfl

/-- A number that equals the default indentation is that number. -/
theorem eq_defaultIndentFraction {x : Float}
    (h : (x == defaultIndentFraction) = true) : x = defaultIndentFraction := by
  have hdefault : (0.1 : Float).toModel.unpack =
      .finite .positive 0x1999999999999A (-56) (by decide) := rfl
  have heq : x.toModel.unpack.beq (0.1 : Float).toModel.unpack = true := h
  rw [hdefault] at heq
  have hx : ∃ pos, x.toModel.unpack =
      .finite .positive 0x1999999999999A (-56) pos := by
    generalize x.toModel.unpack = u at heq
    cases u with
    | notANumber => cases heq
    | infinity sign => cases sign <;> cases heq
    | zero => cases heq
    | finite sign m e pos =>
        cases sign with
        | negative => cases heq
        | positive =>
            change (some ((compare e (-56)).then
              (compare m 0x1999999999999A)) == some .eq) = true at heq
            rw [beq_iff_eq, Option.some.injEq, Ordering.then_eq_eq,
              Std.LawfulEqOrd.compare_eq_iff_eq,
              Std.LawfulEqOrd.compare_eq_iff_eq] at heq
            obtain ⟨rfl, rfl⟩ := heq
            exact ⟨pos, rfl⟩
  obtain ⟨pos, hx⟩ := hx
  refine float_ext ?_
  have hleft := toNat_of_unpack (by decide) hx
  have hright := toNat_of_unpack (by decide) hdefault
  rw [← hright] at hleft
  exact Int.ofNat.inj hleft

end Tabulation.Column
