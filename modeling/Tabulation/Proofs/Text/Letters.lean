import Mathlib.Data.List.Induction
import Mathlib.Data.Nat.Digits.Lemmas
import Tabulation.Proofs.Order
import Tabulation.Text.Letters

/-!
# The letters of a column say which column it is

Column letters are the numeral of a column in base twenty-six with digits from
one to twenty-six. Read as such they give the number of the column, counted
from one, so two columns never have the same letters. There is no digit for
zero that could stand in front unseen, so every word of letters is read for a
column, and behind Z, ZZ and so on the letters start over with one more. So a
later column never has fewer letters, and of as many it has the later ones.
-/

namespace Tabulation.Text

/-- The number that letters stand for in base twenty-six, A being one. -/
def lettersValue (letters : List Char) : Nat :=
  letters.foldl (fun value c => 26 * value + (c.toNat - 'A'.toNat + 1)) 0

theorem toNat_letter {digit : Nat} (h : digit < 26) :
    (letter digit).toNat = 'A'.toNat + digit := by
  have hvalid : ('A'.toNat + digit).isValidChar :=
    .inl (show 65 + digit < 55296 by omega)
  rw [letter, Char.ofNat, dif_pos hvalid]
  rfl

theorem lettersValue_concat (letters : List Char) {digit : Nat}
    (h : digit < 26) :
    lettersValue (letters ++ [letter digit]) =
      26 * lettersValue letters + (digit + 1) := by
  rw [lettersValue, List.foldl_append, List.foldl_cons, List.foldl_nil,
    toNat_letter h, Nat.add_sub_cancel_left]
  rfl

theorem lettersValue_columnLetters (n : Nat) :
    lettersValue (columnLetters n) = n + 1 := by
  induction n using columnLetters.induct with
  | case1 n hlt =>
      rw [columnLetters, if_pos hlt]
      have hone := lettersValue_concat [] hlt
      rw [List.nil_append] at hone
      rw [hone]
      show 26 * 0 + (n + 1) = n + 1
      omega
  | case2 n hlt ih =>
      rw [columnLetters, if_neg hlt,
        lettersValue_concat _ (Nat.mod_lt n (by omega)), ih]
      omega

/-- From the last letter on, each place counts twenty-six times as much. -/
theorem lettersValue_eq_sum (letters : List Char) :
    lettersValue letters = (letters.reverse.mapIdx fun place c =>
      (c.toNat - 'A'.toNat + 1) * 26 ^ place).sum := by
  calc lettersValue letters
      = Nat.ofDigits 26
          (letters.reverse.map fun c => c.toNat - 'A'.toNat + 1) := by
        rw [Nat.ofDigits_eq_foldr, List.foldr_map, List.foldr_reverse,
          lettersValue]
        simp only [Nat.cast_id, Nat.add_comm]
    _ = _ := by
        rw [Nat.ofDigits_eq_sum_mapIdx, List.mapIdx_eq_zipIdx_map,
          List.mapIdx_eq_zipIdx_map, List.zipIdx_map, List.map_map]
        rfl

theorem columnLetters_injective {m n : Nat}
    (h : columnLetters m = columnLetters n) : m = n := by
  have hvalue := congrArg lettersValue h
  rw [lettersValue_columnLetters, lettersValue_columnLetters] at hvalue
  omega

theorem isUpper_iff_toNat {c : Char} :
    c.isUpper = true ↔ 'A'.toNat ≤ c.toNat ∧ c.toNat ≤ 'Z'.toNat :=
  decide_eq_true_iff

theorem isUpper_letter {digit : Nat} (h : digit < 26) :
    (letter digit).isUpper = true := by
  rw [isUpper_iff_toNat, toNat_letter h]
  exact ⟨Nat.le_add_right _ _, show 65 + digit ≤ 90 by omega⟩

theorem isUpper_of_mem_columnLetters {n : Nat} {c : Char}
    (hc : c ∈ columnLetters n) : c.isUpper = true := by
  induction n using columnLetters.induct with
  | case1 n hlt =>
      rw [columnLetters, if_pos hlt, List.mem_singleton] at hc
      rw [hc]
      exact isUpper_letter hlt
  | case2 n hlt ih =>
      rw [columnLetters, if_neg hlt, List.mem_append, List.mem_singleton] at hc
      rcases hc with hc | rfl
      · exact ih hc
      · exact isUpper_letter (Nat.mod_lt n (by omega))

theorem columnLetters_ne_nil (n : Nat) : columnLetters n ≠ [] := by
  rw [columnLetters]
  split
  · exact List.cons_ne_nil _ _
  · exact List.concat_ne_nil _ _

/-! ## Words of letters -/

theorem exists_letter {c : Char} (h : c.isUpper = true) :
    ∃ digit < 26, letter digit = c := by
  obtain ⟨hfirst, hlast⟩ := isUpper_iff_toNat.mp h
  have hdigit : c.toNat - 'A'.toNat < 26 := by
    change c.toNat ≤ 90 at hlast
    show c.toNat - 65 < 26
    omega
  refine ⟨c.toNat - 'A'.toNat, hdigit, ?_⟩
  rw [letter, Nat.add_sub_cancel' hfirst, Char.ofNat_toNat]

/-- One letter more: each column has twenty-six longer ones that begin as it
does. -/
theorem columnLetters_concat (n : Nat) {digit : Nat} (h : digit < 26) :
    columnLetters (26 * (n + 1) + digit) =
      columnLetters n ++ [letter digit] := by
  have hfront : (26 * (n + 1) + digit) / 26 - 1 = n := by omega
  have hlast : (26 * (n + 1) + digit) % 26 = digit := by omega
  rw [columnLetters, if_neg (by omega), hfront, hlast]

/-- Every word of letters belongs to a column. -/
theorem exists_columnLetters {letters : List Char} (hne : letters ≠ [])
    (hupper : ∀ c ∈ letters, c.isUpper = true) :
    ∃ n, columnLetters n = letters := by
  induction letters using List.reverseRecOn with
  | nil => exact absurd rfl hne
  | append_singleton front c ih =>
      rw [List.forall_mem_append, List.forall_mem_singleton] at hupper
      obtain ⟨digit, hdigit, rfl⟩ := exists_letter hupper.2
      by_cases hfront : front = []
      · refine ⟨digit, ?_⟩
        rw [columnLetters, if_pos hdigit, hfront, List.nil_append]
      · obtain ⟨n, rfl⟩ := ih hfront hupper.1
        exact ⟨26 * (n + 1) + digit, columnLetters_concat n hdigit⟩

/-! ## The order of columns -/

theorem letter_lt_letter {a b : Nat} (h : a < b) (hb : b < 26) :
    letter a < letter b := by
  rw [Char.lt_def, UInt32.lt_iff_toNat_lt]
  show (letter a).toNat < (letter b).toNat
  rw [toNat_letter (Nat.lt_trans h hb), toNat_letter hb]
  exact Nat.add_lt_add_left h _

/-- A later column has more letters, or as many and later ones. -/
theorem columnLetters_lt {m n : Nat} (h : m < n) :
    (columnLetters m).length < (columnLetters n).length ∨
      (columnLetters m).length = (columnLetters n).length ∧
        columnLetters m < columnLetters n := by
  induction n using columnLetters.induct generalizing m with
  | case1 n hn =>
      rw [columnLetters, if_pos (Nat.lt_trans h hn), columnLetters, if_pos hn]
      exact .inr ⟨rfl,
        append_cons_lt_append_cons [] (letter_lt_letter h hn) _ _⟩
  | case2 n hn ih =>
      have hlast : n % 26 < 26 := Nat.mod_lt n (by omega)
      rw [columnLetters.eq_def n, if_neg hn, List.length_append,
        List.length_singleton]
      by_cases hm : m < 26
      · -- Here the letters have become one more.
        have hfront :=
          List.length_pos_iff.mpr (columnLetters_ne_nil (n / 26 - 1))
        rw [columnLetters, if_pos hm, List.length_singleton]
        exact .inl (Nat.succ_lt_succ hfront)
      · rw [columnLetters.eq_def m, if_neg hm, List.length_append,
          List.length_singleton]
        rcases Nat.lt_or_ge (m / 26 - 1) (n / 26 - 1) with hlt | hge
        · rcases ih hlt with hlen | ⟨hlen, hlex⟩
          · exact .inl (Nat.succ_lt_succ hlen)
          · exact .inr ⟨congrArg _ hlen, append_lt_append hlen hlex _ _⟩
        · -- The columns begin alike, so they differ in their last letter.
          have hfront : m / 26 - 1 = n / 26 - 1 := by omega
          have hdigit : m % 26 < n % 26 := by omega
          rw [hfront]
          exact .inr ⟨rfl, append_cons_lt_append_cons _
            (letter_lt_letter hdigit hlast) _ _⟩

/-- Column letters are the numerals of base twenty-six without a zero: each
column has letters that count it, each word of letters belongs to one column,
and later columns have longer words, or later ones of one length. -/
theorem columnLetters_bijective :
    (∀ n, columnLetters n ≠ [] ∧
      (∀ c ∈ columnLetters n, c.isUpper = true) ∧
      ((columnLetters n).reverse.mapIdx fun place c =>
        (c.toNat - 'A'.toNat + 1) * 26 ^ place).sum = n + 1) ∧
    Function.Injective columnLetters ∧
    (∀ letters : List Char, letters ≠ [] →
      (∀ c ∈ letters, c.isUpper = true) → ∃! n, columnLetters n = letters) ∧
    ∀ m n, m < n →
      (columnLetters m).length < (columnLetters n).length ∨
        (columnLetters m).length = (columnLetters n).length ∧
          columnLetters m < columnLetters n := by
  refine ⟨fun n => ⟨columnLetters_ne_nil n,
    fun _ => isUpper_of_mem_columnLetters, ?_⟩,
    fun _ _ => columnLetters_injective, ?_, fun _ _ => columnLetters_lt⟩
  · rw [← lettersValue_eq_sum, lettersValue_columnLetters]
  · intro letters hne hupper
    obtain ⟨n, hn⟩ := exists_columnLetters hne hupper
    exact ⟨n, hn, fun m hm => columnLetters_injective (hm.trans hn.symm)⟩

/-- Behind ZZ. -/
example : columnLetters 701 = ['Z', 'Z'] ∧
    columnLetters 702 = ['A', 'A', 'A'] := by decide +kernel

end Tabulation.Text
