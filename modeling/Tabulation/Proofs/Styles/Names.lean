import Mathlib
import Tabulation.Proofs.Text.Letters
import Tabulation.Table.Odt

/-!
# The name of a style says what it is for

A style belongs to a column of a table or to a cell in a row of it. Its name is
put together from the number of the table, the letters of the column and the
number of the row, and it can be taken apart again: a point ends the name of
the table, which has none, letters are no digits, and the levels of a table's
number are numerals with an underscore between them.
-/

namespace Tabulation

open Text

theorem toString_toList (n : Nat) :
    (toString n).toList = Nat.toDigits 10 n := by
  rw [Nat.toString_eq_ofList_toDigits, String.toList_ofList]

theorem toString_toList_inj {m n : Nat}
    (h : (toString m).toList = (toString n).toList) : m = n := by
  rw [toString_toList, toString_toList] at h
  have hvalue := congrArg (Nat.ofDigitChars 10 · 0) h
  simp only [Nat.ofDigitChars_ten_toDigits] at hvalue
  exact hvalue

theorem isDigit_of_mem_toString {n : Nat} {c : Char}
    (hc : c ∈ (toString n).toList) : c.isDigit = true := by
  rw [toString_toList] at hc
  exact Nat.isDigit_of_mem_toDigits (by decide) (by decide) hc

theorem not_mem_toString {n : Nat} {c : Char} (h : c.isDigit = false) :
    c ∉ (toString n).toList := fun hc => by
  rw [isDigit_of_mem_toString hc] at h
  cases h

theorem not_isUpper_of_isDigit {c : Char} (h : c.isDigit = true) :
    c.isUpper = false := by
  have hlast : '9'.val.toNat = 57 := rfl
  have hfirst : 'A'.val.toNat = 65 := rfl
  simp only [Char.isDigit, Char.isUpper, Bool.and_eq_true, decide_eq_true_eq,
    decide_eq_false_iff_not, ge_iff_le, UInt32.le_iff_toNat_le] at h ⊢
  omega

namespace Odt

/-- What stands for a character of a number in the name of a table. -/
def nameChar (c : Char) : Char := if c = '.' then '_' else c

theorem tableName_toList (number : String) :
    (tableName number).toList =
      "Table".toList ++ number.toList.map nameChar := by
  simp only [tableName, String.toList_append, String.toList_ofList]
  rfl

theorem point_not_mem_tableName (number : String) :
    '.' ∉ (tableName number).toList := by
  rw [tableName_toList, List.mem_append, List.mem_map]
  rintro (h | ⟨c, _, hc⟩)
  · exact absurd h (by decide)
  · rw [nameChar] at hc
    split at hc
    · cases hc
    · next hne => exact hne hc

theorem map_nameChar_toString (n : Nat) :
    (toString n).toList.map nameChar = (toString n).toList := by
  refine (List.map_congr_left fun c hc => ?_).trans (List.map_id _)
  rw [nameChar, if_neg]
  · rfl
  · rintro rfl
    exact not_mem_toString (by decide) hc

theorem map_intercalate {β γ : Type} (f : β → γ) (separator : List β)
    (pieces : List (List β)) :
    (separator.intercalate pieces).map f =
      (separator.map f).intercalate (pieces.map (·.map f)) := by
  induction pieces with
  | nil => rfl
  | cons piece pieces ih =>
      cases pieces with
      | nil => simp [List.intercalate]
      | cons next pieces =>
          simp only [List.map_cons, List.intercalate_cons_cons,
            List.map_append] at ih ⊢
          rw [ih]

/-- A number in a name is its levels with underscores between them. -/
theorem map_nameChar_dotted (number : List Nat) :
    (dotted number).toList.map nameChar =
      ['_'].intercalate (number.map fun n => (toString n).toList) := by
  rw [dotted, String.toList_intercalate, map_intercalate, List.map_map,
    List.map_map]
  exact congrArg _ (List.map_congr_left fun n _ => map_nameChar_toString n)

theorem tableName_dotted_inj {m n : List Nat} (hm : m ≠ []) (hn : n ≠ [])
    (h : tableName (dotted m) = tableName (dotted n)) : m = n := by
  have hlist := congrArg String.toList h
  rw [tableName_toList, tableName_toList, List.append_cancel_left_eq,
    map_nameChar_dotted, map_nameChar_dotted] at hlist
  have hsplit := congrArg (List.splitOn '_') hlist
  have hlevels : ∀ number : List Nat,
      ∀ l ∈ number.map (fun n => (toString n).toList), '_' ∉ l := by
    intro number l hl
    obtain ⟨k, _, rfl⟩ := List.mem_map.mp hl
    exact not_mem_toString (by decide)
  rw [List.splitOn_intercalate _ (hlevels m) (by simpa using hm),
    List.splitOn_intercalate _ (hlevels n) (by simpa using hn)] at hsplit
  exact List.map_injective_iff.mpr (fun _ _ => toString_toList_inj) hsplit

/-- The name of the style of a column, or of the cell of it in a row. -/
def styleName (number : String) (column : Nat) (row : Option Nat) : String :=
  match row with
  | none => columnStyleName (tableName number) column
  | some row => cellStyleName (tableName number) column row

/-- The number of a row as it stands in a name. -/
def rowDigits (row : Option Nat) : List Char :=
  (row.map fun r => (toString (r + 1)).toList).getD []

theorem styleName_toList (number : String) (column : Nat) (row : Option Nat) :
    (styleName number column row).toList = (tableName number).toList ++
      '.' :: (columnLetters column ++ rowDigits row) := by
  rw [styleName.eq_def]
  cases row with
  | none => simp [columnStyleName, rowDigits]
  | some row => simp [cellStyleName, columnStyleName, rowDigits]

theorem isDigit_of_mem_rowDigits {row : Option Nat} {c : Char}
    (hc : c ∈ rowDigits row) : c.isDigit = true := by
  cases row with
  | none => cases hc
  | some row => exact isDigit_of_mem_toString hc

theorem rowDigits_inj {row row' : Option Nat}
    (h : rowDigits row = rowDigits row') : row = row' := by
  have hne : ∀ r : Nat, (toString r).toList ≠ [] := by
    intro r
    rw [toString_toList]
    exact Nat.toDigits_ne_nil
  cases row with
  | none =>
      cases row' with
      | none => rfl
      | some r => exact absurd h.symm (hne _)
  | some r =>
      cases row' with
      | none => exact absurd h (hne _)
      | some r' => rw [Nat.succ.inj (toString_toList_inj h)]

/-- Letters end where digits begin. -/
theorem letters_append_inj {m n : Nat} {row row' : Option Nat}
    (h : columnLetters m ++ rowDigits row = columnLetters n ++ rowDigits row') :
    m = n ∧ row = row' := by
  have hletters : ∀ (k : Nat) (r : Option Nat),
      (columnLetters k ++ rowDigits r).filter Char.isUpper =
        columnLetters k := by
    intro k r
    rw [List.filter_append,
      List.filter_eq_self.mpr fun c hc => isUpper_of_mem_columnLetters hc,
      List.filter_eq_nil_iff.mpr, List.append_nil]
    intro c hc
    rw [not_isUpper_of_isDigit (isDigit_of_mem_rowDigits hc)]
    exact Bool.false_ne_true
  have hupper := congrArg (List.filter Char.isUpper) h
  rw [hletters, hletters] at hupper
  rw [hupper, List.append_cancel_left_eq] at h
  exact ⟨columnLetters_injective hupper, rowDigits_inj h⟩

/-- The name of the table ends at the first point. -/
theorem takeWhile_tableName (number : String) (rest : List Char) :
    ((tableName number).toList ++ '.' :: rest).takeWhile (· ≠ '.') =
      (tableName number).toList := by
  rw [List.takeWhile_append_of_pos, List.takeWhile_cons_of_neg (by decide),
    List.append_nil]
  intro c hc
  rw [decide_eq_true_eq]
  rintro rfl
  exact point_not_mem_tableName number hc

theorem styleName_inj {number number' : String} {column column' : Nat}
    {row row' : Option Nat}
    (h : styleName number column row = styleName number' column' row') :
    tableName number = tableName number' ∧ column = column' ∧ row = row' := by
  have hlist := congrArg String.toList h
  rw [styleName_toList, styleName_toList] at hlist
  have htable := congrArg (List.takeWhile (· ≠ '.')) hlist
  rw [takeWhile_tableName, takeWhile_tableName] at htable
  rw [htable, List.append_cancel_left_eq, List.cons.injEq] at hlist
  exact ⟨String.toList_inj.mp htable, letters_append_inj hlist.2⟩

end Odt

end Tabulation
