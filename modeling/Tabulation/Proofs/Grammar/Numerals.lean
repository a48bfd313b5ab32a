import Tabulation.Proofs.Grammar.Derivation
import Tabulation.Proofs.Outcome

/-!
# Numerals

The numbers that the lexer makes have a shape: a sign that may be missing, and
digits with at most one point among or beside them. Because of that shape the
only numbers that the grammar has to refuse are whole ones that do not fit into
64 bits: one with a point is always read.
-/

namespace Tabulation.Column

open Decimal

/-- A sign, digits, and a point with digits, of which the sign may be missing
and one of the groups of digits. -/
inductive IsNumeral : List Char → Prop where
  | whole {sign whole : List Char} :
      sign ∈ [[], ['-'], ['+']] → isDigits whole → IsNumeral (sign ++ whole)
  | pointed {sign whole places : List Char} :
      sign ∈ [[], ['-'], ['+']] → whole.all Char.isDigit →
      places.all Char.isDigit → isDigits (whole ++ places) →
      IsNumeral (sign ++ (whole ++ '.' :: places))

/-- What makes a number begin behind its sign. -/
def BeginsUnsigned (cs : List Char) : Prop :=
  (∃ d rest, cs = d :: rest ∧ d.isDigit) ∨
    ∃ d rest, cs = '.' :: d :: rest ∧ d.isDigit

theorem isDigits_iff {cs : List Char} :
    isDigits cs = true ↔ cs ≠ [] ∧ cs.all Char.isDigit = true := by
  rw [isDigits, Bool.and_eq_true, Bool.not_eq_true', List.isEmpty_eq_false_iff]

theorem startsUnsigned_begins {cs : List Char}
    (h : startsUnsigned cs = true) : BeginsUnsigned cs := by
  rw [startsUnsigned.eq_def] at h
  split at h
  · exact .inr ⟨_, _, rfl, h⟩
  · exact .inl ⟨_, _, rfl, h⟩
  · cases h

/-- The digits, the point and the digits behind it, where a number begins
behind its sign. -/
theorem unsigned_isNumeral {sign cs places rest : List Char}
    (hsign : sign ∈ [[], ['-'], ['+']]) (h : BeginsUnsigned cs)
    (hplaces : (match cs.dropWhile Char.isDigit with
      | '.' :: r => ('.' :: r.takeWhile Char.isDigit, r.dropWhile Char.isDigit)
      | r => ([], r)) = (places, rest)) :
    IsNumeral (sign ++ cs.takeWhile Char.isDigit ++ places) := by
  split at hplaces
  · next r hr =>
      cases hplaces
      rw [List.append_assoc]
      refine .pointed hsign List.all_takeWhile List.all_takeWhile ?_
      rw [isDigits_iff, List.all_append, List.all_takeWhile,
        List.all_takeWhile]
      refine ⟨?_, rfl⟩
      rcases h with ⟨d, us, rfl, hd⟩ | ⟨d, us, rfl, hd⟩
      · rw [List.takeWhile_cons_of_pos hd]
        exact List.cons_ne_nil _ _
      · cases hr
        rw [List.takeWhile_cons_of_pos hd]
        exact List.append_ne_nil_of_right_ne_nil _ (List.cons_ne_nil _ _)
  · next r hr =>
      cases hplaces
      rw [List.append_nil]
      refine .whole hsign ?_
      rw [isDigits_iff, List.all_takeWhile]
      refine ⟨?_, rfl⟩
      rcases h with ⟨d, us, rfl, hd⟩ | ⟨d, us, rfl, hd⟩
      · rw [List.takeWhile_cons_of_pos hd]
        exact List.cons_ne_nil _ _
      · exact absurd rfl (hr (d :: us))

theorem splitNumber_isNumeral {cs : List Char} (h : startsNumber cs = true) :
    IsNumeral (splitNumber cs).1 := by
  cases cs with
  | nil => cases h
  | cons c rest =>
      rw [startsNumber] at h
      rw [splitNumber]
      split at h
      · next hc =>
          simp only [if_pos hc]
          refine unsigned_isNumeral ?_ (startsUnsigned_begins h) rfl
          rcases hc with rfl | rfl <;> simp
      · next hc =>
          simp only [if_neg hc]
          exact unsigned_isNumeral List.mem_cons_self
            (startsUnsigned_begins h) rfl

theorem lexeme_number {c : Char} {rest after : List Char} {n : String}
    (h : lexeme c rest = .ok (.number n, after)) : IsNumeral n.toList := by
  rw [lexeme] at h
  repeat' split at h
  all_goals first
    | cases h
    | skip
  next hstarts _ number after' hsplit =>
    have hnumber := splitNumber_isNumeral hstarts
    rw [hsplit] at hnumber
    simp only [] at h
    split at h
    · cases h
      rw [String.toList_ofList]
      exact hnumber
    · cases h

/-- The numbers among the tokens of a text are numerals. -/
theorem tokensFrom_number {offset : Nat} {cs : List Char} {ts : List Token}
    (h : tokensFrom offset cs = .ok ts) :
    ∀ n start, ⟨.number n, start⟩ ∈ ts → IsNumeral n.toList := by
  fun_induction tokensFrom offset cs generalizing ts with
  | case1 => cases h; rintro _ _ ⟨⟩
  | case2 offset c rest hblank ih => exact ih h
  | case3 => cases h
  | case4 offset c rest hblank l after hl =>
      rename_i ih
      obtain ⟨us, hus, rfl⟩ := Except.map_eq_ok.mp h
      intro n start hn
      rcases List.mem_cons.mp hn with heq | hn
      · cases heq
        exact lexeme_number hl
      · exact ih hus n start hn

/-- Behind its sign a numeral has no further one. -/
theorem splitSign_append {sign cs : List Char}
    (hsign : sign ∈ [[], ['-'], ['+']])
    (hcs : ∀ rest, cs ≠ '-' :: rest ∧ cs ≠ '+' :: rest) :
    splitSign (sign ++ cs) = (sign == ['-'], cs) := by
  simp only [List.mem_cons, List.not_mem_nil, or_false] at hsign
  rcases hsign with rfl | rfl | rfl
  · rw [List.nil_append, splitSign.eq_def]
    split
    · next rest => exact absurd rfl (hcs rest).1
    · next rest => exact absurd rfl (hcs rest).2
    · rfl
  · rfl
  · rfl

/-- What a scan for characters of a kind takes if it can take all of a list and
nothing behind it. -/
theorem takeWhile_exact {p : Char → Bool} {cs : List Char} (rest : List Char)
    (hcs : cs.all p = true) (hrest : ∀ c ∈ rest.head?, p c = false) :
    (cs ++ rest).takeWhile p = cs ∧ (cs ++ rest).dropWhile p = rest := by
  have hall : ∀ c ∈ cs, p c = true := List.all_eq_true.mp hcs
  rw [List.takeWhile_append_of_pos hall, List.dropWhile_append_of_pos hall]
  cases rest with
  | nil => exact ⟨List.append_nil cs, rfl⟩
  | cons c rest =>
      have hc := hrest c rfl
      rw [List.takeWhile_cons, List.dropWhile_cons, hc]
      exact ⟨List.append_nil cs, rfl⟩

/-- Neither a digit nor the point is a sign. -/
theorem digits_unsigned {cs : List Char} (rest : List Char)
    (hcs : cs.all Char.isDigit = true) (h : isDigits cs ∨ rest.head? = some '.')
    (us : List Char) : cs ++ rest ≠ '-' :: us ∧ cs ++ rest ≠ '+' :: us := by
  cases cs with
  | nil =>
      rcases h with h | h
      · cases h
      · rw [List.nil_append]
        constructor
        · intro heq
          subst heq
          cases h
        · intro heq
          subst heq
          cases h
  | cons c cs =>
      have hc := List.all_eq_true.mp hcs c List.mem_cons_self
      constructor
      · intro heq
        cases heq
        cases hc
      · intro heq
        cases heq
        cases hc

theorem numeral?_pointed {sign whole places : List Char}
    (hsign : sign ∈ [[], ['-'], ['+']]) (hwhole : whole.all Char.isDigit)
    (hplaces : places.all Char.isDigit) (h : isDigits (whole ++ places)) :
    numeral? (sign ++ (whole ++ '.' :: places)) =
      some ⟨sign == ['-'], ofDigits (whole ++ places), -places.length⟩ := by
  obtain ⟨htake, hdrop⟩ := takeWhile_exact ('.' :: places) hwhole
    (by intro c heq; cases heq; rfl)
  obtain ⟨htake', hdrop'⟩ := takeWhile_exact [] hplaces
    (by intro c heq; cases heq)
  rw [List.append_nil] at htake' hdrop'
  have hne : (whole.isEmpty && places.isEmpty) = false := by
    rw [isDigits_iff] at h
    have h := h.1
    cases whole <;> cases places <;> simp_all
  rw [numeral?, splitSign_append hsign (digits_unsigned _ hwhole (.inr rfl))]
  simp only [unsigned?, htake, hdrop, htake', hdrop', hne]
  simp [exponent?]

theorem numeral?_whole {sign whole : List Char}
    (hsign : sign ∈ [[], ['-'], ['+']]) (h : isDigits whole) :
    numeral? (sign ++ whole) =
      some ⟨sign == ['-'], ofDigits whole, 0⟩ := by
  have hwhole := (isDigits_iff.mp h).2
  have hunsigned := digits_unsigned [] hwhole (.inl h)
  obtain ⟨htake, hdrop⟩ := takeWhile_exact [] hwhole
    (by intro c heq; cases heq)
  rw [List.append_nil] at htake hdrop hunsigned
  have hne : whole.isEmpty = false := by
    rw [List.isEmpty_eq_false_iff]
    exact (isDigits_iff.mp h).1
  rw [numeral?, splitSign_append hsign hunsigned]
  simp only [unsigned?, htake, hdrop, hne]
  simp [exponent?]

/-- Every numeral is read as a float. -/
theorem IsNumeral.float?_isSome {n : String} (h : IsNumeral n.toList) :
    (float? n).isSome = true := by
  rw [float?]
  simp only []
  split
  · rfl
  · split
    · rfl
    · rw [Option.isSome_map]
      generalize n.toList = cs at h
      cases h with
      | whole hsign hdigits =>
          rw [numeral?_whole hsign hdigits]
          rfl
      | pointed hsign hwhole hplaces hdigits =>
          rw [numeral?_pointed hsign hwhole hplaces hdigits]
          rfl

/-- A numeral without a point is a whole number, which is read if it fits. -/
theorem IsNumeral.int64?_isSome_iff {n : String} (h : IsNumeral n.toList)
    (hpoint : '.' ∉ n.toList) : (int64? n).isSome = true ↔ FitsInt64 n := by
  rw [int64?, FitsInt64]
  generalize n.toList = cs at h hpoint ⊢
  cases h with
  | @whole sign digits hsign hdigits =>
      have hunsigned := digits_unsigned []
        (isDigits_iff.mp hdigits).2 (.inl hdigits)
      rw [List.append_nil] at hunsigned
      rw [splitSign_append hsign hunsigned]
      have htwo : 0 < twoTo 63 := by decide
      simp only [hdigits, if_true]
      generalize ofDigits digits = d
      cases sign == ['-'] with
      | false =>
          simp only [Bool.false_eq_true, if_false]
          split
          · next hd => exact ⟨fun _ => by omega, fun _ => rfl⟩
          · next hd => exact ⟨fun h => (nomatch h), fun h => by omega⟩
      | true =>
          simp only [if_true]
          split
          · next hd => exact ⟨fun _ => by omega, fun _ => rfl⟩
          · next hd => exact ⟨fun h => (nomatch h), fun h => by omega⟩
  | pointed => simp at hpoint

/-- The numbers that the grammar takes are those that are read. -/
theorem IsNumeral.numberLiteral_iff {n : String} (h : IsNumeral n.toList)
    (start : Nat) :
    (∃ l : Literal Float, numberLiteral n start = .ok l) ↔
      '.' ∈ n.toList ∨ FitsInt64 n := by
  rw [numberLiteral]
  by_cases hpoint : '.' ∈ n.toList
  · rw [if_pos (List.contains_iff_mem.mpr hpoint)]
    obtain ⟨x, hx⟩ := Option.isSome_iff_exists.mp h.float?_isSome
    have hread : Scalar.read? (α := Float) n = some x := hx
    rw [hread]
    exact ⟨fun _ => .inl hpoint, fun _ => ⟨_, rfl⟩⟩
  · rw [if_neg (mt List.contains_iff_mem.mp hpoint)]
    have hfits := h.int64?_isSome_iff hpoint
    constructor
    · intro h'
      obtain ⟨l, hl⟩ := h'
      refine .inr (hfits.mp ?_)
      cases hn : int64? n with
      | none => rw [hn] at hl; cases hl
      | some v => rfl
    · intro h'
      rcases h' with hp | hn
      · exact absurd hp hpoint
      · obtain ⟨v, hv⟩ := Option.isSome_iff_exists.mp (hfits.mpr hn)
        rw [hv]
        exact ⟨_, rfl⟩

end Tabulation.Column
