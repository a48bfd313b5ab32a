import Tabulation.Content.Directive

/-!
# Words that are marks

A mark is `_` or `>`, with a count in front of it or without one. A word is
taken for marks if it is one of the two, or the first one and then the second
one, and if nothing else is in it. `MarkWord` says so without a word on how the
word is read, and reading is shown to agree with it: a count is a decimal
numeral from 1 to 99, so it has no zero in front and a third digit spoils it.
-/

namespace Tabulation

namespace Directive

/-- What counts in front of a mark: a numeral from 1 to 99, or nothing for 1. -/
inductive Count : Nat → List Char → Prop where
  | unwritten : Count 1 []
  | numeral {n : Nat} (one_le : 1 ≤ n) (le : n ≤ 99) :
      Count n (Nat.toDigits 10 n)

/-- A mark with its count. -/
def Counted (mark : Char) (n : Nat) (cs : List Char) : Prop :=
  ∃ count, Count n count ∧ cs = count ++ [mark]

/-- The words that ask for a rule, for a span, or for both. -/
inductive MarkWord : Option Nat → Option Nat → List Char → Prop where
  | rule {n : Nat} {cs : List Char} (h : Counted '_' n cs) :
      MarkWord (some n) none cs
  | span {m : Nat} {cs : List Char} (h : Counted '>' m cs) :
      MarkWord none (some m) cs
  | both {n m : Nat} {cs ds : List Char} (hn : Counted '_' n cs)
      (hm : Counted '>' m ds) : MarkWord (some n) (some m) (cs ++ ds)

/-! ## Counts -/

theorem digitChar_sub {a : Char} (h : a.isDigit = true) :
    a.toNat - 48 < 10 ∧ (a.toNat - 48).digitChar = a := by
  have hdigit : ∀ k < 58, 48 ≤ k → (k - 48).digitChar = Char.ofNat k := by
    decide
  have hzero : '0'.toNat = 48 := rfl
  have hnine : '9'.toNat = 57 := rfl
  rw [Char.isDigit_iff_toNat] at h
  refine ⟨by omega, ?_⟩
  rw [hdigit a.toNat (by omega) (by omega), Char.ofNat_toNat]

theorem toNat_sub_pos {a : Char} (h : a.isDigit = true) (hne : a ≠ '0') :
    0 < a.toNat - 48 := by
  refine Nat.pos_of_ne_zero fun hzero => hne ?_
  rw [← (digitChar_sub h).2, hzero]
  rfl

/-- What reading a count needs to know of a digit that is written in it. -/
theorem digitChar_digit {n : Nat} (h : n < 10) :
    n.digitChar.isDigit = true ∧ n.digitChar.toNat - 48 = n := by
  have hall : ∀ n < 10,
      n.digitChar.isDigit = true ∧ n.digitChar.toNat - 48 = n := by decide
  exact hall n h

theorem digitChar_ne_zero {n : Nat} (h : n ≠ 0) : n.digitChar ≠ '0' :=
  fun heq => h (Nat.digitChar_eq_zero.mp heq)

theorem Count.digit {a : Char} (ha : a.isDigit = true) (hne : a ≠ '0') :
    Count (a.toNat - 48) [a] := by
  obtain ⟨hlt, hchar⟩ := digitChar_sub ha
  have h := Count.numeral (toNat_sub_pos ha hne) (by omega)
  rwa [Nat.toDigits_of_lt_base hlt, hchar] at h

theorem Count.digits {a b : Char} (ha : a.isDigit = true) (hne : a ≠ '0')
    (hb : b.isDigit = true) :
    Count (10 * (a.toNat - 48) + (b.toNat - 48)) [a, b] := by
  obtain ⟨htens, hchara⟩ := digitChar_sub ha
  obtain ⟨hones, hcharb⟩ := digitChar_sub hb
  have hpos := toNat_sub_pos ha hne
  have h := Count.numeral
    (show 1 ≤ 10 * (a.toNat - 48) + (b.toNat - 48) by omega) (by omega)
  rwa [← Nat.toDigits_append_toDigits (by decide) hpos hones,
    Nat.toDigits_of_lt_base htens, Nat.toDigits_of_lt_base hones, hchara,
    hcharb] at h

theorem Count.isDigit {n : Nat} {count : List Char} (h : Count n count) :
    ∀ c ∈ count, c.isDigit = true := by
  cases h with
  | unwritten => intro c hc; cases hc
  | numeral => exact fun c => Nat.isDigit_of_mem_toDigits (by decide) (by decide)

section

variable {mark : Char} (hmark : mark.isDigit = false)

include hmark

theorem ne_mark {c : Char} (h : c.isDigit = true) : c ≠ mark := by
  rintro rfl
  rw [hmark] at h
  cases h

/-- A count with its mark is read off whatever follows. -/
theorem counted?_append {n : Nat} {count : List Char} (h : Count n count)
    (rest : List Char) :
    counted? mark (count ++ mark :: rest) = some (n, rest) := by
  cases h with
  | unwritten =>
      rw [List.nil_append, counted?.eq_def]
      exact if_pos rfl
  | numeral one_le le =>
      by_cases hlt : n < 10
      · obtain ⟨hdigit, hvalue⟩ := digitChar_digit hlt
        have hzero := digitChar_ne_zero (show n ≠ 0 by omega)
        simp [Nat.toDigits_of_lt_base hlt, counted?, ne_mark hmark hdigit,
          hdigit, hzero, hvalue]
      · have htens : n / 10 < 10 := by omega
        obtain ⟨hdigit, hvalue⟩ := digitChar_digit htens
        obtain ⟨hdigit', hvalue'⟩ :=
          digitChar_digit (Nat.mod_lt n (by decide : 0 < 10))
        have hzero := digitChar_ne_zero (show n / 10 ≠ 0 by omega)
        rw [Nat.toDigits_of_base_le (by decide) (Nat.le_of_not_lt hlt),
          Nat.toDigits_of_lt_base htens]
        simp [counted?, ne_mark hmark hdigit, ne_mark hmark hdigit', hdigit,
          hdigit', hzero, hvalue, hvalue', Nat.div_add_mod]

theorem counted?_eq_some {n : Nat} {cs rest : List Char} :
    counted? mark cs = some (n, rest) ↔
      ∃ count, Count n count ∧ cs = count ++ mark :: rest := by
  constructor
  · intro h
    rw [counted?.eq_def] at h
    simp only [] at h
    split at h
    · cases h
    · next a behind =>
        split at h
        · next ha =>
            cases h
            exact ⟨[], .unwritten, by rw [ha]; rfl⟩
        · split at h
          · next ha =>
              rw [Bool.and_eq_true, decide_eq_true_eq] at ha
              split at h
              · cases h
              · next b behind =>
                  split at h
                  · next hb =>
                      cases h
                      exact ⟨[a], .digit ha.1 ha.2, by rw [hb]; rfl⟩
                  · split at h
                    · next hb =>
                        split at h
                        · next c behind =>
                            split at h
                            · next hc =>
                                cases h
                                exact ⟨[a, b], .digits ha.1 ha.2 hb,
                                  by rw [hc]; rfl⟩
                            · cases h
                        · cases h
                    · cases h
          · cases h
  · rintro ⟨count, hcount, rfl⟩
    exact counted?_append hmark hcount rest

/-- What is counted for another mark is not counted for this one. -/
theorem counted?_other {other : Char} (hne : mark ≠ other) {n : Nat}
    {cs : List Char} (h : Counted other n cs) : counted? mark cs = none := by
  refine Option.eq_none_iff_forall_ne_some.mpr fun p hp => ?_
  obtain ⟨count, -, hcs⟩ := (counted?_eq_some (n := p.1) hmark).mp hp
  obtain ⟨count', hcount', rfl⟩ := h
  have hmem : mark ∈ count' ++ [other] := by
    rw [hcs]
    exact List.mem_append_right _ List.mem_cons_self
  rcases List.mem_append.mp hmem with h | h
  · exact ne_mark hmark (hcount'.isDigit mark h) rfl
  · exact hne (List.mem_singleton.mp h)

end

/-! ## Words -/

/-- The count of a mark in front of a text, if the mark stands there, and what
follows. -/
def splitMark (mark : Char) (cs : List Char) : Option Nat × List Char :=
  match counted? mark cs with
  | some (n, rest) => (some n, rest)
  | none => (none, cs)

theorem splitMark_counted {mark : Char} (hmark : mark.isDigit = false)
    {n : Nat} {cs : List Char} (h : Counted mark n cs) (rest : List Char) :
    splitMark mark (cs ++ rest) = (some n, rest) := by
  obtain ⟨count, hcount, rfl⟩ := h
  rw [splitMark, List.append_assoc, List.singleton_append,
    counted?_append hmark hcount]

theorem splitMark_missing {mark : Char} {cs : List Char}
    (h : counted? mark cs = none) : splitMark mark cs = (none, cs) := by
  rw [splitMark, h]

theorem splitMark_cases {mark : Char} (hmark : mark.isDigit = false)
    {o : Option Nat} {cs rest : List Char}
    (h : splitMark mark cs = (o, rest)) :
    (∃ n ds, Counted mark n ds ∧ o = some n ∧ cs = ds ++ rest) ∨
      o = none ∧ cs = rest := by
  rw [splitMark] at h
  split at h
  · next n behind hcounted =>
      cases h
      obtain ⟨count, hcount, rfl⟩ := (counted?_eq_some hmark).mp hcounted
      exact .inl ⟨n, _, ⟨count, hcount, rfl⟩, rfl, by simp⟩
  · cases h
    exact .inr ⟨rfl, rfl⟩

/-- A word is split twice, and nothing may be left. -/
theorem marks?_eq_some_iff {word : String} {rule extra : Option Nat} :
    marks? word = some (rule, extra) ↔
      ∃ rest, splitMark '_' word.toList = (rule, rest) ∧
        splitMark '>' rest = (extra, []) ∧
        (rule.isSome || extra.isSome) = true := by
  have heq : marks? word =
      if (splitMark '>' (splitMark '_' word.toList).2).2.isEmpty &&
          ((splitMark '_' word.toList).1.isSome ||
            (splitMark '>' (splitMark '_' word.toList).2).1.isSome) then
        some ((splitMark '_' word.toList).1,
          (splitMark '>' (splitMark '_' word.toList).2).1)
      else none := rfl
  rw [heq, Option.ite_none_right_eq_some, Option.some.injEq, Prod.mk.injEq,
    Bool.and_eq_true, List.isEmpty_iff]
  constructor
  · rintro ⟨⟨hnil, hsome⟩, rfl, rfl⟩
    exact ⟨_, rfl, Prod.ext rfl hnil, hsome⟩
  · rintro ⟨rest, hrule, hextra, hsome⟩
    rw [hrule, hextra]
    exact ⟨⟨rfl, hsome⟩, rfl, rfl⟩

/-- A word is taken for marks exactly if it is one of the words of marks, and
then for what it says. -/
theorem marks?_eq_some {word : String} {rule extra : Option Nat} :
    marks? word = some (rule, extra) ↔ MarkWord rule extra word.toList := by
  have hrule : '_'.isDigit = false := rfl
  have hspan : '>'.isDigit = false := rfl
  rw [marks?_eq_some_iff]
  constructor
  · rintro ⟨rest, hfirst, hsecond, hsome⟩
    rcases splitMark_cases hrule hfirst with
      ⟨n, cs, hcs, rfl, heq⟩ | ⟨rfl, heq⟩
    · rcases splitMark_cases hspan hsecond with
        ⟨m, ds, hds, rfl, rfl⟩ | ⟨rfl, rfl⟩
      · rw [heq, List.append_nil]
        exact .both hcs hds
      · rw [heq, List.append_nil]
        exact .rule hcs
    · rcases splitMark_cases hspan hsecond with
        ⟨m, ds, hds, rfl, rfl⟩ | ⟨rfl, rfl⟩
      · rw [heq, List.append_nil]
        exact .span hds
      · cases hsome
  · intro h
    generalize word.toList = cs at h
    cases h with
    | rule hn =>
        refine ⟨[], ?_, rfl, rfl⟩
        have h := splitMark_counted hrule hn []
        rwa [List.append_nil] at h
    | span hm =>
        refine ⟨cs, splitMark_missing (counted?_other hrule (by decide) hm), ?_,
          rfl⟩
        have h := splitMark_counted hspan hm []
        rwa [List.append_nil] at h
    | both hn hm =>
        refine ⟨_, splitMark_counted hrule hn _, ?_, rfl⟩
        have h := splitMark_counted hspan hm []
        rwa [List.append_nil] at h

end Directive

end Tabulation
