/-!
# Sets of characters as sorted ranges

A property of characters is kept as the list of its code point ranges, lowest first. The order
is what lets a look-up stop early, and `mem_iff` says that stopping early loses nothing: on a
sorted list it answers as a search of every range would. Each table is checked to be sorted where
it stands.
-/

namespace Tabulation.Text

/-- The code points of a set: inclusive ranges, meant to be sorted and disjoint. -/
abbrev CodeSet := List (Nat × Nat)

namespace CodeSet

/-- Each range is proper and ends before the next one begins. -/
def Sorted : CodeSet → Prop
  | [] => True
  | [(lo, hi)] => lo ≤ hi
  | (lo, hi) :: (lo', hi') :: rest => lo ≤ hi ∧ hi < lo' ∧ Sorted ((lo', hi') :: rest)

instance decidableSorted : (s : CodeSet) → Decidable (Sorted s)
  | [] => isTrue trivial
  | [(lo, hi)] => inferInstanceAs (Decidable (lo ≤ hi))
  | (lo, hi) :: (lo', hi') :: rest =>
      have := decidableSorted ((lo', hi') :: rest)
      inferInstanceAs (Decidable (lo ≤ hi ∧ hi < lo' ∧ Sorted ((lo', hi') :: rest)))

/-- Whether a code point lies in the set, looking no further than the first range above it. -/
def mem (n : Nat) : CodeSet → Bool
  | [] => false
  | (lo, hi) :: rest => if n < lo then false else if n ≤ hi then true else mem n rest

theorem Sorted.tail {r : Nat × Nat} {s : CodeSet} (h : Sorted (r :: s)) : Sorted s := by
  cases s with
  | nil => exact trivial
  | cons r' rest => exact h.2.2

theorem Sorted.lo_le_of_mem {r : Nat × Nat} {s : CodeSet} (h : Sorted (r :: s)) :
    ∀ t ∈ s, r.1 ≤ t.1 := by
  induction s generalizing r with
  | nil => simp
  | cons r' rest ih =>
      intro t ht
      have h₁ : r.1 ≤ r.2 := h.1
      have h₂ : r.2 < r'.1 := h.2.1
      rcases List.mem_cons.1 ht with rfl | ht
      · omega
      · have := ih h.tail t ht
        omega

/-- On a sorted set the early exit answers as a search of every range does. -/
theorem mem_iff {n : Nat} {s : CodeSet} (h : Sorted s) :
    mem n s = true ↔ ∃ r ∈ s, r.1 ≤ n ∧ n ≤ r.2 := by
  induction s with
  | nil => simp [mem]
  | cons r rest ih =>
      have below := h.lo_le_of_mem
      rw [mem]
      split
      · next hlt =>
          simp only [Bool.false_eq_true, List.mem_cons, exists_eq_or_imp, false_iff, not_or]
          refine ⟨fun h' => by omega, ?_⟩
          rintro ⟨t, ht, h'⟩
          have := below t ht
          omega
      · next hge =>
          split
          · next hle => simp only [List.mem_cons, exists_eq_or_imp, true_iff]; left; omega
          · next hgt =>
              rw [ih h.tail]
              simp only [List.mem_cons, exists_eq_or_imp]
              constructor
              · exact Or.inr
              · rintro (h' | h')
                · omega
                · exact h'

end CodeSet

end Tabulation.Text
