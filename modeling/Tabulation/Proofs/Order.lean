import Mathlib.Data.List.Lex

/-!
# Lists in order

Lists are compared entry by entry from the front, and the first difference
decides. What stands behind it does not matter, so an order of numbers or of
letters is kept by whatever is written behind them.
-/

namespace Tabulation

variable {α : Type} [LT α]

/-- Of two lists of one length, what stands behind them does not matter. -/
theorem append_lt_append {s s' : List α} (hlen : s.length = s'.length)
    (h : s < s') (m m' : List α) : s ++ m < s' ++ m' := by
  induction s generalizing s' with
  | nil =>
      rw [List.eq_nil_of_length_eq_zero hlen.symm] at h
      exact absurd h (List.not_lt_nil _)
  | cons n s ih =>
      cases s' with
      | nil => exact absurd h (List.not_lt_nil _)
      | cons n' s' =>
          rw [List.cons_append, List.cons_append, List.cons_lt_cons_iff]
          rcases List.cons_lt_cons_iff.mp h with hn | ⟨hn, hs⟩
          · exact .inl hn
          · exact .inr ⟨hn, ih (Nat.succ.inj hlen) hs⟩

/-- Behind a common front the first entries decide. -/
theorem append_cons_lt_append_cons (s : List α) {a b : α} (h : a < b)
    (m m' : List α) : s ++ a :: m < s ++ b :: m' :=
  List.append_left_lt (List.cons_lt_cons_iff.mpr (.inl h))

end Tabulation
