import Tabulation.Proofs.Order
import Tabulation.Reference.Counter

/-!
# The number of the current heading never goes back

Read to a fixed depth, the number of the heading that the text stands in grows
in lexicographic order from heading to heading. A heading of a level that is
there already counts that level up and forgets the deeper ones, so the number
is larger if the depth reaches the level, and the same otherwise. A heading of
a deeper level only adds ones, and those are what a missing level reads as
anyhow. So a number that was left behind is never read again.
-/

namespace Tabulation

namespace Counter

/-- The levels of a counter read to a depth. -/
def shown (depth : Nat) (levels : List Nat) : List Nat :=
  levels.take depth ++ List.replicate (depth - levels.length) 1

theorem value_eq (c : Counter) (depth : Nat) :
    c.value depth = c.scope ++ shown depth c.levels := by
  rw [value, shown, List.append_assoc]

theorem length_shown (depth : Nat) (levels : List Nat) :
    (shown depth levels).length = depth := by
  rw [shown, List.length_append, List.length_take, List.length_replicate]
  omega

/-- Levels that are filled up with ones read as they did before. -/
theorem shown_filled (depth n : Nat) (levels : List Nat) :
    shown depth (levels ++ List.replicate n 1) = shown depth levels := by
  rw [shown, shown, List.take_append, List.take_replicate, List.length_append,
    List.length_replicate, List.append_assoc, List.replicate_append_replicate]
  congr 2
  omega

theorem shown_append_of_le {depth : Nat} {outer : List Nat}
    (h : depth ≤ outer.length) (inner : List Nat) :
    shown depth (outer ++ inner) = outer.take depth := by
  rw [shown, List.take_append_of_le_length h, List.length_append,
    show depth - (outer.length + inner.length) = 0 by omega]
  exact List.append_nil _

theorem shown_append (depth : Nat) (outer inner : List Nat) :
    shown (outer.length + depth) (outer ++ inner) =
      outer ++ shown depth inner := by
  rw [shown, shown, List.take_length_add_append, List.length_append,
    Nat.add_sub_add_left, List.append_assoc]

theorem shown_cons (depth n : Nat) (levels : List Nat) :
    shown (depth + 1) (n :: levels) = n :: shown depth levels := by
  rw [Nat.add_comm]
  exact shown_append depth [n] levels

/-- Counting at a level forgets the deeper ones. -/
theorem increment_append (outer : List Nat) (n : Nat) (inner : List Nat) :
    increment (outer.length + 1) (outer ++ n :: inner) = outer ++ [n + 1] := by
  rw [increment, if_neg (by simp), Nat.add_sub_cancel,
    List.modify_eq_take_cons_drop (by simp), List.take_left]
  simp [List.take_append, List.take_of_length_le]

theorem exists_level {level : Nat} {levels : List Nat}
    (h : level < levels.length) :
    ∃ outer n inner, levels = outer ++ n :: inner ∧ outer.length = level :=
  ⟨levels.take level, levels[level], levels.drop (level + 1),
    by rw [← List.drop_eq_getElem_cons h, List.take_append_drop],
    List.length_take_of_le (Nat.le_of_lt h)⟩

/-- Counting at a level raises what is shown, or leaves it. -/
theorem shown_le_increment (depth level : Nat) (levels : List Nat) :
    shown depth levels ≤ shown depth (increment (level + 1) levels) := by
  by_cases hlen : levels.length < level + 1
  · rw [increment, if_pos hlen, shown_filled]
  · obtain ⟨outer, n, inner, rfl, rfl⟩ := exists_level (Nat.not_lt.mp hlen)
    rw [increment_append]
    by_cases hdepth : depth ≤ outer.length
    · -- The depth ends above the level that is counted.
      rw [shown_append_of_le hdepth, shown_append_of_le hdepth]
    · obtain ⟨d, rfl⟩ : ∃ d, depth = outer.length + (d + 1) :=
        ⟨depth - outer.length - 1, by omega⟩
      rw [shown_append, shown_append, shown_cons, shown_cons]
      exact le_of_lt
        (append_cons_lt_append_cons outer (Nat.lt_succ_self n) _ _)

end Counter

namespace Counters

/-- No number that a heading counts for is taken from another register. -/
def PlainHeadings (cs : Counters) : Prop :=
  ∀ c, cs.get? headingRegister = some c → c.scope = []

theorem enterHeading_eq (cs : Counters) (level : Nat) :
    cs.enterHeading level =
      let c := (cs.get? headingRegister).getD {}
      cs.insert headingRegister
        { c with levels := Counter.increment (max level 1) c.levels } := rfl

theorem PlainHeadings.enterHeading {cs : Counters} (h : cs.PlainHeadings)
    (level : Nat) : (cs.enterHeading level).PlainHeadings := by
  intro c hc
  rw [enterHeading_eq, Entries.get?_insert_self] at hc
  cases hc
  cases hget : cs.get? headingRegister with
  | none => rfl
  | some c => exact h c hget

theorem PlainHeadings.length_current {cs : Counters} (h : cs.PlainHeadings)
    (depth : Nat) : (cs.current headingRegister depth).length = depth := by
  rw [current]
  split
  · exact List.length_replicate
  · next c hc =>
      rw [Counter.value_eq, h c hc]
      exact Counter.length_shown depth c.levels

/-- The number of the current heading never goes back. -/
theorem current_le_enterHeading (cs : Counters) (level depth : Nat) :
    cs.current headingRegister depth ≤
      (cs.enterHeading level).current headingRegister depth := by
  obtain ⟨n, hn⟩ : ∃ n, max level 1 = n + 1 := ⟨max level 1 - 1, by omega⟩
  rw [enterHeading_eq, hn, current, current, Entries.get?_insert_self]
  cases cs.get? headingRegister with
  | some c =>
      simp only [Option.getD_some, Counter.value_eq]
      rcases (Counter.shown_le_increment depth n c.levels).lt_or_eq with h | h
      · exact le_of_lt (List.append_left_lt h)
      · rw [h]
  | none =>
      -- Zeros stand in front of the first heading, and ones at least in it.
      show List.replicate depth 0 ≤ Counter.shown depth _
      refine le_trans ?_ (Counter.shown_le_increment depth n [])
      rw [Counter.shown, List.take_nil, List.nil_append, List.length_nil,
        Nat.sub_zero]
      cases depth with
      | zero => exact le_refl _
      | succ d =>
          exact le_of_lt (List.cons_lt_cons_iff.mpr (.inl Nat.zero_lt_one))

end Counters

end Tabulation
