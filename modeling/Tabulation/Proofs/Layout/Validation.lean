import Mathlib
import Tabulation.Proofs.Layout.Columns

/-!
# Which tables have rows that agree

Checking a row goes along its slots with a counter of slots that a span still
has to cover, and looks at two sums besides. Nothing of that is in what it
decides: a row is regular if it is marked as it would be if its cells were taken
alone and spread out again, and if these cells claim the columns of the first
row. The count of slots is no condition of its own, since it follows from the
marks. What is reported about a row that is not regular depends on which of the
two conditions it misses, and of several such rows on the first one only.
-/

namespace Tabulation

variable {α : Type}

/-- The cell that stands in a slot. -/
def Slot.cell? : Slot → Option Cell
  | .cell c => some c
  | .covered => none

namespace Row

/-- The cells of a row without the slots that they cover. -/
def cells (row : Row) : List Cell :=
  row.slots.filterMap Slot.cell?

/-- The columns that the cells of a row claim, one for each of them at least. -/
def claimed (row : Row) : Nat :=
  (row.cells.map fun c => max c.span 1).sum

/-- The columns of a row that are marked as covered. -/
def marks (row : Row) : List Bool :=
  row.slots.map Slot.isCovered

/-- A row is marked as its cells ask for, and they claim a number of columns. -/
structure Regular (row : Row) (count : Nat) : Prop where
  marks : row.marks = (spanned (row.cells.map .cell)).marks
  claimed : row.claimed = count

/-- The columns that a row is said to have where another count is expected: what
its cells claim, or its slots if there is nothing wrong with the claims. -/
def reported (row : Row) (count : Nat) : Nat :=
  if row.spanSum = count then row.slots.length else row.spanSum

/-! ## Marks and claims -/

theorem marks_spanned_cons (c : Cell) (slots : List Slot) :
    (spanned (.cell c :: slots)).marks =
      false :: (List.replicate (c.span - 1) true ++ (spanned slots).marks) := by
  simp only [marks, spanned, List.flatMap_cons, Slot.withCovered,
    List.cons_append, List.map_cons, List.map_append, List.map_replicate]
  rfl

/-- The counter of owed slots is a number of marks in front. -/
theorem covers_eq_true {slots : List Slot} {pending : Nat} :
    covers pending slots = true ↔
      slots.map Slot.isCovered = List.replicate pending true ++
        (spanned ((slots.filterMap Slot.cell?).map .cell)).marks := by
  induction slots generalizing pending with
  | nil =>
      rw [covers, decide_eq_true_iff]
      cases pending with
      | zero => exact iff_of_true rfl rfl
      | succ n => exact iff_of_false n.succ_ne_zero nofun
  | cons slot rest ih =>
      cases slot with
      | cell c =>
          rw [List.filterMap_cons_some (f := Slot.cell?) (b := c) rfl,
            List.map_cons, List.map_cons, marks_spanned_cons, covers,
            Bool.and_eq_true, decide_eq_true_iff, ih]
          have hspan : max c.span 1 - 1 = c.span - 1 := by omega
          rw [hspan]
          cases pending with
          | zero =>
              rw [List.replicate_zero, List.nil_append, List.cons.injEq]
              exact and_congr_left' (iff_of_true rfl rfl)
          | succ n => exact iff_of_false (fun h => by cases h.1) nofun
      | covered =>
          rw [List.filterMap_cons_none rfl, List.map_cons]
          cases pending with
          | zero =>
              refine iff_of_false (by rw [covers]; decide) fun h => ?_
              rw [List.replicate_zero, List.nil_append] at h
              generalize rest.filterMap Slot.cell? = cells at h
              cases cells with
              | nil => cases h
              | cons c cells =>
                  rw [List.map_cons, marks_spanned_cons] at h
                  cases h
          | succ n =>
              rw [covers, ih, List.replicate_succ, List.cons_append,
                List.cons.injEq]
              exact (and_iff_right rfl).symm

/-- The columns that slots claim, added up without a limit. -/
theorem foldr_claim (slots : List Slot) :
    slots.foldr (fun slot columns => slot.claim + columns) 0 =
      claimed { slots } := by
  induction slots with
  | nil => rfl
  | cons slot rest ih =>
      rw [List.foldr_cons, ih]
      simp only [claimed, cells]
      cases slot with
      | cell c =>
          rw [List.filterMap_cons_some (f := Slot.cell?) (b := c) rfl,
            List.map_cons, List.sum_cons]
          rfl
      | covered =>
          rw [List.filterMap_cons_none rfl]
          exact Nat.zero_add _

theorem spanSum_eq (row : Row) :
    row.spanSum = if row.claimed ≤ row.slots.length then row.claimed
      else row.claimed % 2 ^ 64 := by
  rw [spanSum, foldr_claim]
  rfl

/-- A row that is marked as its cells ask for has as many slots as they claim,
and those that are owed in front. -/
theorem length_of_covers {slots : List Slot} {pending : Nat}
    (h : covers pending slots = true) :
    slots.length = pending + claimed { slots } := by
  induction slots generalizing pending with
  | nil =>
      rw [covers, decide_eq_true_iff] at h
      rw [h]
      rfl
  | cons slot rest ih =>
      rw [List.length_cons]
      rw [← foldr_claim] at ih ⊢
      rw [List.foldr_cons]
      cases slot with
      | cell c =>
          rw [covers, Bool.and_eq_true, decide_eq_true_iff] at h
          rw [ih h.2, h.1, Slot.claim]
          omega
      | covered =>
          cases pending with
          | zero => rw [covers] at h; cases h
          | succ n =>
              rw [covers] at h
              rw [ih h, Slot.claim]
              omega

/-- No sum wraps around in a row that is marked as its cells ask for. -/
theorem spanSum_of_covers {row : Row} (h : covers 0 row.slots = true) :
    row.spanSum = row.claimed := by
  have hlength : row.slots.length = 0 + row.claimed := length_of_covers h
  rw [spanSum_eq, if_pos (by omega)]

/-- In such a row no cell claims more than there is behind it. -/
theorem extent_of_covers {slots : List Slot} {pending i : Nat} {c : Cell}
    (h : covers pending slots = true) (hc : slots[i]? = some (.cell c)) :
    i + max c.span 1 ≤ slots.length := by
  induction slots generalizing pending i with
  | nil => cases hc
  | cons slot rest ih =>
      rw [List.length_cons]
      cases slot with
      | cell first =>
          rw [covers, Bool.and_eq_true] at h
          cases i with
          | zero =>
              cases hc
              rw [length_of_covers h.2]
              omega
          | succ i =>
              have hrest := ih h.2 hc
              omega
      | covered =>
          cases i with
          | zero => cases hc
          | succ i =>
              cases pending with
              | zero => rw [covers] at h; cases h
              | succ n =>
                  rw [covers] at h
                  have hrest := ih h hc
                  omega

/-- What the check of a row decides. -/
theorem fills_iff_regular {row : Row} {count : Nat} :
    row.Fills count ↔ row.Regular count := by
  constructor
  · rintro ⟨hclaims, _, hcovers⟩
    exact ⟨covers_eq_true.mp hcovers, by rw [← spanSum_of_covers hcovers, hclaims]⟩
  · rintro ⟨hmarks, hclaimed⟩
    have hcovers : covers 0 row.slots = true := covers_eq_true.mpr hmarks
    refine ⟨by rw [spanSum_of_covers hcovers, hclaimed], ?_, hcovers⟩
    rw [length_of_covers hcovers, Nat.zero_add]
    exact hclaimed

end Row

/-! ## The first row that is not regular -/

theorem checkRows_regular {expected index : Nat} {row : Row} {rest : List Row}
    (h : row.Regular expected) :
    Table.checkRows expected index (row :: rest) =
      Table.checkRows expected (index + 1) rest := by
  obtain ⟨hclaims, hslots, hcovers⟩ := Row.fills_iff_regular.mpr h
  rw [Table.checkRows, if_neg (not_not.mpr hclaims),
    if_neg (by simp [hslots, hcovers])]

theorem checkRows_irregular {expected index : Nat} {row : Row}
    {rest : List Row} (h : ¬ row.Regular expected) :
    Table.checkRows expected index (row :: rest) =
      .error (.columnCount index expected (row.reported expected)) := by
  rw [Table.checkRows, Row.reported]
  by_cases hclaims : row.spanSum = expected
  · rw [if_neg (not_not.mpr hclaims), if_pos hclaims, if_pos]
    by_contra hfits
    rw [not_or, Decidable.not_not, Bool.not_eq_true'] at hfits
    exact h (Row.fills_iff_regular.mp
      ⟨hclaims, hfits.1, by simpa using hfits.2⟩)
  · rw [if_pos hclaims, if_neg hclaims]

theorem checkRows_eq_error {expected index : Nat} {rows : List Row}
    {e : Error} :
    Table.checkRows expected index rows = .error e ↔
      ∃ before row after, rows = before ++ row :: after ∧
        (∀ r ∈ before, r.Regular expected) ∧ ¬ row.Regular expected ∧
        e = .columnCount (index + before.length) expected
          (row.reported expected) := by
  induction rows generalizing index with
  | nil =>
      refine ⟨nofun, ?_⟩
      rintro ⟨before, row, after, hrows, _⟩
      cases before <;> cases hrows
  | cons row rest ih =>
      by_cases h : row.Regular expected
      · rw [checkRows_regular h, ih]
        constructor
        · rintro ⟨before, bad, after, rfl, hbefore, hbad, rfl⟩
          refine ⟨row :: before, bad, after, rfl,
            List.forall_mem_cons.mpr ⟨h, hbefore⟩, hbad, ?_⟩
          rw [List.length_cons, Nat.add_assoc, Nat.add_comm 1]
        · rintro ⟨before, bad, after, hrows, hbefore, hbad, rfl⟩
          cases before with
          | nil =>
              cases hrows
              exact absurd h hbad
          | cons first before =>
              cases hrows
              refine ⟨before, bad, after, rfl,
                (List.forall_mem_cons.mp hbefore).2, hbad, ?_⟩
              rw [List.length_cons, Nat.add_assoc, Nat.add_comm 1]
      · rw [checkRows_irregular h]
        constructor
        · intro he
          cases he
          exact ⟨[], row, rest, rfl, nofun, h, rfl⟩
        · rintro ⟨before, bad, after, hrows, hbefore, hbad, rfl⟩
          cases before with
          | nil => cases hrows; rfl
          | cons first before =>
              cases hrows
              exact absurd (hbefore _ List.mem_cons_self) h

theorem validate_eq_error {t : Table α} {e : Error} :
    t.validate = .error e ↔
      (t.columnCount = 0 ∧ e = .markup .noColumns none) ∨
        0 < t.columnCount ∧
          Table.checkRows t.columnCount 0 t.rows = .error e := by
  rw [Table.validate]
  simp only []
  split
  · next hcount =>
      rw [hcount]
      constructor
      · intro h
        cases h
        exact .inl ⟨rfl, rfl⟩
      · rintro (⟨_, rfl⟩ | ⟨hpos, _⟩)
        · rfl
        · cases hpos
  · next hcount =>
      cases Table.checkRows t.columnCount 0 t.rows with
      | ok u =>
          refine iff_of_false (fun h => by cases h) ?_
          rintro (⟨hzero, _⟩ | ⟨_, ⟨⟩⟩)
          exact hcount hzero
      | error e' =>
          constructor
          · intro h
            cases h
            exact .inr ⟨Nat.pos_of_ne_zero hcount, rfl⟩
          · rintro (⟨hzero, _⟩ | ⟨_, ⟨⟩⟩)
            · exact absurd hzero hcount
            · rfl

/-- A table without columns is refused for that, and any other for the first row
that is not regular. -/
theorem validate_refuses {t : Table α} {e : Error} :
    t.validate = .error e ↔
      ((∀ first ∈ t.rows.head?, first.spanSum = 0) ∧
        e = .markup .noColumns none) ∨
      ∃ first ∈ t.rows.head?, 0 < first.spanSum ∧
        ∃ before row after, t.rows = before ++ row :: after ∧
          (∀ r ∈ before, r.Regular first.spanSum) ∧
          ¬ row.Regular first.spanSum ∧
          e = .columnCount before.length first.spanSum
            (row.reported first.spanSum) := by
  obtain ⟨rows, _, _, _⟩ := t
  rw [validate_eq_error]
  simp only [Table.columnCount]
  cases rows with
  | nil => simp
  | cons first rest =>
      simp only [checkRows_eq_error, List.head?_cons, Option.mem_some_iff,
        forall_eq', exists_eq_left', Nat.zero_add]

end Tabulation
