import Tabulation.Proofs.Numbering.Headings

/-!
# The numbers of tables

A table is numbered within the heading it stands in: its number is the number
of that heading, read to a fixed depth, and behind it how many tables there are
under this number so far. The counter of the tables knows only the last heading
number it has seen and starts over when it sees another one, which would count
twice if a number could come back. It cannot, since heading numbers never go
back; that is the invariant `Numbering`, and with it the numbers of tables
grow from table to table.
-/

namespace Tabulation

/-- What is counted in a document. -/
inductive Counted where
  | heading (level : Nat)
  | table

namespace Counter

theorem enterScope_scope (c : Counter) (level : Nat) (scope : List Nat) :
    (c.enterScope level scope).scope = scope := by
  rw [enterScope]
  split
  · next h => exact h
  · rfl

theorem enterScope_self (c : Counter) (level : Nat) :
    c.enterScope level c.scope = c := by
  rw [enterScope, if_pos rfl]

theorem enterScope_of_ne {c : Counter} {scope : List Nat}
    (h : c.scope ≠ scope) : c.enterScope 1 scope = ⟨scope, [0]⟩ := by
  rw [enterScope, if_neg h]
  rfl

end Counter

namespace Counters

/-- The counters behind one counted element. -/
def step (within : Nat) (cs : Counters) : Counted → Counters
  | .heading level => cs.enterHeading level
  | .table => (cs.nextTable within).2

def after (within : Nat) (cs : Counters) (elements : List Counted) : Counters :=
  elements.foldl (step within) cs

/-- The numbers that the tables among some elements get. -/
def tableNumbers (within : Nat) (cs : Counters) :
    List Counted → List (List Nat)
  | [] => []
  | .heading level :: rest => tableNumbers within (cs.enterHeading level) rest
  | .table :: rest =>
      (cs.nextTable within).1 ::
        tableNumbers within (cs.nextTable within).2 rest

theorem tableNumbers_append (within : Nat) (cs : Counters)
    (elements more : List Counted) :
    tableNumbers within cs (elements ++ more) =
      tableNumbers within cs elements ++
        tableNumbers within (cs.after within elements) more := by
  induction elements generalizing cs with
  | nil => rfl
  | cons element rest ih =>
      cases element with
      | heading level => exact ih (cs.enterHeading level)
      | table => exact congrArg _ (ih (cs.nextTable within).2)

/-- The number of the heading that a table is counted within. -/
def scope (cs : Counters) (within : Nat) : List Nat :=
  cs.current headingRegister within

/-- The counter of the tables, a fresh one if there were none. -/
def tables (cs : Counters) : Counter :=
  (cs.get? tableRegister).getD {}

/-- How many of some numbers belong to a heading number. -/
def countWithin (scope : List Nat) (numbers : List (List Nat)) : Nat :=
  numbers.countP (·.dropLast = scope)

theorem countWithin_concat (scope scope' : List Nat) (k : Nat)
    (numbers : List (List Nat)) :
    countWithin scope (numbers ++ [scope' ++ [k]]) =
      countWithin scope numbers + if scope' = scope then 1 else 0 := by
  rw [countWithin, List.countP_append, List.countP_singleton,
    List.dropLast_concat]
  simp [countWithin]

/-- What a number says: the heading it was counted within, which is not ahead
of the current one, and a count that has been reached by now. -/
def Numbered (within : Nat) (cs : Counters) (earlier : List (List Nat))
    (number : List Nat) : Prop :=
  ∃ scope k, number = scope ++ [k] ∧ scope.length = within ∧
    scope ≤ cs.scope within ∧ k ≤ countWithin scope earlier

/-- The counters behind some elements, and the numbers that were handed out on
the way. -/
structure Numbering (within : Nat) (cs : Counters)
    (earlier : List (List Nat)) : Prop where
  headings : cs.PlainHeadings
  behind : cs.tables.scope ≤ cs.scope within
  /-- What the counter of the tables says next within the current heading. -/
  next : Counter.increment 1
    (cs.tables.enterScope 1 (cs.scope within)).levels =
      [1 + countWithin (cs.scope within) earlier]
  numbered : ∀ m ∈ earlier, Numbered within cs earlier m
  increasing : earlier.Pairwise (· < ·)

theorem Numbering.start (within : Nat) : Numbering within [] [] where
  headings := fun _ h => nomatch h
  behind := not_lt.mp (List.not_lt_nil _)
  next := by
    show Counter.increment 1
      (Counter.enterScope {} 1 (scope [] within)).levels = [1]
    rw [Counter.enterScope]
    split <;> rfl
  numbered := fun _ h => nomatch h
  increasing := .nil

/-- No table has been counted yet within a heading number that is ahead of all
that were seen. -/
theorem countWithin_eq_zero {within : Nat} {cs : Counters}
    {earlier : List (List Nat)} {scope : List Nat}
    (h : ∀ m ∈ earlier, Numbered within cs earlier m)
    (ahead : cs.scope within < scope) : countWithin scope earlier = 0 := by
  rw [countWithin, List.countP_eq_zero]
  intro m hm heq
  obtain ⟨s, k, rfl, _, hle, _⟩ := h m hm
  rw [List.dropLast_concat, decide_eq_true_eq] at heq
  subst heq
  exact absurd hle (not_le_of_gt ahead)

/-- The counters with another one for the tables. -/
def withTables (cs : Counters) (c : Counter) : Counters :=
  cs.insert tableRegister c

theorem tables_withTables (cs : Counters) (c : Counter) :
    (cs.withTables c).tables = c := by
  rw [withTables, tables, Entries.get?_insert_self]
  rfl

theorem get?_withTables (cs : Counters) (c : Counter) :
    (cs.withTables c).get? headingRegister = cs.get? headingRegister :=
  Entries.get?_insert_of_ne (by decide) c cs

theorem scope_withTables (cs : Counters) (c : Counter) (within : Nat) :
    (cs.withTables c).scope within = cs.scope within := by
  rw [scope, scope, current, current, get?_withTables]

theorem PlainHeadings.withTables {cs : Counters} (h : cs.PlainHeadings)
    (c : Counter) : (cs.withTables c).PlainHeadings := by
  intro c' hc'
  rw [get?_withTables] at hc'
  exact h c' hc'

theorem nextTable_of_tables {cs : Counters} {within : Nat} {c : Counter}
    (h : (if within = 0 then cs.tables
      else cs.tables.enterScope 1 (cs.scope within)) = c) :
    cs.nextTable within =
      (c.scope ++ Counter.shown 1 (Counter.increment 1 c.levels),
        cs.withTables ⟨c.scope, Counter.increment 1 c.levels⟩) := by
  have hcount : cs.count tableRegister 1
      (if within = 0 then none else some (headingRegister, within)) =
      cs.withTables ⟨c.scope, Counter.increment 1 c.levels⟩ := by
    rw [← h]
    split <;> rfl
  rw [nextTable, hcount, current, withTables, Entries.get?_insert_self]
  simp only [Counter.value_eq]

namespace Numbering

variable {within : Nat} {cs : Counters} {earlier : List (List Nat)}

theorem enterHeading (h : Numbering within cs earlier) (level : Nat) :
    Numbering within (cs.enterHeading level) earlier := by
  have htables : (cs.enterHeading level).tables = cs.tables := by
    rw [tables, enterHeading_eq, Entries.get?_insert_of_ne (by decide)]
    rfl
  have hle : cs.scope within ≤ (cs.enterHeading level).scope within :=
    current_le_enterHeading cs level within
  refine ⟨h.headings.enterHeading level, ?_, ?_, ?_, h.increasing⟩
  · rw [htables]
    exact h.behind.trans hle
  · rw [htables]
    rcases hle.lt_or_eq with hlt | heq
    · rw [countWithin_eq_zero h.numbered hlt, Counter.enterScope_of_ne]
      · rfl
      · exact (h.behind.trans_lt hlt).ne
    · rw [← heq]
      exact h.next
  · intro m hm
    obtain ⟨s, k, rfl, hlen, hs, hk⟩ := h.numbered m hm
    exact ⟨s, k, rfl, hlen, hs.trans hle, hk⟩

/-- Where tables are not counted within headings, their counter is in the empty
scope anyhow. -/
theorem enterScope (h : Numbering within cs earlier) :
    (if within = 0 then cs.tables
      else cs.tables.enterScope 1 (cs.scope within)) =
      cs.tables.enterScope 1 (cs.scope within) := by
  split
  · next hzero =>
      have hlen := h.headings.length_current within
      have hnil : cs.scope within = [] :=
        List.eq_nil_of_length_eq_zero (hlen.trans hzero)
      have hscope : cs.tables.scope = cs.scope within := by
        refine le_antisymm h.behind ?_
        rw [hnil]
        exact not_lt.mp (List.not_lt_nil _)
      rw [← hscope, Counter.enterScope_self]
  · rfl

theorem nextTable (h : Numbering within cs earlier) :
    cs.nextTable within =
      (cs.scope within ++ [1 + countWithin (cs.scope within) earlier],
        cs.withTables ⟨cs.scope within,
          [1 + countWithin (cs.scope within) earlier]⟩) := by
  rw [nextTable_of_tables h.enterScope, h.next, Counter.enterScope_scope]
  rfl

theorem table (h : Numbering within cs earlier) :
    Numbering within (cs.nextTable within).2
      (earlier ++ [(cs.nextTable within).1]) := by
  have hlen := h.headings.length_current within
  rw [h.nextTable]
  simp only []
  generalize hk : 1 + countWithin (cs.scope within) earlier = k
  have hcount : countWithin (cs.scope within)
      (earlier ++ [cs.scope within ++ [k]]) = k := by
    rw [countWithin_concat, if_pos rfl, ← hk, Nat.add_comm]
  refine ⟨h.headings.withTables _, ?_, ?_, ?_, ?_⟩
  · rw [tables_withTables, scope_withTables]
  · rw [tables_withTables, scope_withTables, Counter.enterScope, if_pos rfl,
      hcount, Nat.add_comm]
    rfl
  · intro m hm
    rw [Numbered, scope_withTables]
    rcases List.mem_append.mp hm with hm | hm
    · obtain ⟨s, j, rfl, hs, hle, hj⟩ := h.numbered m hm
      refine ⟨s, j, rfl, hs, hle, ?_⟩
      rw [countWithin_concat]
      omega
    · exact ⟨_, k, List.mem_singleton.mp hm, hlen, le_refl _, hcount.ge⟩
  · rw [List.pairwise_append]
    refine ⟨h.increasing, List.pairwise_singleton _ _, ?_⟩
    intro m hm n hn
    obtain ⟨s, j, rfl, hs, hle, hj⟩ := h.numbered m hm
    rw [List.mem_singleton.mp hn]
    rcases hle.lt_or_eq with hlt | rfl
    · exact append_lt_append (hs.trans hlen.symm) hlt _ _
    · exact append_cons_lt_append_cons _ (by omega) _ _

/-- What one counted element keeps, a whole sequence of them does. -/
theorem after (h : Numbering within cs earlier) (elements : List Counted) :
    Numbering within (cs.after within elements)
      (earlier ++ tableNumbers within cs elements) := by
  induction elements generalizing cs earlier with
  | nil =>
      rw [tableNumbers, List.append_nil]
      exact h
  | cons element rest ih =>
      cases element with
      | heading level => exact ih (h.enterHeading level)
      | table =>
          have hrest := ih h.table
          rw [List.append_assoc] at hrest
          exact hrest

end Numbering

/-- In a document that begins with no headings and no tables, the numbers of
the tables grow in lexicographic order, so no two are the same. Each one is the
number of the heading that it stands in, read to the depth that tables are
counted within, and behind it one more than the tables that were numbered with
the same heading number before. -/
theorem tableNumbers_increase (within : Nat) :
    (∀ elements, (tableNumbers within [] elements).Pairwise (· < ·) ∧
      (tableNumbers within [] elements).Nodup) ∧
    ∀ before rest : List Counted,
      let cs := after within [] before
      let scope := cs.current headingRegister within
      let earlier := tableNumbers within [] before
      let number := scope ++ [1 + earlier.countP (·.dropLast = scope)]
      scope.length = within ∧ (cs.nextTable within).1 = number ∧
        ∃ later, tableNumbers within [] (before ++ .table :: rest) =
          earlier ++ number :: later := by
  refine ⟨fun elements => ?_, fun before rest => ?_⟩
  · have h := ((Numbering.start within).after elements).increasing
    exact ⟨h, h.imp fun hlt => hlt.ne⟩
  · have h := (Numbering.start within).after before
    have hnext := congrArg Prod.fst h.nextTable
    refine ⟨h.headings.length_current within, hnext,
      tableNumbers within
        ((after within [] before).nextTable within).2 rest, ?_⟩
    rw [tableNumbers_append, tableNumbers, hnext]
    rfl

example : tableNumbers 1 []
    [.table, .heading 1, .table, .heading 3, .table, .heading 1, .table] =
      [[0, 1], [1, 1], [1, 2], [2, 1]] := by decide

end Counters

end Tabulation
