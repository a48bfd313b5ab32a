import Mathlib.Data.List.Forall2
import Tabulation.Proofs.Layout.Stages

/-!
# What the second pass places

The second pass walks along the slots of a row with a counter of slots that a
span still covers. `Places` says the same as a relation between the slots and
the cells that come out, with one rule for each way the walk goes on: a slot
is skipped, a slot that a declared span covers is passed over, or a cell is
placed and its span sets the counter. Rules and underlined flags are left out
of it, and the rows of a layout keep the cells that were placed.
-/

namespace Tabulation

open Column

variable {α : Type} [Scalar α]

/-- The columns that a measured cell covers. -/
def MeasuredCell.span (m : MeasuredCell α) : Nat :=
  m.directive.span m.cell.span

omit [Scalar α] in
theorem MeasuredCell.one_le_span (m : MeasuredCell α) : 1 ≤ m.span := by
  rw [MeasuredCell.span, Directive.span]
  omega

/-- A measured cell in its column, as the group that was found for it. -/
def Frame.placedCell (f : Frame α) (m : MeasuredCell α) (column : Nat)
    (group : Option (Specifier α)) : PlacedCell α where
  column
  span := m.span
  indent := m.directive.indent
  first := f.grid.offset column + m.directive.indent + 1
  physicalSpan := f.grid.physicalSpan column m.span m.directive.indent
  group
  content := m.content
  heading := m.cell.heading
  vertical := m.cell.vertical
  width := f.cellWidth column m.span m.directive.indent

/-- The cells that come from slots of which the first stands in a column and
the given number are skipped. -/
inductive Places (f : Frame α) : (column skip : Nat) →
    List (Option (MeasuredCell α)) → List (PlacedCell α) → Prop where
  | done {column skip : Nat} : Places f column skip [] []
  | skipped {column skip : Nat} {slot : Option (MeasuredCell α)}
      {rest : List (Option (MeasuredCell α))} {cells : List (PlacedCell α)}
      (h : Places f (column + 1) skip rest cells) :
      Places f column (skip + 1) (slot :: rest) cells
  | covered {column : Nat} {rest : List (Option (MeasuredCell α))}
      {cells : List (PlacedCell α)} (h : Places f (column + 1) 0 rest cells) :
      Places f column 0 (none :: rest) cells
  | cell {column : Nat} {m : MeasuredCell α}
      {group : Option (Specifier α)} {rest : List (Option (MeasuredCell α))}
      {cells : List (PlacedCell α)} (fits : column + m.span ≤ f.columnCount)
      (found : f.group? m.directive column m.span = .ok group)
      (h : Places f (column + 1) (m.span - 1) rest cells) :
      Places f column 0 (some m :: rest) (f.placedCell m column group :: cells)

/-- What is placed of a row with one rule more, which runs below the columns
from `start` up to `stop`. -/
def Placing.withRule (placed : Placing α) (rule : Rule) (start stop : Nat) :
    Placing α :=
  { placed with
    rules := placed.rules ++ [rule]
    underlined := markRange start stop placed.underlined }

/-- What is placed of a row with one cell more, and with the rule that the cell
asks for. -/
def Placing.withCell (f : Frame α) (placed : Placing α) (m : MeasuredCell α)
    (column : Nat) (group : Option (Specifier α)) : Placing α :=
  let ruled := match m.directive.underline with
    | none => placed
    | some underline =>
        let (rule, start, stop) :=
          f.cellRule column m.span m.directive.indent underline
        placed.withRule rule start stop
  { ruled with cells := placed.cells ++ [f.placedCell m column group] }

theorem Frame.le_ruleEnd (column span : Nat) (underline : Option Underline) :
    column + span ≤ ruleEnd column span underline := by
  cases underline with
  | none => exact Nat.le_refl _
  | some underline =>
      cases underline with
      | midrule => exact Nat.le_refl _
      | columns width =>
          show column + span ≤ column + max width span
          omega

/-- The column behind the rule of a cell, which is also behind the cell. -/
def MeasuredCell.ruleEnd (m : MeasuredCell α) (column : Nat) : Nat :=
  Frame.ruleEnd column m.span m.directive.underline

/-- How the walk goes on behind a slot whose cell is placed. -/
theorem placeSlots_cell {f : Frame α} {row column : Nat}
    {placed placed' : Placing α} {m : MeasuredCell α}
    {rest : List (Option (MeasuredCell α))} :
    placeSlots f row column 0 placed (some m :: rest) = .ok placed' ↔
      ∃ group, column + m.span ≤ f.columnCount ∧
        f.group? m.directive column m.span = .ok group ∧
        m.ruleEnd column < Decimal.wordLimit ∧
        placeSlots f row (column + 1) (m.span - 1)
          (placed.withCell f m column group) rest = .ok placed' := by
  constructor
  · intro h
    rw [placeSlots] at h
    split at h
    · cases h
    · split at h
      · cases h
      · next hfit =>
          split at h
          · cases h
          · next group hg =>
              split at h
              · cases h
              · next hend =>
                  refine ⟨group, Nat.le_of_not_lt hfit, hg,
                    Nat.lt_of_not_le hend, ?_⟩
                  rw [Placing.withCell]
                  cases hu : m.directive.underline <;> (rw [hu] at h; exact h)
  · rintro ⟨group, hfit, hg, hend, h⟩
    rw [MeasuredCell.ruleEnd] at hend
    have hspan := Frame.le_ruleEnd column m.span m.directive.underline
    rw [Placing.withCell] at h
    rw [MeasuredCell.span] at hfit hg hend hspan
    rw [placeSlots, if_neg (by omega), if_neg (Nat.not_lt.mpr hfit), hg]
    simp only [if_neg (Nat.not_le.mpr hend)]
    cases hu : m.directive.underline <;> (rw [hu] at h; exact h)

theorem placeSlots_places {f : Frame α} {row column skip : Nat}
    {placed placed' : Placing α} {slots : List (Option (MeasuredCell α))}
    (h : placeSlots f row column skip placed slots = .ok placed') :
    ∃ cells, placed'.cells = placed.cells ++ cells ∧
      Places f column skip slots cells := by
  induction slots generalizing column skip placed with
  | nil =>
      rw [placeSlots] at h
      cases h
      exact ⟨[], (List.append_nil _).symm, .done⟩
  | cons slot rest ih =>
      cases skip with
      | succ skip =>
          rw [placeSlots] at h
          obtain ⟨cells, hc, hp⟩ := ih h
          exact ⟨cells, hc, .skipped hp⟩
      | zero =>
          cases slot with
          | none =>
              rw [placeSlots] at h
              obtain ⟨cells, hc, hp⟩ := ih h
              exact ⟨cells, hc, .covered hp⟩
          | some m =>
              obtain ⟨group, hfit, hg, _, h⟩ := placeSlots_cell.mp h
              obtain ⟨cells, hc, hp⟩ := ih h
              refine ⟨f.placedCell m column group :: cells, ?_,
                .cell hfit hg hp⟩
              rw [hc, Placing.withCell, List.append_assoc]
              rfl

omit [Scalar α] in
/-- A range of a row is inside the table, and its rule is placed. -/
theorem placeUnderlines_cons {f : Frame α} {row first last : Nat}
    {placed placed' : Placing α} {rest : List (Nat × Nat)} :
    placeUnderlines f row placed ((first, last) :: rest) = .ok placed' ↔
      (1 ≤ first ∧ first ≤ last ∧ last ≤ f.columnCount) ∧
        placeUnderlines f row
          (placed.withRule
            (.spanning (f.grid.offset (first - 1) + 1) (f.grid.offset last)
              f.grid.total) (first - 1) last) rest = .ok placed' := by
  rw [placeUnderlines]
  split
  · refine ⟨nofun, fun h => ?_⟩
    omega
  · rw [and_iff_right (by omega)]
    rfl

omit [Scalar α] in
theorem placeUnderlines_cells {f : Frame α} {row : Nat}
    {placed placed' : Placing α} {ranges : List (Nat × Nat)}
    (h : placeUnderlines f row placed ranges = .ok placed') :
    placed'.cells = placed.cells := by
  induction ranges generalizing placed with
  | nil => rw [placeUnderlines] at h; cases h; rfl
  | cons range rest ih =>
      have hrest := ih (placeUnderlines_cons.mp h).2
      exact hrest

/-- A row before anything is placed in it. -/
def Frame.emptyRow (f : Frame α) : Placing α :=
  ⟨[], [], List.replicate f.columnCount false⟩

/-- What has been placed of a row that is finished. -/
def PlacedRow.placing (row : PlacedRow α) : Placing α :=
  ⟨row.cells, row.rules, row.underlined⟩

/-- A row that is placed as some placing says. -/
def Row.placedAs (row : Row) (placed : Placing α) : PlacedRow α where
  cells := placed.cells
  rules := placed.rules
  underlined := placed.underlined
  header := row.header
  topSpace := row.topSpace
  bottomSpace := row.bottomSpace

/-- Of a row, first the cells are placed and then its own rules. -/
theorem placeRow_eq_ok {f : Frame α} {index : Nat} {row : Row}
    {slots : List (Option (MeasuredCell α))} {placed : PlacedRow α} :
    placeRow f index row slots = .ok placed ↔
      ∃ p q, placeSlots f index 0 0 f.emptyRow slots = .ok p ∧
        placeUnderlines f index p row.underlines = .ok q ∧
        placed = row.placedAs q := by
  rw [placeRow]
  simp only [Except.bind_eq_ok, Except.mapError_eq_ok, Except.pure_eq_ok]
  constructor
  · rintro ⟨p, hp, q, hq, rfl⟩
    exact ⟨p, q, hp, hq, rfl⟩
  · rintro ⟨p, q, hp, hq, rfl⟩
    exact ⟨p, hp, q, hq, rfl⟩

theorem placeRow_places {f : Frame α} {index : Nat} {row : Row}
    {slots : List (Option (MeasuredCell α))} {placed : PlacedRow α}
    (h : placeRow f index row slots = .ok placed) :
    Places f 0 0 slots placed.cells := by
  obtain ⟨p, q, hp, hq, rfl⟩ := placeRow_eq_ok.mp h
  obtain ⟨cells, hc, hplaces⟩ := placeSlots_places hp
  show Places f 0 0 slots q.cells
  rw [placeUnderlines_cells hq, hc]
  exact hplaces

/-! ## What every step keeps -/

section Preserves

variable {f : Frame α} {P : Placing α → Prop}

theorem placeSlots_preserves {row column skip : Nat}
    {placed placed' : Placing α} {slots : List (Option (MeasuredCell α))}
    (h : placeSlots f row column skip placed slots = .ok placed')
    (start : P placed)
    (cell : ∀ p i m group, slots[i]? = some (some m) →
      column + i + m.span ≤ f.columnCount → P p →
      P (p.withCell f m (column + i) group)) : P placed' := by
  induction slots generalizing column skip placed with
  | nil => rw [placeSlots] at h; cases h; exact start
  | cons slot rest ih =>
      have hrest : ∀ p i m group, rest[i]? = some (some m) →
          column + 1 + i + m.span ≤ f.columnCount → P p →
          P (p.withCell f m (column + 1 + i) group) := by
        intro p i m group hm hfit hp
        rw [show column + 1 + i = column + (i + 1) by omega] at hfit ⊢
        exact cell p (i + 1) m group hm hfit hp
      cases skip with
      | succ skip => exact ih (by rw [placeSlots] at h; exact h) start hrest
      | zero =>
          cases slot with
          | none => exact ih (by rw [placeSlots] at h; exact h) start hrest
          | some m =>
              obtain ⟨group, hfit, _, _, h⟩ := placeSlots_cell.mp h
              exact ih h (cell placed 0 m group rfl hfit start) hrest

omit [Scalar α] in
theorem placeUnderlines_preserves {row : Nat} {placed placed' : Placing α}
    {ranges : List (Nat × Nat)}
    (h : placeUnderlines f row placed ranges = .ok placed')
    (start : P placed)
    (range : ∀ p first last, (first, last) ∈ ranges → 1 ≤ first →
      first ≤ last → last ≤ f.columnCount → P p →
      P (p.withRule (.spanning (f.grid.offset (first - 1) + 1)
        (f.grid.offset last) f.grid.total) (first - 1) last)) : P placed' := by
  induction ranges generalizing placed with
  | nil => rw [placeUnderlines] at h; cases h; exact start
  | cons bounds rest ih =>
      obtain ⟨⟨hfirst, hlast, hfit⟩, h⟩ := placeUnderlines_cons.mp h
      exact ih h
        (range placed _ _ List.mem_cons_self hfirst hlast hfit start)
        fun p first last hmem => range p first last (List.mem_cons_of_mem _ hmem)

/-- What holds of an empty row, and of a row with a cell or a rule more if it
held before, holds of a row that is placed. -/
theorem placeRow_preserves {index : Nat} {row : Row}
    {slots : List (Option (MeasuredCell α))} {placed : PlacedRow α}
    (h : placeRow f index row slots = .ok placed)
    (start : P ⟨[], [], List.replicate f.columnCount false⟩)
    (cell : ∀ p column m group, slots[column]? = some (some m) →
      column + m.span ≤ f.columnCount → P p → P (p.withCell f m column group))
    (range : ∀ p first last, (first, last) ∈ row.underlines → 1 ≤ first →
      first ≤ last → last ≤ f.columnCount → P p →
      P (p.withRule (.spanning (f.grid.offset (first - 1) + 1)
        (f.grid.offset last) f.grid.total) (first - 1) last)) :
    P placed.placing := by
  obtain ⟨p, q, hp, hq, rfl⟩ := placeRow_eq_ok.mp h
  refine placeUnderlines_preserves hq (placeSlots_preserves hp start ?_) range
  intro p i m group hm hfit hp
  rw [Nat.zero_add] at hfit ⊢
  exact cell p i m group hm hfit hp

omit [Scalar α] in
theorem placeUnderlines_ranges {row : Nat} {placed placed' : Placing α}
    {ranges : List (Nat × Nat)}
    (h : placeUnderlines f row placed ranges = .ok placed') :
    ∀ range ∈ ranges,
      1 ≤ range.1 ∧ range.1 ≤ range.2 ∧ range.2 ≤ f.columnCount := by
  induction ranges generalizing placed with
  | nil => exact fun _ hr => nomatch hr
  | cons bounds rest ih =>
      obtain ⟨hbounds, h⟩ := placeUnderlines_cons.mp h
      intro range hr
      rcases List.mem_cons.mp hr with rfl | hr
      · exact hbounds
      · exact ih h range hr

/-- The ranges of a row that is placed are inside of the table. -/
theorem placeRow_ranges {index : Nat} {row : Row}
    {slots : List (Option (MeasuredCell α))} {placed : PlacedRow α}
    (h : placeRow f index row slots = .ok placed) :
    ∀ range ∈ row.underlines,
      1 ≤ range.1 ∧ range.1 ≤ range.2 ∧ range.2 ≤ f.columnCount := by
  obtain ⟨_, _, _, hunderlines, _⟩ := placeRow_eq_ok.mp h
  exact placeUnderlines_ranges hunderlines

end Preserves

/-! ## Row by row -/

section Entries

variable {β γ : Type} {R : β → γ → Prop} {xs : List β} {ys : List γ}

theorem forall₂_getElem? (h : List.Forall₂ R xs ys) (i : Nat) :
    Option.Rel R xs[i]? ys[i]? := by
  induction h generalizing i with
  | nil => exact .none
  | cons hfirst _ ih =>
      cases i with
      | zero => exact .some hfirst
      | succ i => exact ih i

theorem forall₂_at (h : List.Forall₂ R xs ys) {i : Nat} {x : β}
    (hi : xs[i]? = some x) : ∃ y, ys[i]? = some y ∧ R x y := by
  have hrelated := forall₂_getElem? h i
  rw [hi] at hrelated
  generalize ys[i]? = found at hrelated ⊢
  cases hrelated with
  | some hy => exact ⟨_, rfl, hy⟩

end Entries

section Number

variable {f : Frame α}

/-- The number of a row is looked at only if the row is refused. -/
theorem placeSlots_number {i j column skip : Nat} {placed placed' : Placing α}
    {slots : List (Option (MeasuredCell α))} :
    placeSlots f i column skip placed slots = .ok placed' ↔
      placeSlots f j column skip placed slots = .ok placed' := by
  induction slots generalizing column skip placed with
  | nil => rw [placeSlots, placeSlots]
  | cons slot rest ih =>
      cases skip with
      | succ skip => exact ih
      | zero =>
          cases slot with
          | none => exact ih
          | some m =>
              rw [placeSlots_cell, placeSlots_cell]
              simp only [ih]

omit [Scalar α] in
theorem placeUnderlines_number {i j : Nat} {placed placed' : Placing α}
    {ranges : List (Nat × Nat)} :
    placeUnderlines f i placed ranges = .ok placed' ↔
      placeUnderlines f j placed ranges = .ok placed' := by
  induction ranges generalizing placed with
  | nil => rw [placeUnderlines, placeUnderlines]
  | cons range rest ih =>
      rw [placeUnderlines_cons, placeUnderlines_cons, ih]

theorem placeRow_number {i j : Nat} {row : Row}
    {slots : List (Option (MeasuredCell α))} {placed : PlacedRow α} :
    placeRow f i row slots = .ok placed ↔
      placeRow f j row slots = .ok placed := by
  simp only [placeRow_eq_ok, placeSlots_number (i := i) (j := j),
    placeUnderlines_number (i := i) (j := j)]

/-- Rows are placed one by one. -/
theorem placeRows_eq_ok {index : Nat}
    {rows : List (Row × List (Option (MeasuredCell α)))}
    {placed : List (PlacedRow α)} :
    placeRows f index rows = .ok placed ↔
      List.Forall₂ (fun row p => placeRow f 0 row.1 row.2 = .ok p)
        rows placed := by
  induction rows generalizing index placed with
  | nil =>
      rw [placeRows, Except.ok.injEq, List.forall₂_nil_left_iff, eq_comm]
  | cons row rows ih =>
      rw [placeRows, List.forall₂_cons_left_iff]
      simp only [Except.bind_eq_ok, Except.pure_eq_ok, ih,
        placeRow_number (i := index) (j := 0)]
      constructor
      · rintro ⟨first, hfirst, rest, hrest, rfl⟩
        exact ⟨first, rest, hfirst, hrest, rfl⟩
      · rintro ⟨first, rest, hfirst, hrest, rfl⟩
        exact ⟨first, hfirst, rest, hrest, rfl⟩

theorem placeRows_getElem? {index : Nat}
    {rows : List (Row × List (Option (MeasuredCell α)))}
    {placed : List (PlacedRow α)} (h : placeRows f index rows = .ok placed) :
    placed.length = rows.length ∧
      ∀ (i : Nat) (r : Row) (slots : List (Option (MeasuredCell α))),
        rows[i]? = some (r, slots) →
        ∃ p, placed[i]? = some p ∧ placeRow f (index + i) r slots = .ok p := by
  have hrows := placeRows_eq_ok.mp h
  refine ⟨hrows.length_eq.symm, fun i r slots hi => ?_⟩
  obtain ⟨p, hp, hplace⟩ := forall₂_at hrows hi
  exact ⟨p, hp, placeRow_number.mp hplace⟩

end Number

/-- A row of a layout is a placed one, or one that nothing ran below and that
got the rule below the header. -/
def PlacedRow.Finishes (row placed : PlacedRow α) : Prop :=
  row = placed ∨ placed.rules = [] ∧ row = placed.withFullRule

namespace PlacedRow.Finishes

variable {row placed : PlacedRow α}

omit [Scalar α] in
theorem cells (h : row.Finishes placed) : row.cells = placed.cells := by
  rcases h with rfl | ⟨_, rfl⟩ <;> rfl

omit [Scalar α] in
theorem length_underlined (h : row.Finishes placed) :
    row.underlined.length = placed.underlined.length := by
  rcases h with rfl | ⟨_, rfl⟩
  · rfl
  · exact List.length_map _

end PlacedRow.Finishes

omit [Scalar α] in
theorem ruleHeader_finishes (rows : List (PlacedRow α)) :
    List.Forall₂ PlacedRow.Finishes (ruleHeader rows) rows := by
  induction rows with
  | nil => exact .nil
  | cons row above ih =>
      rw [ruleHeader]
      split
      · refine .cons ?_ (List.forall₂_same.mpr fun _ _ => .inl rfl)
        split
        · next hempty => exact .inr ⟨List.isEmpty_iff.mp hempty, rfl⟩
        · exact .inl rfl
      · exact .cons (.inl rfl) ih

theorem Compilation.rows_finish {t : Table α} {s : Session α}
    (c : Compilation t s) :
    List.Forall₂ PlacedRow.Finishes c.layout.rows c.placed := by
  rw [← List.forall₂_reverse_iff]
  show List.Forall₂ _ (ruleHeader c.placed.reverse).reverse.reverse _
  rw [List.reverse_reverse]
  exact ruleHeader_finishes c.placed.reverse

/-! ## What the first pass hands over -/

/-- A pass that answers for one entry after the other and gathers complaints
answers for each entry by itself. -/
theorem gathers_eq_ok {β γ δ ε : Type} {step : β → Except ε (γ × List δ)}
    {pass : List β → Except ε (List γ × List δ)} (hnil : pass [] = .ok ([], []))
    (hcons : ∀ x xs, pass (x :: xs) = step x >>= fun first =>
      pass xs >>= fun rest => .ok (first.1 :: rest.1, first.2 ++ rest.2))
    {xs : List β} {ys : List γ} {ws : List δ} :
    pass xs = .ok (ys, ws) ↔
      ∃ answers, List.Forall₂ (fun x answer => step x = .ok answer) xs answers ∧
        ys = answers.map Prod.fst ∧ ws = answers.flatMap Prod.snd := by
  induction xs generalizing ys ws with
  | nil =>
      rw [hnil, Except.ok.injEq, Prod.mk.injEq]
      constructor
      · rintro ⟨rfl, rfl⟩
        exact ⟨[], .nil, rfl, rfl⟩
      · rintro ⟨_, ⟨⟩, rfl, rfl⟩
        exact ⟨rfl, rfl⟩
  | cons x xs ih =>
      rw [hcons]
      constructor
      · intro h
        obtain ⟨first, hfirst, h⟩ := Except.bind_eq_ok.mp h
        obtain ⟨rest, hrest, h⟩ := Except.bind_eq_ok.mp h
        cases h
        obtain ⟨answers, hanswers, hys, hws⟩ := ih.mp hrest
        exact ⟨first :: answers, .cons hfirst hanswers, by rw [hys]; rfl,
          by rw [hws]; rfl⟩
      · rintro ⟨_, hanswers, rfl, rfl⟩
        cases hanswers with
        | cons hfirst hanswers =>
            exact Except.bind_eq_ok.mpr ⟨_, hfirst, Except.bind_eq_ok.mpr
              ⟨_, ih.mpr ⟨_, hanswers, rfl, rfl⟩, rfl⟩⟩

theorem measureSlots_eq_ok {lenient : Bool} {slots : List Slot}
    {measured : List (Option (MeasuredCell α))} {ws : List Warning} :
    measureSlots lenient slots = .ok (measured, ws) ↔
      ∃ answers, List.Forall₂
        (fun slot answer => measureSlot lenient slot = .ok answer)
          slots answers ∧
        measured = answers.map Prod.fst ∧ ws = answers.flatMap Prod.snd :=
  gathers_eq_ok rfl fun _ _ => rfl

/-- Rows are measured one by one. -/
theorem measureRows_eq_ok {lenient : Bool} {rows : List Row}
    {measured : List (List (Option (MeasuredCell α)))} {ws : List Warning} :
    measureRows lenient rows = .ok (measured, ws) ↔
      ∃ answers, List.Forall₂
        (fun row answer => measureSlots lenient row.slots = .ok answer)
          rows answers ∧
        measured = answers.map Prod.fst ∧ ws = answers.flatMap Prod.snd :=
  gathers_eq_ok rfl fun _ _ => rfl

/-- What is measured in a slot: nothing if it is covered, and else its cell with
what was taken out of that. -/
theorem measureSlot_cases {lenient : Bool} {slot : Slot}
    {found : Option (MeasuredCell α)} {ws : List Warning}
    (h : measureSlot lenient slot = .ok (found, ws)) :
    (slot = .covered ∧ found = none) ∨
      ∃ m, slot = .cell m.cell ∧ found = some m ∧
        Directive.extract m.cell.content lenient =
          .ok (m.directive, m.content, ws) := by
  cases slot with
  | covered =>
      cases h
      exact .inl ⟨rfl, rfl⟩
  | cell cell =>
      rw [measureSlot] at h
      obtain ⟨⟨d, content, ws⟩, hd, h⟩ := Except.bind_eq_ok.mp h
      cases h
      exact .inr ⟨_, rfl, rfl, hd⟩

theorem measureSlots_each {lenient : Bool} {slots : List Slot}
    {measured : List (Option (MeasuredCell α))} {warnings : List Warning}
    (h : measureSlots lenient slots = .ok (measured, warnings)) :
    List.Forall₂ (fun slot found => ∃ ws,
      measureSlot lenient slot = .ok (found, ws)) slots measured := by
  obtain ⟨answers, hanswers, rfl, _⟩ := measureSlots_eq_ok.mp h
  rw [List.forall₂_map_right_iff]
  exact hanswers.imp fun _ answer hanswer => ⟨answer.2, hanswer⟩

theorem measureSlots_getElem? {lenient : Bool} {slots : List Slot}
    {measured : List (Option (MeasuredCell α))} {warnings : List Warning}
    (h : measureSlots lenient slots = .ok (measured, warnings)) :
    measured.length = slots.length ∧
      ∀ i : Nat, measured[i]? = some none ↔ slots[i]? = some Slot.covered := by
  have heach := measureSlots_each h
  refine ⟨heach.length_eq.symm, fun i => ?_⟩
  have hslot := forall₂_getElem? heach i
  generalize measured[i]? = found, slots[i]? = slot at hslot ⊢
  cases hslot with
  | none => exact ⟨nofun, nofun⟩
  | some hmeasure =>
      obtain ⟨ws, hmeasure⟩ := hmeasure
      rcases measureSlot_cases hmeasure with ⟨rfl, rfl⟩ | ⟨m, rfl, rfl, _⟩
      · exact ⟨fun _ => rfl, fun _ => rfl⟩
      · simp

/-- A measured cell is the one in its slot, with what was taken out of that. -/
theorem measureSlots_cell {lenient : Bool} {slots : List Slot}
    {measured : List (Option (MeasuredCell α))} {warnings : List Warning}
    (h : measureSlots lenient slots = .ok (measured, warnings)) {i : Nat}
    {m : MeasuredCell α} (hm : measured[i]? = some (some m)) :
    slots[i]? = some (.cell m.cell) ∧
      ∃ ws, Directive.extract m.cell.content lenient =
        .ok (m.directive, m.content, ws) := by
  obtain ⟨slot, hslot, ws, hmeasure⟩ := forall₂_at (measureSlots_each h).flip hm
  rcases measureSlot_cases hmeasure with ⟨_, hnone⟩ | ⟨_, rfl, heq, hextract⟩
  · cases hnone
  · cases heq
    exact ⟨hslot, ws, hextract⟩

theorem measureRows_getElem? {lenient : Bool} {rows : List Row}
    {measured : List (List (Option (MeasuredCell α)))}
    {warnings : List Warning}
    (h : measureRows lenient rows = .ok (measured, warnings)) :
    measured.length = rows.length ∧
      ∀ (i : Nat) (r : Row), rows[i]? = some r →
        ∃ slots ws, measured[i]? = some slots ∧
          measureSlots lenient r.slots = .ok (slots, ws) := by
  obtain ⟨answers, hanswers, rfl, _⟩ := measureRows_eq_ok.mp h
  refine ⟨by rw [List.length_map, hanswers.length_eq], fun i r hi => ?_⟩
  obtain ⟨answer, hanswer, hmeasure⟩ := forall₂_at hanswers hi
  refine ⟨answer.1, answer.2, ?_, hmeasure⟩
  rw [List.getElem?_map, hanswer]
  rfl

theorem Compilation.length_rows {t : Table α} {s : Session α}
    (c : Compilation t s) : c.layout.rows.length = t.rows.length := by
  rw [c.rows_finish.length_eq, (placeRows_getElem? c.places).1,
    List.length_zip, (measureRows_getElem? c.measures).1, Nat.min_self]

/-- What a row of a layout comes from: the source row in its place, the slots
that were measured in that, and what was placed of them. -/
theorem Compilation.row_at {t : Table α} {s : Session α}
    (c : Compilation t s) {i : Nat} {source : Row} {row : PlacedRow α}
    (hsource : t.rows[i]? = some source)
    (hrow : c.layout.rows[i]? = some row) :
    ∃ slots ws placed, c.measured[i]? = some slots ∧
      measureSlots s.options.lenient source.slots = .ok (slots, ws) ∧
      placeRow c.frame i source slots = .ok placed ∧
      row.Finishes placed := by
  obtain ⟨slots, ws, hslots, hmeasure⟩ :=
    (measureRows_getElem? c.measures).2 i source hsource
  obtain ⟨placed, hplaced, hplace⟩ := (placeRows_getElem? c.places).2 i source
    slots (List.getElem?_zip_eq_some.mpr ⟨hsource, hslots⟩)
  rw [Nat.zero_add] at hplace
  obtain ⟨found, hfound, hfinish⟩ := forall₂_at c.rows_finish hrow
  obtain rfl := Option.some.inj (hplaced.symm.trans hfound)
  exact ⟨slots, ws, placed, hslots, hmeasure, hplace, hfinish⟩

theorem Compilation.row_source {t : Table α} {s : Session α}
    (c : Compilation t s) {row : PlacedRow α} (h : row ∈ c.layout.rows) :
    ∃ i source slots placed, source ∈ t.rows ∧ slots ∈ c.measured ∧
      placeRow c.frame i source slots = .ok placed ∧ row.Finishes placed := by
  obtain ⟨i, hi⟩ := List.getElem?_of_mem h
  have hlt := (List.getElem?_eq_some_iff.mp hi).1
  rw [c.length_rows] at hlt
  have hsource := List.getElem?_eq_getElem hlt
  obtain ⟨slots, _, placed, hslots, _, hplace, hfinish⟩ := c.row_at hsource hi
  exact ⟨i, _, slots, placed, List.mem_of_getElem? hsource,
    List.mem_of_getElem? hslots, hplace, hfinish⟩

theorem Compilation.source_placed {t : Table α} {s : Session α}
    (c : Compilation t s) {source : Row} (h : source ∈ t.rows) :
    ∃ i slots placed, placeRow c.frame i source slots = .ok placed := by
  obtain ⟨i, hi⟩ := List.getElem?_of_mem h
  have hlt := (List.getElem?_eq_some_iff.mp hi).1
  rw [← c.length_rows] at hlt
  obtain ⟨slots, _, placed, _, _, hplace, _⟩ :=
    c.row_at hi (List.getElem?_eq_getElem hlt)
  exact ⟨i, slots, placed, hplace⟩

end Tabulation
