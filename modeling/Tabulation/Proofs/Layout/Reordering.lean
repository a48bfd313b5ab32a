import Mathlib.Data.List.Perm.Basic
import Tabulation.Proofs.Layout.Columns
import Tabulation.Proofs.Layout.Placement
import Tabulation.Proofs.Leniency.Session
import Tabulation.Proofs.Session.Attempt

/-!
# Rows do not know of each other

All that a row shares with the others is the grid, and the depths of the grid
are the greatest ones that any row needs, so the order in which rows are
measured does not matter for them. What is placed of a row depends on the row,
on its measured slots and on the grid, and on its number only for an error. So
a table without a header, below which a rule would be put, may have its rows in
any order: they are laid out as before, and their complaints come in the new
order.
-/

namespace Tabulation

open Column

/-! ## Another order -/

section Arranged

variable {β γ : Type}

/-- The entries of a list at some places, in the order of the places. -/
def arranged (order : List Nat) (xs : List β) : List β :=
  order.filterMap fun i => xs[i]?

theorem arranged_range (xs : List β) :
    arranged (List.range xs.length) xs = xs := by
  induction xs with
  | nil => rfl
  | cons x xs ih =>
      rw [arranged] at ih ⊢
      rw [List.length_cons, List.range_succ_eq_map, List.filterMap_cons,
        List.filterMap_map]
      exact congrArg (x :: ·) ih

theorem arranged_perm {order : List Nat} {xs : List β}
    (h : order.Perm (List.range xs.length)) : (arranged order xs).Perm xs :=
  (h.filterMap _).trans (.of_eq (arranged_range xs))

theorem arranged_map (f : β → γ) (order : List Nat) (xs : List β) :
    arranged order (xs.map f) = (arranged order xs).map f := by
  rw [arranged, arranged, List.map_filterMap]
  simp only [List.getElem?_map]

theorem forall₂_arranged {R : β → γ → Prop} {xs : List β} {ys : List γ}
    (h : List.Forall₂ R xs ys) (order : List Nat) :
    List.Forall₂ R (arranged order xs) (arranged order ys) := by
  exact List.rel_filterMap (R := Eq)
    (fun i _ heq => heq ▸ forall₂_getElem? h i) (List.forall₂_refl order)

theorem arranged_zip {xs : List β} {ys : List γ} (h : xs.length = ys.length)
    (order : List Nat) :
    arranged order (xs.zip ys) =
      (arranged order xs).zip (arranged order ys) := by
  have hfirst : (xs.zip ys).map Prod.fst = xs :=
    List.map_fst_zip (Nat.le_of_eq h)
  have hsecond : (xs.zip ys).map Prod.snd = ys :=
    List.map_snd_zip (Nat.le_of_eq h.symm)
  refine List.zip_of_prod ?_ ?_
  · rw [← arranged_map, hfirst]
  · rw [← arranged_map, hsecond]

end Arranged

variable {α : Type}

/-! ## Measured rows -/

theorem zipWith_max_right_comm (depths xs ys : List Nat) :
    (depths.zipWith max xs).zipWith max ys =
      (depths.zipWith max ys).zipWith max xs := by
  induction depths generalizing xs ys with
  | nil => rfl
  | cons depth depths ih =>
      cases xs with
      | nil => simp
      | cons x xs =>
          cases ys with
          | nil => rfl
          | cons y ys =>
              simp only [List.zipWith_cons_cons, ih, Nat.max_right_comm]

/-- The depths do not depend on the order of the rows. -/
theorem measureDepths_perm {rows rows' : List (List (Option (MeasuredCell α)))}
    (h : rows'.Perm rows) (count : Nat) :
    measureDepths count rows' = measureDepths count rows :=
  h.foldl_eq' (fun _ _ _ _ depths => zipWith_max_right_comm depths _ _) _

variable [Scalar α]

/-! ## Placed rows -/

section Place

variable {f : Frame α}

theorem placeRow_header {index : Nat} {row : Row}
    {slots : List (Option (MeasuredCell α))} {placed : PlacedRow α}
    (h : placeRow f index row slots = .ok placed) :
    placed.header = row.header := by
  obtain ⟨_, _, _, _, rfl⟩ := placeRow_eq_ok.mp h
  rfl

omit [Scalar α] in
theorem ruleHeader_body {rows : List (PlacedRow α)}
    (h : ∀ row ∈ rows, row.header = false) : ruleHeader rows = rows := by
  induction rows with
  | nil => rfl
  | cons row rows ih =>
      rw [List.forall_mem_cons] at h
      rw [ruleHeader, h.1, if_neg Bool.false_ne_true, ih h.2]

end Place

/-! ## Tables -/

omit [Scalar α] in
theorem validate_perm {t : Table α} {count : Nat} {rows : List Row}
    (h : t.validate = .ok count) (hrows : rows.Perm t.rows) :
    ({ t with rows } : Table α).validate = .ok count := by
  obtain ⟨⟨hpos, hcount⟩, hfills⟩ := validate_eq_ok.mp h
  have hfills' : ∀ row ∈ rows, row.Fills count :=
    fun row hrow => hfills row (hrows.subset hrow)
  refine validate_eq_ok.mpr ⟨⟨hpos, ?_⟩, hfills'⟩
  rw [Table.columnCount]
  split
  · next hempty =>
      have hempty : rows = [] := hempty
      have hnone : t.rows = [] := (hempty ▸ hrows).symm.eq_nil
      rw [Table.columnCount, hnone] at hcount
      exact hcount
  · next row rest hfirst =>
      have hfirst : rows = row :: rest := hfirst
      exact (hfills' row (hfirst ▸ List.mem_cons_self)).claims.symm

namespace Compilation

variable {t : Table α} {s : Session α} (c : Compilation t s)

/-- Only errors tell the number of a row, so each row is placed as the first
one would be. -/
theorem rows_placed : List.Forall₂
    (fun row p => placeRow c.frame 0 row.1 row.2 = .ok p)
      (t.rows.zip c.measured) c.placed :=
  placeRows_eq_ok.mp c.places

/-- Where no row is a header, the rows of the layout are the placed ones. -/
theorem layout_rows (h : ∀ row ∈ t.rows, row.header = false) :
    c.layout.rows = c.placed := by
  have hbody : ∀ row ∈ c.placed.reverse, row.header = false := by
    intro row hrow
    obtain ⟨i, hi⟩ := List.getElem?_of_mem (List.mem_reverse.mp hrow)
    obtain ⟨source, hsource, hplace⟩ := forall₂_at c.rows_placed.flip hi
    have hmem := (List.of_mem_zip (List.mem_of_getElem? hsource)).1
    exact (placeRow_header hplace).trans (h source.1 hmem)
  show (ruleHeader c.placed.reverse).reverse = c.placed
  rw [ruleHeader_body hbody, List.reverse_reverse]

/-- The stages answer the same for rows in another order, row by row. -/
theorem exists_arranged {order : List Nat}
    (horder : order.Perm (List.range t.rows.length)) :
    ∃ d : Compilation { t with rows := arranged order t.rows } s,
      d.replaced = c.replaced ∧ d.columns = c.columns ∧ d.widths = c.widths ∧
        d.depths = c.depths ∧ d.placed = arranged order c.placed ∧
        d.ignored.Perm c.ignored := by
  obtain ⟨answers, hanswers, hmeasured, hignored⟩ :=
    measureRows_eq_ok.mp c.measures
  have hlength : answers.length = t.rows.length := hanswers.length_eq.symm
  have hperm : (arranged order answers).Perm answers :=
    arranged_perm (hlength ▸ horder)
  have hslots : (arranged order answers).map Prod.fst =
      arranged order c.measured := by
    rw [hmeasured, arranged_map]
  have hdepths : measureDepths c.count ((arranged order answers).map Prod.fst) =
      c.depths := by
    rw [depths, hmeasured]
    exact measureDepths_perm (hperm.map Prod.fst) c.count
  have hpairs : (arranged order t.rows).zip
      ((arranged order answers).map Prod.fst) =
        arranged order (t.rows.zip c.measured) := by
    rw [hslots, arranged_zip (by rw [hmeasured, List.length_map, hlength])]
  refine ⟨{
    count := c.count
    replaced := c.replaced
    columns := c.columns
    widths := c.widths
    measured := (arranged order answers).map Prod.fst
    ignored := (arranged order answers).flatMap Prod.snd
    placed := arranged order c.placed
    valid := validate_perm c.valid (arranged_perm horder)
    resolved := c.resolved
    measures := measureRows_eq_ok.mpr
      ⟨_, forall₂_arranged hanswers order, rfl, rfl⟩
    places := ?_ }, rfl, rfl, rfl, hdepths, rfl, ?_⟩
  · rw [hdepths, hpairs]
    exact placeRows_eq_ok.mpr (forall₂_arranged c.rows_placed order)
  · rw [hignored]
    exact hperm.flatMap_right _

end Compilation

/-- A table without a header row may have its rows in any order. It is laid out
again, on the same columns and under the same names; each row is laid out as it
was where it stood before, and apart from the order in which it complains the
session is the same. -/
theorem compile_arranged {t : Table α} {s s' : Session α} {layout : Layout α}
    (h : compile t s = (.ok layout, s'))
    (hbody : ∀ row ∈ t.rows, row.header = false) {order : List Nat}
    (horder : order.Perm (List.range t.rows.length)) :
    ∃ warnings, warnings.Perm s'.warnings ∧
      compile { t with rows := arranged order t.rows } s =
        (.ok { layout with rows := arranged order layout.rows },
          { s' with warnings }) := by
  obtain ⟨c, rfl, rfl⟩ := compile_eq_ok_iff.mp h
  obtain ⟨d, hreplaced, hcolumns, hwidths, hdepths, hplaced, hignored⟩ :=
    c.exists_arranged horder
  refine ⟨s.warnings ++ d.replaced ++ d.ignored, ?_,
    compile_eq_ok_iff.mpr ⟨d, ?_, ?_⟩⟩
  · rw [c.session_warnings, hreplaced]
    exact hignored.append_left _
  · have hrows : d.layout.rows = arranged order c.layout.rows := by
      rw [c.layout_rows hbody, d.layout_rows, hplaced]
      exact fun row hrow => hbody row ((arranged_perm horder).subset hrow)
    rw [← hrows]
    simp only [Compilation.layout, Compilation.frame, Table.frame, hcolumns,
      hwidths, hdepths]
    rfl
  · rw [Compilation.session, Compilation.session, registerNotes_eq,
      registerNotes_eq]
    rfl

/-- An indented cell, a covered column with a rule below it, and a cell with
options that are not taken. -/
def mixedTable : Table Float where
  rows :=
    [Row.spanned
      [.cell { content := [.word "~~~", .word "a"] },
        .cell { content := [.word "b"] }],
      Row.spanned
        [.cell { content := [.word "c", .space, .word "_"], span := 2 }],
      Row.spanned
        [.cell { content := [.raw "multicolumn" "0", .word "d"] },
          .cell { content := [.word "e"] }]]
  attributes := Attributes.default

theorem compile_mixedTable : ∃ layout s' warnings,
    compile mixedTable { options := Options.default } = (.ok layout, s') ∧
      (∀ row ∈ mixedTable.rows, row.header = false) ∧
      [2, 0, 1].Perm (List.range mixedTable.rows.length) ∧
      warnings.Perm s'.warnings ∧ warnings.length = 1 ∧
      compile { mixedTable with rows := arranged [2, 0, 1] mixedTable.rows }
        { options := Options.default } =
          (.ok { layout with rows := arranged [2, 0, 1] layout.rows },
            { s' with warnings }) := by
  have hbody : ∀ row ∈ mixedTable.rows, row.header = false := by
    intro row hrow
    simp only [mixedTable, List.mem_cons, List.not_mem_nil, or_false] at hrow
    rcases hrow with rfl | rfl | rfl <;> rfl
  have horder : [2, 0, 1].Perm (List.range mixedTable.rows.length) := by
    decide
  have hlaid : (compile mixedTable
      { options := Options.default }).1.toOption.isSome = true := by
    decide +kernel
  have hcomplains : (compile mixedTable
      { options := Options.default }).2.warnings.length = 1 := by
    decide +kernel
  cases hcompile : compile mixedTable { options := Options.default } with
  | mk answer s' =>
      rw [hcompile] at hlaid hcomplains
      cases answer with
      | error e => cases hlaid
      | ok layout =>
          obtain ⟨warnings, hwarnings, h⟩ :=
            compile_arranged hcompile hbody horder
          exact ⟨layout, s', warnings, rfl, hbody, horder, hwarnings,
            hwarnings.length_eq.trans hcomplains, h⟩

end Tabulation
