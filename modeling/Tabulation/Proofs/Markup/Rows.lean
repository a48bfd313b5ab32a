import Mathlib
import Tabulation.Proofs.Layout.Validation
import Tabulation.Proofs.Markup.Values

/-!
# Rows that are read

The rows of a document can be found without reading it: they are the elements
named `row` that stand in no heading, and the tags between the two ends of a row
are those of its cells, texts apart. The readers call one another for each kind
of element, and each takes a part of the events. A part holds the rows that the
reader makes, in their order, and no others. Whatever is read of a row is sound
in itself, so the rows of a table disagree in nothing but the number of columns
that they claim.
-/

namespace Tabulation.Markup

open Xml (Event Stream Tag)

/-! ## Rows of a stream -/

/-- The tags of cells up to the end of a row; `inside` says that the text of a
cell is being passed over. -/
def cellTags (inside : Bool) : Stream → List Tag
  | .next (.start tag) _ rest =>
      if inside then cellTags true rest else tag :: cellTags true rest
  | .next (.empty tag) _ rest =>
      if inside then cellTags true rest else tag :: cellTags false rest
  | .next (.finish closed) _ rest =>
      if inside then cellTags (closed ≠ "cell") rest
      else if closed = "row" then [] else cellTags false rest
  | .next _ _ rest => cellTags inside rest
  | .finish _ => []
  | .fault _ => []

/-- The rows of a stream, each with the tags of its cells; `skipped` headings
are open, of which the content is passed over. -/
def rowsFrom (skipped : Nat) : Stream → List (List Tag)
  | .next (.start tag) _ rest =>
      if tag.name = "heading" then rowsFrom (skipped + 1) rest
      else if tag.name = "row" ∧ skipped = 0 then
        cellTags false rest :: rowsFrom skipped rest
      else rowsFrom skipped rest
  | .next (.empty tag) _ rest =>
      if tag.name = "row" ∧ skipped = 0 then [] :: rowsFrom skipped rest
      else rowsFrom skipped rest
  | .next (.finish closed) _ rest =>
      rowsFrom (if closed = "heading" then skipped - 1 else skipped) rest
  | .next _ _ rest => rowsFrom skipped rest
  | .finish _ => []
  | .fault _ => []

section

variable {position : Nat} {rest : Stream}

theorem rowsFrom_start {tag : Tag} {name : String} (hname : tag.name = name)
    (hheading : name ≠ "heading") (hrow : name ≠ "row") :
    rowsFrom 0 (.next (.start tag) position rest) = rowsFrom 0 rest := by
  subst hname
  rw [rowsFrom, if_neg hheading, if_neg fun h => hrow h.1]

theorem rowsFrom_empty {tag : Tag} {name : String} (hname : tag.name = name)
    (hrow : name ≠ "row") :
    rowsFrom 0 (.next (.empty tag) position rest) = rowsFrom 0 rest := by
  subst hname
  rw [rowsFrom, if_neg fun h => hrow h.1]

theorem rowsFrom_finish (closed : String) :
    rowsFrom 0 (.next (.finish closed) position rest) = rowsFrom 0 rest := by
  rw [rowsFrom, Nat.zero_sub, ite_self]

/-- Events that are no tags carry no rows and no cells. -/
theorem rowsFrom_other {event : Event} (hstart : ∀ tag, event ≠ .start tag)
    (hempty : ∀ tag, event ≠ .empty tag)
    (hfinish : ∀ closed, event ≠ .finish closed) :
    rowsFrom 0 (.next event position rest) = rowsFrom 0 rest ∧
      cellTags false (.next event position rest) = cellTags false rest := by
  cases event with
  | start tag => exact absurd rfl (hstart tag)
  | empty tag => exact absurd rfl (hempty tag)
  | finish closed => exact absurd rfl (hfinish closed)
  | text escaped => exact ⟨rfl, rfl⟩
  | cdata text => exact ⟨rfl, rfl⟩
  | other => exact ⟨rfl, rfl⟩

end

theorem takeText_rows {name text : String} {s : Stream} {r : Read String}
    (h : takeText name text s = .ok r) :
    rowsFrom 0 s = rowsFrom 0 r.rest ∧
      (name = "cell" → cellTags true s = cellTags false r.rest) := by
  fun_induction takeText name text s with
  | case1 => cases h
  | case2 => cases h
  | case3 => cases h
  | case4 _ _ _ _ _ _ ih => exact ih h
  | case5 _ _ _ _ ih => exact ih h
  | case6 =>
      cases h
      refine ⟨rowsFrom_finish _, ?_⟩
      rintro rfl
      rw [cellTags, if_pos rfl, decide_eq_false (not_not.mpr rfl)]
  | case7 _ closed _ _ hne ih =>
      obtain ⟨hrows, hcells⟩ := ih h
      refine ⟨(rowsFrom_finish closed).trans hrows, fun hname => ?_⟩
      rw [cellTags, if_pos rfl, decide_eq_true (hname ▸ hne)]
      exact hcells hname
  | case8 => cases h
  | case9 => cases h
  | case10 _ _ _ ih => exact ih h

/-! ## What is read of a row -/

/-- What is read of a row, from the tags of its cells. -/
structure Gives (cells : List Tag) (row : Row) : Prop where
  slots : row.slots = (Row.spanned (row.cells.map .cell)).slots
  groups : ∃ groups, List.Forall₂ Repeats cells groups ∧
    row.cells = groups.flatten
  underlines : ∀ range ∈ row.underlines, 1 ≤ range.1 ∧ 1 ≤ range.2

theorem cells_spanned (cells : List Cell) :
    (Row.spanned (cells.map .cell)).cells = cells := by
  induction cells with
  | nil => rfl
  | cons c cells ih =>
      rw [Row.cells, Row.spanned] at ih ⊢
      rw [List.map_cons, List.flatMap_cons, Slot.withCovered, List.cons_append,
        List.filterMap_cons_some (f := Slot.cell?) (b := c) rfl,
        List.filterMap_append, ih, List.filterMap_replicate_of_none rfl,
        List.nil_append]

/-- A row that is made of some groups of cells. -/
theorem rowOf_gives {position : Nat} {tag : Tag} {cells : List Cell} {row : Row}
    (h : rowOf position tag cells = .ok row) {tags : List Tag}
    {groups : List (List Cell)} (hgroups : List.Forall₂ Repeats tags groups)
    (hcells : cells = groups.flatten) : Gives tags row := by
  obtain ⟨hslots, hunderlines⟩ := rowOf_eq_ok h
  have hrow : row.cells = cells := by
    rw [Row.cells, hslots]
    exact cells_spanned cells
  exact ⟨by rw [hrow, hslots], ⟨groups, hgroups, hrow.trans hcells⟩,
    hunderlines⟩

/-! ## Readers -/

theorem takeCells_rows {cells : List Cell} {s : Stream} {r : Read (List Cell)}
    (h : takeCells cells s = .ok r) : rowsFrom 0 s = rowsFrom 0 r.rest := by
  fun_induction takeCells cells s with
  | case6 _ tag _ _ hname _ _ _ htext =>
      rename_i ih
      rw [rowsFrom_start hname (by decide) (by decide),
        (takeText_rows htext).1]
      exact ih h
  | case10 _ tag _ _ hname =>
      rename_i ih
      rw [rowsFrom_empty hname (by decide)]
      exact ih h
  | case12 =>
      cases h
      exact rowsFrom_finish "row"
  | case13 _ closed =>
      rename_i ih
      rw [rowsFrom_finish closed]
      exact ih h
  | case14 _ _ _ _ hstart hempty hfinish =>
      rename_i ih
      rw [(rowsFrom_other hstart hempty hfinish).1]
      exact ih h
  | _ => cases h

/-- The cells that are read of a row are added in groups, one for each tag. -/
theorem takeCells_groups {cells : List Cell} {s : Stream}
    {r : Read (List Cell)} (h : takeCells cells s = .ok r) :
    ∃ groups, List.Forall₂ Repeats (cellTags false s) groups ∧
      r.value = cells ++ groups.flatten := by
  fun_induction takeCells cells s with
  | case6 _ _ _ _ _ _ htag _ htext _ more hmore =>
      rename_i ih
      obtain ⟨groups, hgroups, hvalue⟩ := ih h
      rw [← (takeText_rows htext).2 rfl] at hgroups
      refine ⟨more :: groups, .cons (cellsOf_repeats htag hmore) hgroups, ?_⟩
      rw [hvalue, List.append_assoc, List.flatten_cons]
  | case10 _ _ _ _ _ _ htag more hmore =>
      rename_i ih
      obtain ⟨groups, hgroups, hvalue⟩ := ih h
      refine ⟨more :: groups, .cons (cellsOf_repeats htag hmore) hgroups, ?_⟩
      rw [hvalue, List.append_assoc, List.flatten_cons]
  | case12 =>
      cases h
      exact ⟨[], .nil, (List.append_nil _).symm⟩
  | case13 _ closed _ _ hclosed =>
      rename_i ih
      obtain ⟨groups, hgroups, hvalue⟩ := ih h
      refine ⟨groups, ?_, hvalue⟩
      rwa [cellTags, if_neg Bool.false_ne_true, if_neg hclosed]
  | case14 _ _ _ _ hstart hempty hfinish =>
      rename_i ih
      rw [(rowsFrom_other hstart hempty hfinish).2]
      exact ih h
  | _ => cases h

theorem takeRow_gives {tag : Tag} {s : Stream} {r : Read Row}
    (h : takeRow tag s = .ok r) :
    rowsFrom 0 s = rowsFrom 0 r.rest ∧ Gives (cellTags false s) r.value := by
  rw [takeRow] at h
  split at h
  · cases h
  · next cells hcells =>
      obtain ⟨row, hrow, rfl⟩ := Except.map_eq_ok.mp h
      obtain ⟨groups, hgroups, hvalue⟩ := takeCells_groups hcells
      exact ⟨takeCells_rows hcells, rowOf_gives hrow hgroups hvalue⟩

/-- Notes that have a label, with no blanks around it. -/
def Labelled (notes : List Note) : Prop :=
  ∀ note ∈ notes, note.label ≠ "" ∧ Text.trim note.label = note.label

theorem Labelled.nil : Labelled [] :=
  List.forall_mem_nil _

theorem Labelled.concat {notes : List Note} {note : Note}
    (hnotes : Labelled notes) (hlabel : note.label ≠ "")
    (htrim : Text.trim note.label = note.label) :
    Labelled (notes ++ [note]) :=
  List.forall_mem_append.mpr
    ⟨hnotes, List.forall_mem_singleton.mpr ⟨hlabel, htrim⟩⟩

theorem takeNotes_labelled {notes : List Note} {s : Stream}
    {r : Read (List Note)} (h : takeNotes notes s = .ok r) :
    rowsFrom 0 s = rowsFrom 0 r.rest ∧
      (Labelled notes → Labelled r.value) := by
  fun_induction takeNotes notes s with
  | case5 _ tag _ _ hname _ hlabel _ htext =>
      rename_i ih
      obtain ⟨hrest, hnotes⟩ := ih h
      obtain ⟨hne, htrim⟩ := noteLabelOf_eq_ok hlabel
      rw [rowsFrom_start hname (by decide) (by decide),
        (takeText_rows htext).1]
      exact ⟨hrest, fun hgiven => hnotes (hgiven.concat hne htrim)⟩
  | case8 _ tag _ _ hname _ hlabel =>
      rename_i ih
      obtain ⟨hrest, hnotes⟩ := ih h
      obtain ⟨hne, htrim⟩ := noteLabelOf_eq_ok hlabel
      rw [rowsFrom_empty hname (by decide)]
      exact ⟨hrest, fun hgiven => hnotes (hgiven.concat hne htrim)⟩
  | case10 =>
      cases h
      exact ⟨rowsFrom_finish "footnotes", id⟩
  | case11 _ closed =>
      rename_i ih
      rw [rowsFrom_finish closed]
      exact ih h
  | case12 _ _ _ _ hstart hempty hfinish =>
      rename_i ih
      rw [(rowsFrom_other hstart hempty hfinish).1]
      exact ih h
  | _ => cases h

/-! ## Tables -/

/-- The rows between two places of a stream give some rows of tables. -/
def Passes (s rest : Stream) (rows : List Row) : Prop :=
  ∃ elements, rowsFrom 0 s = elements ++ rowsFrom 0 rest ∧
    List.Forall₂ Gives elements rows

theorem Passes.nothing {s rest : Stream} (h : rowsFrom 0 s = rowsFrom 0 rest) :
    Passes s rest [] :=
  ⟨[], h, .nil⟩

theorem Passes.trans {s between rest : Stream} {rows more : List Row}
    (h : Passes s between rows) (h' : Passes between rest more) :
    Passes s rest (rows ++ more) := by
  obtain ⟨elements, hs, hrows⟩ := h
  obtain ⟨others, hbetween, hmore⟩ := h'
  refine ⟨elements ++ others, ?_, List.rel_append hrows hmore⟩
  rw [hs, hbetween, List.append_assoc]

variable {α : Type} [Scalar α]

/-- What is read of a table between two places of a stream. -/
structure Adds (s rest : Stream) (t t' : Table α) : Prop where
  rows : ∃ more, t'.rows = t.rows ++ more ∧ Passes s rest more
  notes : Labelled t.notes → Labelled t'.notes

section

variable {s between rest : Stream} {t t' t'' : Table α}

omit [Scalar α] in
theorem Adds.behind (h' : Adds between rest t' t'') (h : Adds s between t t') :
    Adds s rest t t'' := by
  obtain ⟨rows, hrows, hpasses⟩ := h.rows
  obtain ⟨more, hmore, hpasses'⟩ := h'.rows
  refine ⟨⟨rows ++ more, ?_, hpasses.trans hpasses'⟩, h'.notes ∘ h.notes⟩
  rw [hmore, hrows, List.append_assoc]

omit [Scalar α] in
theorem Adds.nothing (hs : rowsFrom 0 s = rowsFrom 0 rest)
    (hrows : t'.rows = t.rows) (hnotes : t'.notes = t.notes) :
    Adds s rest t t' where
  rows := ⟨[], by rw [hrows, List.append_nil], .nothing hs⟩
  notes := fun h => by rwa [hnotes]

end

section

variable {d d' : Draft α} {position : Nat} {tag : Tag} {s rest : Stream}

omit [Scalar α] in
theorem Draft.addRow_adds {tags : List Tag} {row : Row}
    (hs : rowsFrom 0 s = tags :: rowsFrom 0 rest) (hrow : Gives tags row) :
    Adds s rest d.table (d.addRow row).table where
  rows := ⟨[row], rfl, [tags], hs, .cons hrow .nil⟩
  notes := id

theorem Draft.addOptions_adds (h : d.addOptions position tag = .ok d')
    (hs : rowsFrom 0 s = rowsFrom 0 rest) : Adds s rest d.table d'.table := by
  rw [addOptions] at h
  split at h
  · cases h
  · obtain ⟨_, _, h⟩ := Except.bind_eq_ok.mp h
    obtain ⟨_, _, h⟩ := Except.bind_eq_ok.mp h
    cases h
    exact .nothing hs rfl rfl

end

theorem takeTable_adds {d : Draft α} {s : Stream} {r : Read (Table α)}
    (h : takeTable d s = .ok r) : Adds s r.rest d.table r.value := by
  fun_induction takeTable d s with
  | case4 _ tag _ _ hname _ hoptions =>
      rename_i ih
      refine (ih h).behind (Draft.addOptions_adds hoptions ?_)
      exact rowsFrom_start hname (by decide) (by decide)
  | case7 _ tag _ _ _ hname _ _ htext =>
      rename_i ih
      refine (ih h).behind (.nothing ?_ rfl rfl)
      rw [rowsFrom_start hname (by decide) (by decide),
        (takeText_rows htext).1]
  | case9 _ tag _ _ _ _ hname _ hrow =>
      rename_i ih
      obtain ⟨hrest, hgives⟩ := takeRow_gives hrow
      refine (ih h).behind (Draft.addRow_adds ?_ hgives)
      rw [rowsFrom, if_neg (by rw [hname]; decide), if_pos ⟨hname, rfl⟩, hrest]
  | case11 _ tag _ _ _ _ _ hname _ hnotes =>
      rename_i ih
      obtain ⟨hrest, hlabelled⟩ := takeNotes_labelled hnotes
      refine (ih h).behind ⟨⟨[], (List.append_nil _).symm, .nothing ?_⟩, ?_⟩
      · rw [rowsFrom_start hname (by decide) (by decide),
          hrest]
      · exact fun hgiven =>
          List.forall_mem_append.mpr ⟨hgiven, hlabelled .nil⟩
  | case14 _ tag _ _ hname _ hoptions =>
      rename_i ih
      refine (ih h).behind (Draft.addOptions_adds hoptions ?_)
      exact rowsFrom_empty hname (by decide)
  | case16 _ tag _ _ _ hname _ hrow =>
      rename_i ih
      refine (ih h).behind (Draft.addRow_adds ?_ (rowOf_gives hrow .nil rfl))
      rw [rowsFrom, if_pos ⟨hname, rfl⟩]
  | case17 _ tag _ _ _ hname =>
      rename_i ih
      exact (ih h).behind (.nothing (rowsFrom_empty rfl hname) rfl rfl)
  | case19 =>
      cases h
      exact .nothing (rowsFrom_finish "table") rfl rfl
  | case20 _ closed =>
      rename_i ih
      exact (ih h).behind (.nothing (rowsFrom_finish closed) rfl rfl)
  | case22 =>
      rename_i ih
      exact (ih h).behind (.nothing rfl rfl rfl)
  | case23 _ _ _ _ hstart hempty hfinish =>
      rename_i ih
      refine (ih h).behind (.nothing ?_ rfl rfl)
      exact (rowsFrom_other hstart hempty hfinish).1
  | _ => cases h

/-! ## Documents -/

omit [Scalar α] in
/-- The tables of a block, one behind the other. -/
def Block.tables : Block α → List (Table α)
  | heading _ => []
  | table t => [t]
  | floatRow ts => ts

/-- What is read of some tables between two places of a stream. -/
structure Tables (s rest : Stream) (tables : List (Table α)) : Prop where
  rows : Passes s rest (tables.flatMap Table.rows)
  notes : ∀ t ∈ tables, Labelled t.notes

omit [Scalar α] in
theorem Tables.nothing {s rest : Stream} (h : rowsFrom 0 s = rowsFrom 0 rest) :
    Tables (α := α) s rest [] :=
  ⟨.nothing h, nofun⟩

omit [Scalar α] in
theorem Tables.behind {s between rest : Stream} {tables more : List (Table α)}
    (h' : Tables between rest more) (h : Tables s between tables) :
    Tables s rest (tables ++ more) := by
  refine ⟨?_, List.forall_mem_append.mpr ⟨h.notes, h'.notes⟩⟩
  rw [List.flatMap_append]
  exact h.rows.trans h'.rows

theorem takeTable_tables {position : Nat} {tag : Tag} {s : Stream}
    {r : Read (Table α)} (hname : tag.name = "table")
    (h : takeTable emptyDraft s = .ok r) :
    Tables (.next (.start tag) position s) r.rest [r.value] := by
  obtain ⟨⟨rows, hrows, hpasses⟩, hnotes⟩ := takeTable_adds h
  have hstart : Passes (.next (.start tag) position s) s [] :=
    .nothing (rowsFrom_start hname (by decide) (by decide))
  refine ⟨?_, List.forall_mem_singleton.mpr (hnotes .nil)⟩
  rw [List.flatMap_singleton, hrows]
  exact hstart.trans hpasses

theorem takeFloatRow_tables {tables : List (Table α)} {s : Stream}
    {r : Read (List (Table α))} (h : takeFloatRow tables s = .ok r) :
    ∃ more, r.value = tables ++ more ∧ Tables s r.rest more := by
  fun_induction takeFloatRow tables s with
  | case4 _ tag _ _ hname _ htable =>
      rename_i ih
      obtain ⟨more, hmore, htables⟩ := ih h
      refine ⟨_, ?_, htables.behind (takeTable_tables hname htable)⟩
      rw [hmore, List.append_assoc]
  | case8 =>
      cases h
      exact ⟨[], (List.append_nil _).symm, .nothing (rowsFrom_finish _)⟩
  | case9 _ closed =>
      rename_i ih
      obtain ⟨more, hmore, htables⟩ := ih h
      exact ⟨more, hmore, htables.behind (.nothing (rowsFrom_finish closed))⟩
  | case10 _ _ _ _ hstart hempty hfinish =>
      rename_i ih
      obtain ⟨more, hmore, htables⟩ := ih h
      refine ⟨more, hmore, htables.behind (.nothing ?_)⟩
      exact (rowsFrom_other hstart hempty hfinish).1
  | _ => cases h

/-- The content of a heading is passed over with the headings in it. -/
theorem skipElement_rows {depth : Nat} {s rest : Stream}
    (h : skipElement "heading" depth s = .ok rest) :
    rowsFrom (depth + 1) s = rowsFrom 0 rest := by
  fun_induction skipElement "heading" depth s with
  | case1 => cases h
  | case2 => cases h
  | case3 depth tag _ _ ih =>
      rw [rowsFrom, ← ih h]
      by_cases hname : tag.name = "heading"
      · rw [if_pos hname, if_pos hname]
      · rw [if_neg hname, if_neg hname,
          if_neg fun h => Nat.succ_ne_zero depth h.2]
  | case4 =>
      cases h
      rfl
  | case5 _ _ _ ih => exact ih h
  | case6 _ closed _ _ hclosed ih =>
      rw [rowsFrom, if_neg hclosed]
      exact ih h
  | case7 depth event _ _ hstart hfinish ih =>
      rw [← ih h]
      cases event with
      | start tag => exact absurd rfl (hstart tag)
      | empty tag =>
          rw [rowsFrom, if_neg fun h => Nat.succ_ne_zero depth h.2]
      | finish closed => exact absurd rfl (hfinish closed)
      | text escaped => rfl
      | cdata text => rfl
      | other => rfl

theorem takeBlocks_tables {s : Stream} {blocks : List (Block α)}
    (h : takeBlocks s = .ok blocks) :
    Tables s (.finish 0) (blocks.flatMap Block.tables) := by
  fun_induction takeBlocks (α := α) s generalizing blocks with
  | case2 =>
      cases h
      exact .nothing rfl
  | case3 tag _ _ hname =>
      rename_i ih
      refine (ih h).behind (.nothing ?_)
      exact rowsFrom_start hname (by decide) (by decide)
  | case5 tag _ _ _ hname _ htable =>
      rename_i ih
      obtain ⟨_, hblocks, rfl⟩ := Except.map_eq_ok.mp h
      exact (ih hblocks).behind (takeTable_tables hname htable)
  | case7 tag _ _ _ _ hname _ htables =>
      rename_i ih
      obtain ⟨_, hblocks, rfl⟩ := Except.map_eq_ok.mp h
      obtain ⟨tables, hvalue, hread⟩ := takeFloatRow_tables htables
      rw [List.flatMap_cons, Block.tables, hvalue, List.nil_append]
      refine (ih hblocks).behind (hread.behind (.nothing ?_))
      exact rowsFrom_start hname (by decide) (by decide)
  | case10 tag _ _ _ _ _ hname _ _ _ hskipped =>
      rename_i ih
      obtain ⟨_, hblocks, rfl⟩ := Except.map_eq_ok.mp h
      refine (ih hblocks).behind (.nothing ?_)
      rw [rowsFrom, if_pos hname, skipElement_rows hskipped]
  | case12 tag _ _ hname =>
      rename_i ih
      exact (ih h).behind (.nothing (rowsFrom_empty hname (by decide)))
  | case14 tag _ _ _ hname =>
      rename_i ih
      obtain ⟨_, hblocks, rfl⟩ := Except.map_eq_ok.mp h
      refine (ih hblocks).behind (.nothing ?_)
      exact rowsFrom_empty hname (by decide)
  | case17 =>
      rename_i ih
      refine (ih h).behind (.nothing ?_)
      rfl
  | case18 event _ _ hstart hempty _ =>
      rename_i ih
      refine (ih h).behind (.nothing ?_)
      cases event with
      | start tag => exact absurd rfl (hstart tag)
      | empty tag => exact absurd rfl (hempty tag)
      | finish closed => exact rowsFrom_finish closed
      | text escaped => rfl
      | cdata text => rfl
      | other => rfl
  | _ => cases h

/-! ## Soundness -/

theorem Gives.regular {tags : List Tag} {row : Row} (h : Gives tags row) :
    row.Regular row.claimed :=
  ⟨congrArg (List.map Slot.isCovered) h.slots, rfl⟩

theorem Repeats.claimed {tag : Tag} {group : List Cell}
    (h : Repeats tag group) :
    (group.map fun c => max c.span 1).sum =
      countIn "repeat" tag * countIn "col_span" tag := by
  obtain ⟨c, rfl, hspan, hpos, _⟩ := h
  rw [List.map_replicate, List.sum_replicate, smul_eq_mul, max_eq_left hpos,
    hspan]

section

variable {tags : List Tag} {groups : List (List Cell)}

theorem groups_bounds (h : List.Forall₂ Repeats tags groups) :
    ∀ c ∈ groups.flatten, 1 ≤ c.span ∧ c.heading ≤ 2 := by
  induction h with
  | nil => exact nofun
  | cons hgroup _ ih =>
      refine List.forall_mem_append.mpr ⟨fun c hc => ?_, ih⟩
      obtain ⟨_, rfl, _, hbounds⟩ := hgroup
      rw [List.eq_of_mem_replicate hc]
      exact hbounds

/-- What the cells of some elements claim together. -/
theorem groups_claimed (h : List.Forall₂ Repeats tags groups) :
    (groups.flatten.map fun c => max c.span 1).sum =
      (tags.map fun tag =>
        countIn "repeat" tag * countIn "col_span" tag).sum := by
  induction h with
  | nil => rfl
  | cons hgroup _ ih =>
      rw [List.flatten_cons, List.map_append, List.sum_append, ih,
        hgroup.claimed, List.map_cons, List.sum_cons]

end

/-- A row that is sound in itself and agrees with its element: behind each cell
stand the slots that it covers besides its own, cells cover columns and are of a
level that there is, there are as many slots as the elements of the row ask for,
and its rules are ranges of columns counted from one. -/
structure Sound (tags : List Tag) (row : Row) : Prop where
  slots : row.slots = (Row.spanned (row.cells.map .cell)).slots
  cells : ∀ c ∈ row.cells, 1 ≤ c.span ∧ c.heading ≤ 2
  length : row.slots.length =
    (tags.map fun tag => countIn "repeat" tag * countIn "col_span" tag).sum
  underlines : ∀ range ∈ row.underlines, 1 ≤ range.1 ∧ 1 ≤ range.2

theorem Gives.sound {tags : List Tag} {row : Row} (h : Gives tags row) :
    Sound tags row := by
  obtain ⟨groups, hgroups, hcells⟩ := h.groups
  have hclaimed : row.slots.length = row.claimed :=
    (Row.fills_iff_regular.mpr h.regular).slots
  rw [Row.claimed, hcells, groups_claimed hgroups] at hclaimed
  refine ⟨h.slots, ?_, hclaimed, h.underlines⟩
  rw [hcells]
  exact groups_bounds hgroups

omit [Scalar α] in
/-- A table of which the rows are marked as their cells ask for is refused for
what they claim and for nothing else. -/
theorem validate_unequal {t : Table α}
    (hrows : ∀ row ∈ t.rows, row.Regular row.claimed) {e : Error}
    (h : t.validate = .error e) :
    ((∀ first ∈ t.rows.head?, first.claimed = 0) ∧
      e = .markup .noColumns none) ∨
    ∃ first ∈ t.rows.head?, ∃ i row, t.rows[i]? = some row ∧
      row.claimed ≠ first.claimed ∧
      e = .columnCount i first.claimed row.claimed := by
  have hclaims : ∀ row ∈ t.rows, row.spanSum = row.claimed := fun row hrow =>
    (Row.fills_iff_regular.mpr (hrows row hrow)).claims
  rcases validate_refuses.mp h with ⟨hempty, rfl⟩ |
    ⟨first, hfirst, _, before, row, after, heq, _, hirregular, rfl⟩
  · refine .inl ⟨fun first hfirst => ?_, rfl⟩
    rw [← hclaims first (List.mem_of_mem_head? hfirst), hempty first hfirst]
  · have hrow : row ∈ t.rows := by
      rw [heq]
      exact List.mem_append_right _ List.mem_cons_self
    have hspans := hclaims first (List.mem_of_mem_head? hfirst)
    rw [hspans] at hirregular ⊢
    have hclaimed : row.claimed ≠ first.claimed := by
      intro hsame
      have hregular := hrows row hrow
      rw [hsame] at hregular
      exact hirregular hregular
    refine .inr ⟨first, hfirst, before.length, row, ?_, hclaimed, ?_⟩
    · rw [heq, List.getElem?_append_right (Nat.le_refl _), Nat.sub_self]
      rfl
    · rw [Row.reported, hclaims row hrow, if_neg hclaimed]

/-- The rows that a document gives are those of its text, in their order, and
each of them is sound. The notes have labels without blanks around them. A
table can be refused only because it claims no columns or because its rows claim
different numbers of columns. -/
theorem parseDocument_sound {markup : String} {blocks : List (Block α)}
    (h : parseDocument markup = .ok blocks) :
    List.Forall₂ Sound (rowsFrom 0 (.ofText markup))
      ((blocks.flatMap Block.tables).flatMap Table.rows) ∧
    ∀ t ∈ blocks.flatMap Block.tables,
      (∀ note ∈ t.notes, note.label ≠ "" ∧
        Text.trim note.label = note.label) ∧
      ∀ e, t.validate = .error e →
        ((∀ first ∈ t.rows.head?, first.claimed = 0) ∧
          e = .markup .noColumns none) ∨
        ∃ first ∈ t.rows.head?, ∃ i row, t.rows[i]? = some row ∧
          row.claimed ≠ first.claimed ∧
          e = .columnCount i first.claimed row.claimed := by
  obtain ⟨⟨elements, helements, hgives⟩, hnotes⟩ := takeBlocks_tables h
  rw [rowsFrom.eq_def 0 (.finish 0), List.append_nil] at helements
  refine ⟨helements ▸ hgives.imp fun _ _ => Gives.sound, fun t ht =>
    ⟨hnotes t ht, fun e he => validate_unequal (fun row hrow => ?_) he⟩⟩
  have hmem := List.mem_flatMap_of_mem ht hrow
  obtain ⟨i, hi⟩ := List.getElem?_of_mem hmem
  obtain ⟨tags, _, hrow⟩ := forall₂_at hgives.flip hi
  exact hrow.regular

/-- A row of five columns, and a note. -/
def floated : String :=
  "<floatrow><table><row underlines='1-2'><cell repeat='2' col_span='2'>a" ++
    "</cell><cell/></row><footnotes><note label=' * '>b</note></footnotes>" ++
    "</table></floatrow>"

def floatedEvents : Stream :=
  .next (.start ⟨"floatrow", []⟩) 10 (
  .next (.start ⟨"table", []⟩) 17 (
  .next (.start ⟨"row", " underlines='1-2'".toList⟩) 39 (
  .next (.start ⟨"cell", " repeat='2' col_span='2'".toList⟩) 69 (
  .next (.text "a") 70 (
  .next (.finish "cell") 77 (
  .next (.empty ⟨"cell", []⟩) 84 (
  .next (.finish "row") 90 (
  .next (.start ⟨"footnotes", []⟩) 101 (
  .next (.start ⟨"note", " label=' * '".toList⟩) 119 (
  .next (.text "b") 120 (
  .next (.finish "note") 127 (
  .next (.finish "footnotes") 139 (
  .next (.finish "table") 147 (
  .next (.finish "floatrow") 158 (.finish 158)))))))))))))))

theorem parseDocument_floated : ∃ blocks : List (Block Float),
    parseDocument floated = .ok blocks ∧
    (rowsFrom 0 (.ofText floated)).map (List.map fun tag =>
      (countIn "repeat" tag, countIn "col_span" tag)) = [[(2, 2), (1, 1)]] ∧
    List.Forall₂ Sound (rowsFrom 0 (.ofText floated))
      ((blocks.flatMap Block.tables).flatMap Table.rows) := by
  have hevents : Stream.ofText floated = floatedEvents := by cbv
  have hread : (parseDocument (α := Float) floated).isOk = true := by
    rw [parseDocument, hevents]
    decide +kernel
  cases hblocks : parseDocument (α := Float) floated with
  | error e =>
      rw [hblocks] at hread
      cases hread
  | ok blocks =>
      refine ⟨blocks, rfl, ?_, (parseDocument_sound hblocks).1⟩
      rw [hevents]
      decide +kernel

end Tabulation.Markup
