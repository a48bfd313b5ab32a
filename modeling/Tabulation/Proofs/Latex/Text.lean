import Mathlib
import Tabulation.Proofs.Latex.Pieces
import Tabulation.Proofs.Leniency.Session

/-!
# The text of a table in LaTeX

A table in LaTeX is taken apart into the pieces that it is written from. The
words of the cells, of the caption and of the definitions of notes, and the
title of the caption, are escaped wherever they stand. The terms of notes are
not: where the label of a note is not the number of a symbol, it is text like
any other, and a special character in it comes out as it is.
-/

namespace Tabulation

open Latex

/-! ## Other words -/

section MapWords

variable {α : Type} (f : String → String)

def PlacedCell.mapWords (cell : PlacedCell α) : PlacedCell α :=
  { cell with content := Inline.mapAllWords f cell.content }

def PlacedRow.mapWords (row : PlacedRow α) : PlacedRow α :=
  { row with cells := row.cells.map (PlacedCell.mapWords f) }

def Note.mapWords (note : Note) : Note :=
  { note with definition := Inline.mapAllWords f note.definition }

/-- The layout with other words in the place of those that it shows. -/
def Layout.mapWords (layout : Layout α) : Layout α :=
  { layout with
    rows := layout.rows.map (PlacedRow.mapWords f)
    caption := Inline.mapAllWords f layout.caption
    notes := layout.notes.map (Note.mapWords f)
    attributes := { layout.attributes with
      captionTitle := layout.attributes.captionTitle.map f } }

end MapWords

section Pieces

variable {α : Type}

namespace Layout

/-! ## Notes and caption -/

def notePieces (layout : Layout α) (style : NoteSymbols) (note : Note) :
    List Piece :=
  let target := layout.noteLabel style
  .markup "\\item[" :: .term note.label ::
    .markup ("] " ++ labelLatex (target note.label) ++ " ") ::
      (Inline.allPieces target note.definition ++ [.markup "\n"])

def notesPieces (layout : Layout α) (style : NoteSymbols) : List Piece :=
  let options := match layout.attributes.tablenotesOptions with
    | some options => if options.isEmpty then "" else "[" ++ options ++ "]"
    | none => ""
  if layout.notes.isEmpty then []
  else
    .markup ("\n\\vspace\x7b.5\\skip\\footins\x7d\n\\begin\x7btablenotes\x7d" ++
      options ++ "\n") ::
      (layout.notes.flatMap (layout.notePieces style) ++
        [.markup "\\end\x7btablenotes\x7d\n\\end\x7bthreeparttable\x7d"])

def captionPieces (layout : Layout α) (style : NoteSymbols) : List Piece :=
  let title : List Piece := match layout.attributes.captionTitle with
    | some title => [.markup "[", .shown title, .markup "]"]
    | none => []
  (if layout.caption.isEmpty then []
    else .markup "\\caption" :: (title ++ argument ""
      (Inline.allPieces (layout.noteLabel style) layout.caption))) ++
    [.markup (labelLatex layout.label)]

section Parts

variable (layout : Layout α) (style : NoteSymbols)

theorem written_notesPieces [Scalar α]
    (h : ∀ note ∈ layout.notes,
      Inline.allFree ["latex", "tex"] note.definition = true) :
    written (noteTerm style) (layout.notesPieces style) =
      (layout.latex style).notes := by
  have hnote : ∀ note ∈ layout.notes,
      written (noteTerm style) (layout.notePieces style note) =
        layout.noteLatex style note := by
    intro note hnote
    rw [notePieces, noteLatex]
    simp only [written_cons, written_append,
      Inline.written_allPieces _ _ _ (h note hnote)]
    simp [Piece.write, String.append_assoc]
  rw [notesPieces, latex]
  cases hempty : layout.notes.isEmpty with
  | true => rfl
  | false =>
      rw [if_neg Bool.false_ne_true, written_cons, written_append,
        written_flatMap, List.map_congr_left hnote, written_cons, written_nil,
        String.append_empty, ← String.append_assoc]
      rfl

theorem written_captionPieces (term : String → String)
    (h : Inline.allFree ["latex", "tex"] layout.caption = true) :
    written term (layout.captionPieces style) =
      layout.captionLatex style := by
  have hcaption := Inline.written_allPieces (layout.noteLabel style) term _ h
  have hargument : written term
      (argument "" (Inline.allPieces (layout.noteLabel style) layout.caption)) =
        braced (latexInlines (layout.noteLabel style) layout.caption) := by
    rw [written_argument, hcaption, String.empty_append]
  rw [captionPieces, captionLatex, written_append, written_cons, written_nil,
    String.append_empty]
  cases layout.caption.isEmpty with
  | true => rfl
  | false =>
      rw [if_neg Bool.false_ne_true, if_neg Bool.false_ne_true, written_cons,
        written_append, hargument]
      cases layout.attributes.captionTitle with
      | none => rfl
      | some title =>
          simp only [written_cons, written_nil, Piece.write,
            String.append_empty, String.append_assoc]

/-- The words of a note are those of its definition, and its term is the one
term. -/
theorem filterMap_notesPieces {β : Type} {f : Piece → Option β}
    (h : ∀ text, f (.markup text) = none) :
    (layout.notesPieces style).filterMap f =
      layout.notes.flatMap fun note => (f (.term note.label)).toList ++
        (Inline.allPieces (layout.noteLabel style) note.definition).filterMap
          f := by
  have hnote : ∀ note, (layout.notePieces style note).filterMap f =
      (f (.term note.label)).toList ++
        (Inline.allPieces (layout.noteLabel style) note.definition).filterMap
          f := by
    intro note
    rw [notePieces, List.filterMap_cons_none (h _), List.filterMap_cons]
    cases f (.term note.label) <;> simp [h]
  rw [notesPieces]
  cases hempty : layout.notes.isEmpty with
  | true =>
      rw [List.isEmpty_iff.mp hempty]
      rfl
  | false =>
      rw [if_neg Bool.false_ne_true, List.filterMap_cons_none (h _),
        List.filterMap_append, List.filterMap_flatMap,
        List.filterMap_cons_none (h _), List.filterMap_nil, List.append_nil]
      exact List.flatMap_congr fun note _ => hnote note

theorem shown_captionPieces :
    (layout.captionPieces style).filterMap Piece.shown? =
      if layout.caption.isEmpty then []
      else layout.attributes.captionTitle.toList ++
        Inline.allWords layout.caption := by
  have hwords := Inline.shown_allPieces (layout.noteLabel style) layout.caption
  have hargument := filterMap_argument (f := Piece.shown?) (fun _ => rfl) ""
    (Inline.allPieces (layout.noteLabel style) layout.caption)
  rw [hwords] at hargument
  rw [captionPieces, List.filterMap_append]
  cases layout.caption.isEmpty with
  | true => rfl
  | false =>
      rw [if_neg Bool.false_ne_true, if_neg Bool.false_ne_true,
        List.filterMap_cons_none rfl, List.filterMap_append, hargument,
        List.filterMap_cons_none rfl, List.filterMap_nil, List.append_nil]
      cases layout.attributes.captionTitle <;> rfl

theorem notesPieces_mapWords (f : String → String) :
    (layout.mapWords f).notesPieces style =
      (layout.notesPieces style).map (Piece.mapShown f) := by
  have hnote : ∀ note, (layout.mapWords f).notePieces style (note.mapWords f) =
      (layout.notePieces style note).map (Piece.mapShown f) := by
    intro note
    rw [notePieces, Note.mapWords, Inline.allPieces_mapWords, notePieces]
    simp only [List.map_cons, List.map_append]
    rfl
  have hnotes : (layout.mapWords f).notes =
      layout.notes.map (Note.mapWords f) := rfl
  rw [notesPieces, notesPieces, hnotes, List.isEmpty_map]
  cases layout.notes.isEmpty with
  | true => rfl
  | false =>
      rw [if_neg Bool.false_ne_true, if_neg Bool.false_ne_true, List.map_cons,
        List.map_append, List.map_flatMap, List.flatMap_map]
      simp only [hnote]
      rfl

theorem captionPieces_mapWords (f : String → String) :
    (layout.mapWords f).captionPieces style =
      (layout.captionPieces style).map (Piece.mapShown f) := by
  have hempty : (Inline.mapAllWords f layout.caption).isEmpty =
      layout.caption.isEmpty := by
    cases layout.caption <;> rfl
  have hcaption : (layout.mapWords f).caption =
      Inline.mapAllWords f layout.caption := rfl
  have htitle : (layout.mapWords f).attributes.captionTitle =
      layout.attributes.captionTitle.map f := rfl
  have htarget : (layout.mapWords f).noteLabel style =
      layout.noteLabel style := rfl
  rw [captionPieces, captionPieces, hcaption, htitle, htarget, hempty,
    Inline.allPieces_mapWords, List.map_append]
  cases layout.caption.isEmpty with
  | true => rfl
  | false =>
      rw [if_neg Bool.false_ne_true, if_neg Bool.false_ne_true, List.map_cons,
        List.map_append, map_argument]
      cases layout.attributes.captionTitle <;> rfl

end Parts

/-! ## Rows -/

def cellPieces (target : String → String) (cell : PlacedCell α) : List Piece :=
  let text := .markup (headingFont cell.heading) ::
    Inline.allPieces target cell.content
  if cell.vertical then argument "\\rotatebox\x7b90\x7d" text else text

section Cells

variable (target : String → String)

theorem written_cellPieces (term : String → String) {cell : PlacedCell α}
    (h : Inline.allFree ["latex", "tex"] cell.content = true) :
    written term (cellPieces target cell) = cellLatex target cell := by
  have hcontent := Inline.written_allPieces target term _ h
  rw [cellPieces, cellLatex]
  split
  · rw [written_argument, written_cons, hcontent]
    rfl
  · rw [written_cons, hcontent]
    rfl

theorem filterMap_cellPieces {β : Type} {f : Piece → Option β}
    (h : ∀ text, f (.markup text) = none) (cell : PlacedCell α) :
    (cellPieces target cell).filterMap f =
      (Inline.allPieces target cell.content).filterMap f := by
  rw [cellPieces]
  split
  · rw [filterMap_argument h, List.filterMap_cons, h]
  · rw [List.filterMap_cons, h]

theorem cellPieces_mapWords (f : String → String) (cell : PlacedCell α) :
    cellPieces target (cell.mapWords f) =
      (cellPieces target cell).map (Piece.mapShown f) := by
  rw [cellPieces, cellPieces, PlacedCell.mapWords, Inline.allPieces_mapWords]
  split
  · rw [map_argument]
    rfl
  · rfl

end Cells

variable [Scalar α]

/-- The entries of a row that a cell makes. -/
def entryPieces (target : String → String) (extra : String)
    (cell : PlacedCell α) : List (List Piece) :=
  let content := cellPieces target cell ++ [.markup extra]
  let entry := match cell.group with
    | some group =>
        argument ("\\multicolumn" ++ braced (toString cell.physicalSpan) ++
          braced group.latex) content
    | none => content
  List.replicate cell.indent [] ++ [entry]

def rowEntryPieces (target : String → String) (row : PlacedRow α) :
    List (List Piece) :=
  match row.cells with
  | [] => []
  | cell :: cells =>
      entryPieces target (struts row) cell ++
        cells.flatMap (entryPieces target "")

/-- A row as it comes out, with the rules below it. -/
def rowPieces (target : String → String) (row : PlacedRow α) : List Piece :=
  separated (rowEntryPieces target row) ++
    [.markup (" \\\\ \n" ++ rulesLatex row.rules)]

section Rows

variable (target : String → String)

theorem written_entryPieces (term : String → String) (extra : String)
    {cell : PlacedCell α}
    (h : Inline.allFree ["latex", "tex"] cell.content = true) :
    (entryPieces target extra cell).map (written term) =
      cellEntries target extra cell := by
  have hcontent : written term (cellPieces target cell ++ [.markup extra]) =
      cellLatex target cell ++ extra := by
    rw [written_append, written_cellPieces target term h]
    simp [Piece.write]
  rw [entryPieces, cellEntries, List.map_append, List.map_replicate,
    written_nil, List.map_singleton]
  cases cell.group with
  | some group => simp only [written_argument, hcontent]
  | none => simp only [hcontent]

theorem written_rowPieces (term : String → String) {row : PlacedRow α}
    (h : ∀ cell ∈ row.cells,
      Inline.allFree ["latex", "tex"] cell.content = true) :
    written term (rowPieces target row) = rowLatex target row := by
  have hentries : (rowEntryPieces target row).map (written term) =
      rowEntries target row := by
    rw [rowEntryPieces, rowEntries]
    cases hcells : row.cells with
    | nil => rfl
    | cons cell cells =>
        rw [hcells] at h
        obtain ⟨hcell, hrest⟩ := List.forall_mem_cons.mp h
        simp only []
        rw [List.map_append, List.map_flatMap,
          written_entryPieces target term _ hcell]
        congr 1
        exact List.flatMap_congr fun cell hc =>
          written_entryPieces target term "" (hrest cell hc)
  rw [rowPieces, written_append, written_separated, hentries, rowLatex,
    written_cons, written_nil, String.append_empty, String.append_assoc]
  rfl

theorem filterMap_entryPieces {β : Type} {f : Piece → Option β}
    (h : ∀ text, f (.markup text) = none) (extra : String)
    (cell : PlacedCell α) :
    (entryPieces target extra cell).flatMap (·.filterMap f) =
      (Inline.allPieces target cell.content).filterMap f := by
  have hcontent : (cellPieces target cell ++ [Piece.markup extra]).filterMap f =
      (Inline.allPieces target cell.content).filterMap f := by
    rw [List.filterMap_append, filterMap_cellPieces target h]
    simp [h]
  have hlevels : (List.replicate cell.indent ([] : List Piece)).flatMap
      (·.filterMap f) = [] := by
    rw [List.flatMap_eq_nil_iff]
    intro ps hps
    rw [List.eq_of_mem_replicate hps, List.filterMap_nil]
  rw [entryPieces, List.flatMap_append, hlevels, List.nil_append,
    List.flatMap_singleton]
  cases cell.group with
  | some group => rw [filterMap_argument h, hcontent]
  | none => exact hcontent

theorem filterMap_rowPieces {β : Type} {f : Piece → Option β}
    (h : ∀ text, f (.markup text) = none) (row : PlacedRow α) :
    (rowPieces target row).filterMap f = row.cells.flatMap fun cell =>
      (Inline.allPieces target cell.content).filterMap f := by
  rw [rowPieces, List.filterMap_append, filterMap_separated h, rowEntryPieces]
  cases row.cells with
  | nil => simp [h]
  | cons cell cells =>
      simp [h, filterMap_entryPieces target h, List.flatMap_assoc]

theorem entryPieces_mapWords (f : String → String) (extra : String)
    (cell : PlacedCell α) :
    entryPieces target extra (cell.mapWords f) =
      (entryPieces target extra cell).map (·.map (Piece.mapShown f)) := by
  have hgroup : (cell.mapWords f).group = cell.group := rfl
  have hspan : (cell.mapWords f).physicalSpan = cell.physicalSpan := rfl
  rw [entryPieces, entryPieces, cellPieces_mapWords, hgroup, hspan,
    List.map_append, List.map_replicate, List.map_singleton]
  cases cell.group with
  | some group =>
      simp only [map_argument, List.map_append]
      rfl
  | none =>
      simp only [List.map_append]
      rfl

theorem rowPieces_mapWords (f : String → String) (row : PlacedRow α) :
    rowPieces target (row.mapWords f) =
      (rowPieces target row).map (Piece.mapShown f) := by
  have hentries : rowEntryPieces target (row.mapWords f) =
      (rowEntryPieces target row).map (·.map (Piece.mapShown f)) := by
    rw [rowEntryPieces, rowEntryPieces, PlacedRow.mapWords]
    cases row.cells with
    | nil => rfl
    | cons cell cells =>
        simp only [List.map_cons, List.map_append, List.map_flatMap,
          List.flatMap_map, entryPieces_mapWords]
        rfl
  rw [rowPieces, rowPieces, List.map_append, map_separated, hentries]
  rfl

end Rows

end Layout

end Pieces

/-! ## The parts of a table -/

/-- The pieces that the parts of a table are written from. -/
structure LatexPieces where
  rows : List (List Piece)
  notes : List Piece
  caption : List Piece

/-- The same pieces with other words in the place of those that they show. -/
def LatexPieces.mapShown (f : String → String) (ps : LatexPieces) :
    LatexPieces where
  rows := ps.rows.map (·.map (Piece.mapShown f))
  notes := ps.notes.map (Piece.mapShown f)
  caption := ps.caption.map (Piece.mapShown f)

/-- A table that is written from pieces, with its terms written in some way. -/
structure LatexTable.WrittenFrom (table : LatexTable)
    (term : String → String) (ps : LatexPieces) : Prop where
  rows : table.rows = ps.rows.map (written term)
  notes : table.notes = written term ps.notes
  caption : table.caption = written term ps.caption

/-- The term of a note with its special characters escaped, unless it is the
symbol with a number. -/
def Latex.escapedTerm (style : NoteSymbols) (label : String) : String :=
  match noteNumber? (Text.trim label) with
  | some _ => noteTerm style label
  | none => escape (noteTerm style label)

/-- A label whose term is text without special characters, or a symbol. -/
def Latex.PlainLabel (label : String) : Prop :=
  noteNumber? (Text.trim label) = none →
    ∀ c ∈ (Text.trim label).toList, c ∉ specials

theorem Latex.noteTerm_eq_escapedTerm_iff {style : NoteSymbols}
    {label : String} :
    noteTerm style label = escapedTerm style label ↔ PlainLabel label := by
  rw [escapedTerm, PlainLabel]
  cases hnumber : noteNumber? (Text.trim label) with
  | some digits => simp
  | none =>
      have hterm : noteTerm style label = Text.trim label := by
        rw [noteTerm, hnumber]
      rw [hterm, escape_eq_iff]
      simp

theorem Latex.length_noteTerm (style : NoteSymbols) (label : String) :
    (noteTerm style label).length ≤ (escapedTerm style label).length ∧
      ((noteTerm style label).length = (escapedTerm style label).length →
        noteTerm style label = escapedTerm style label) := by
  rw [escapedTerm]
  cases noteNumber? (Text.trim label) with
  | some digits => exact ⟨Nat.le_refl _, fun _ => rfl⟩
  | none =>
      exact ⟨length_le_escape _, fun h =>
        escape_eq_iff.mpr (length_eq_escape_iff.mp h)⟩

section Table

variable {α : Type} [Scalar α]

def Layout.latexPieces (layout : Layout α) (style : NoteSymbols) :
    LatexPieces where
  rows := layout.rows.map (Layout.rowPieces (layout.noteLabel style))
  notes := layout.notesPieces style
  caption := layout.captionPieces style

/-- What the pieces of a layout show is what the layout holds: its words in
their order, and the labels of its notes. All else is the same if other words
stand in the place of these. -/
structure Layout.Shown (layout : Layout α) (style : NoteSymbols) : Prop where
  rows : (layout.latexPieces style).rows.map (·.filterMap Piece.shown?) =
    layout.rows.map fun row =>
      row.cells.flatMap fun cell => Inline.allWords cell.content
  notes : (layout.latexPieces style).notes.filterMap Piece.shown? =
    layout.notes.flatMap fun note => Inline.allWords note.definition
  terms : (layout.latexPieces style).notes.filterMap Piece.term? =
    layout.notes.map Note.label
  caption : (layout.latexPieces style).caption.filterMap Piece.shown? =
    if layout.caption.isEmpty then []
    else layout.attributes.captionTitle.toList ++
      Inline.allWords layout.caption
  others : ∀ f, (layout.mapWords f).latexPieces style =
    (layout.latexPieces style).mapShown f

theorem Layout.shown (layout : Layout α) (style : NoteSymbols) :
    layout.Shown style where
  rows := by
    rw [Layout.latexPieces, List.map_map]
    refine List.map_congr_left fun row _ => ?_
    rw [Function.comp_apply, filterMap_rowPieces _ fun _ => rfl]
    simp only [Inline.shown_allPieces]
  notes := by
    rw [Layout.latexPieces, filterMap_notesPieces _ _ fun _ => rfl]
    simp only [Inline.shown_allPieces]
    rfl
  terms := by
    rw [Layout.latexPieces, filterMap_notesPieces _ _ fun _ => rfl]
    simp only [Inline.term_allPieces, List.append_nil]
    rw [List.map_eq_flatMap]
    rfl
  caption := layout.shown_captionPieces style
  others := by
    intro f
    have hrows : (layout.mapWords f).rows.map
        (rowPieces ((layout.mapWords f).noteLabel style)) =
        (layout.rows.map (rowPieces (layout.noteLabel style))).map
          (·.map (Piece.mapShown f)) := by
      rw [mapWords, List.map_map, List.map_map]
      exact List.map_congr_left fun row _ => rowPieces_mapWords _ f row
    rw [latexPieces, hrows, notesPieces_mapWords, captionPieces_mapWords]
    rfl

theorem renderLatex_of_compile {t : Table α} {s s' : Session α}
    {layout : Layout α} (h : compile t s = (.ok layout, s')) :
    renderLatex t s = (.ok (layout.latex s.options.noteSymbols), s') := by
  have hoptions := (compile_continues t s).options
  rw [h] at hoptions
  rw [renderLatex, h, ← hoptions]

/-- A table without raw text has the rows and the caption of its pieces, in
which there are no terms, and it is written from them if its notes are. -/
theorem Compilation.latex_writtenFrom_iff {t : Table α} {s : Session α}
    (c : Compilation t s) (hfree : t.Free ["latex", "tex"])
    (style : NoteSymbols) (term : String → String) :
    (c.layout.latex style).WrittenFrom term (c.layout.latexPieces style) ↔
      (c.layout.latex style).notes =
        written term (c.layout.latexPieces style).notes := by
  constructor
  · intro h
    exact h.notes
  · intro h
    refine ⟨?_, h, (c.layout.written_captionPieces style _ hfree.caption).symm⟩
    show c.layout.rows.map _ = _
    rw [Layout.latexPieces, List.map_map]
    exact List.map_congr_left fun row hrow =>
      (Layout.written_rowPieces _ _ (c.free_cells hfree row hrow)).symm

/-- The terms of notes are written as they are, so they are escaped exactly if
there is nothing to escape in them. -/
theorem Compilation.latex_written {t : Table α} {s : Session α}
    (c : Compilation t s) (hfree : t.Free ["latex", "tex"])
    (style : NoteSymbols) :
    (c.layout.latex style).WrittenFrom (noteTerm style)
        (c.layout.latexPieces style) ∧
      ((c.layout.latex style).WrittenFrom (escapedTerm style)
          (c.layout.latexPieces style) ↔
        ∀ note ∈ t.notes, PlainLabel note.label) := by
  have hnotes := c.layout.written_notesPieces style hfree.notes
  rw [c.latex_writtenFrom_iff hfree, c.latex_writtenFrom_iff hfree, ← hnotes]
  refine ⟨rfl, ?_⟩
  rw [Layout.latexPieces, written_eq_iff (fun l => (length_noteTerm style l).1)
    (fun l => (length_noteTerm style l).2)]
  have hterms := (c.layout.shown style).terms
  rw [Layout.latexPieces] at hterms
  rw [hterms]
  simp only [noteTerm_eq_escapedTerm_iff, List.forall_mem_map]
  rfl

/-- A table that compiles and has no raw text for LaTeX is written from pieces
of which the texts are its words and the title of its caption, and these are
escaped. The terms of its notes are not: they are written as they are, which is
escaped exactly if each label that is not the number of a symbol is without
special characters. -/
theorem renderLatex_escapes {t : Table α} {s s' : Session α}
    {layout : Layout α} (h : compile t s = (.ok layout, s'))
    (hfree : t.Free ["latex", "tex"]) :
    let style := s.options.noteSymbols
    ∃ table, renderLatex t s = (.ok table, s') ∧ layout.Shown style ∧
      table.WrittenFrom (noteTerm style) (layout.latexPieces style) ∧
      (table.WrittenFrom (escapedTerm style) (layout.latexPieces style) ↔
        ∀ note ∈ t.notes, PlainLabel note.label) := by
  obtain ⟨c, rfl, _⟩ := compile_eq_ok_iff.mp h
  exact ⟨_, renderLatex_of_compile h, c.layout.shown _, c.latex_written hfree _⟩

end Table

/-- A cell and a note, with a percent sign in either. -/
def percentTable (label : String) : Table Float where
  rows := [Row.spanned [.cell { content := [.word "5%"] }]]
  attributes := Attributes.default
  notes := [⟨label, [.word "50%"]⟩]

theorem percentTable_free (label : String) :
    (percentTable label).Free ["latex", "tex"] where
  cells := by
    show ∀ row ∈ (percentTable "").rows, _
    decide
  caption := rfl
  notes := by
    intro note hnote
    rw [List.mem_singleton.mp hnote]
    rfl

theorem renderLatex_percentTable :
    ∃ (layout : Layout Float) (s' : Session Float) (table : LatexTable),
      renderLatex (percentTable "a") { options := Options.default } =
          (.ok table, s') ∧
        table.WrittenFrom (escapedTerm .lion) (layout.latexPieces .lion) := by
  have h : ∃ layout s', compile (percentTable "a")
      { options := Options.default } = (.ok layout, s') := ⟨_, _, rfl⟩
  obtain ⟨layout, s', h⟩ := h
  obtain ⟨table, hrender, _, _, hiff⟩ :=
    renderLatex_escapes h (percentTable_free "a")
  refine ⟨layout, s', table, hrender, hiff.mpr fun note hnote _ c hc => ?_⟩
  have htrim : (Text.trim "a").toList = ['a'] := by decide
  rw [List.mem_singleton.mp hnote, htrim, List.mem_singleton] at hc
  rw [hc]
  decide

/-- A percent sign in a label begins a comment in the list of notes. -/
theorem renderLatex_percentLabel :
    ∃ (layout : Layout Float) (s' : Session Float) (table : LatexTable),
      compile (percentTable "50%") { options := Options.default } =
          (.ok layout, s') ∧
        (percentTable "50%").Free ["latex", "tex"] ∧
        renderLatex (percentTable "50%") { options := Options.default } =
          (.ok table, s') ∧
        ¬ table.WrittenFrom (escapedTerm .lion)
          (layout.latexPieces .lion) := by
  have h : ∃ layout s', compile (percentTable "50%")
      { options := Options.default } = (.ok layout, s') := ⟨_, _, rfl⟩
  obtain ⟨layout, s', h⟩ := h
  have hfree := percentTable_free "50%"
  obtain ⟨c, rfl, rfl⟩ := compile_eq_ok_iff.mp h
  refine ⟨_, _, _, h, hfree, renderLatex_of_compile h, fun hescaped => ?_⟩
  have hplain := (c.latex_written hfree .lion).2.mp hescaped _
    List.mem_cons_self (by decide) '%' (by decide)
  exact hplain (by decide)

end Tabulation
