import Tabulation.Proofs.Odt.Body

/-!
# The text of a table

A body says nothing outside of paragraphs. There is one paragraph for the
caption, one for each cell in the order of the rows and one for each note, and
its text is what the table holds in that place: words and spaces, those in
strong text included, and terms of notes. Raw text counts for nothing here,
whatever its format.
-/

namespace Tabulation

open Xml

namespace Odt

/-- The term of a note as it is shown: without backslashes in front of it. -/
def termText (symbols : NoteSymbols) (label : String) : String :=
  String.ofList ((noteTerm symbols label).toList.dropWhile (· = '\\'))

mutual

/-- The text that is shown for a piece of content. -/
def inlineText (symbols : NoteSymbols) : Inline → String
  | .word text => text
  | .space => " "
  | .strong inner => contentText symbols inner
  | .raw _ _ => ""
  | .note label => termText symbols label

def contentText (symbols : NoteSymbols) : List Inline → String
  | [] => ""
  | x :: xs => inlineText symbols x ++ contentText symbols xs

end

def captionText (symbols : NoteSymbols) (layout : Layout Float) : String :=
  "Table " ++ layout.number ++ (if layout.caption.isEmpty then "" else ": ") ++
    contentText symbols layout.caption

def cellText (symbols : NoteSymbols) (cell : PlacedCell Float) : String :=
  if Inline.allBlank cell.content then "" else contentText symbols cell.content

/-- The text of a note, with something between the term and a definition. -/
def noteText (symbols : NoteSymbols) (between : String) (note : Note) :
    String :=
  termText symbols note.label ++
    if note.definition.isEmpty then ""
    else between ++ contentText symbols note.definition

/-- The paragraphs of a table. -/
def paragraphs (symbols : NoteSymbols) (between : String)
    (layout : Layout Float) : List String :=
  captionText symbols layout ::
    (layout.rows.flatMap fun row => row.cells.map (cellText symbols)) ++
      layout.notes.map (noteText symbols between)

/-! ## Texts -/

theorem shown_styled (name style : String) (children : List Node) :
    (styled name style children).shown = shown children := by
  rw [styled, Node.shown]

theorem shown_termNode (symbols : NoteSymbols) (label : String) :
    (termNode symbols label).shown = termText symbols label := by
  rw [termNode, shown_styled]
  simp [shown, Node.shown, termText]

mutual

theorem shown_inlineNodes (symbols : NoteSymbols) (x : Inline) :
    shown (inlineNodes symbols x) = inlineText symbols x := by
  cases x with
  | word text => simp [inlineNodes, shown, Node.shown, inlineText]
  | space => simp [inlineNodes, shown, Node.shown, inlineText]
  | strong inner =>
      rw [inlineNodes, shown, shown_styled, shown_contentNodes symbols inner,
        shown, String.append_empty, inlineText]
  | raw format text => rw [inlineNodes]; split <;> rfl
  | note label =>
      rw [inlineNodes, shown, shown_termNode, shown, String.append_empty,
        inlineText]

theorem shown_contentNodes (symbols : NoteSymbols) (xs : List Inline) :
    shown (contentNodes symbols xs) = contentText symbols xs := by
  cases xs with
  | nil => rfl
  | cons x xs =>
      rw [contentNodes, shown_append, shown_inlineNodes symbols x,
        shown_contentNodes symbols xs, contentText]

end

theorem shown_captionNode (symbols : NoteSymbols) (table : String)
    (layout : Layout Float) :
    (captionNode symbols table layout).shown = captionText symbols layout := by
  rw [captionNode, captionText, shown_styled, shown, shown_styled,
    shown_contentNodes]
  split <;> simp [shown, Node.shown, String.append_assoc]

theorem shown_cellParagraph (symbols : NoteSymbols) (cell : PlacedCell Float) :
    (cellParagraph symbols cell).shown = cellText symbols cell := by
  rw [cellParagraph, cellText]
  simp only []
  split
  · rfl
  · split
    · simp [shown_styled, shown, shown_contentNodes]
    · rw [shown_styled, shown_contentNodes]

theorem shown_noteNode (symbols : NoteSymbols) (note : Note) :
    (noteNode symbols note).shown = noteText symbols " " note := by
  rw [noteNode, noteText, shown_styled, shown, shown_termNode]
  split
  · rfl
  · rw [shown, Node.shown, shown_contentNodes]

/-! ## Paragraphs -/

/-- The texts of the paragraphs in a tree. -/
def paragraphsOf (ns : List Node) : List String :=
  (elementsOf "text:p" ns).map fun e => shown e.children

theorem paragraphsOf_append (ns ms : List Node) :
    paragraphsOf (ns ++ ms) = paragraphsOf ns ++ paragraphsOf ms := by
  rw [paragraphsOf, elementsOf_append, List.map_append]
  rfl

theorem paragraphsOf_styled (style : String) {children : List Node}
    (h : elementsOf "text:p" children = []) :
    paragraphsOf [styled "text:p" style children] = [shown children] := by
  simp [paragraphsOf, styled, h]

/-- Content is in one paragraph. -/
theorem elementsOf_paragraph (symbols : NoteSymbols) (xs : List Inline) :
    elementsOf "text:p" (contentNodes symbols xs) = [] :=
  elementsOf_contentNodes (by decide) symbols xs

theorem paragraphsOf_captionNode (symbols : NoteSymbols) (table : String)
    (layout : Layout Float) :
    paragraphsOf [captionNode symbols table layout] =
      [captionText symbols layout] := by
  rw [← shown_captionNode symbols table, captionNode, shown_styled]
  refine paragraphsOf_styled _ ?_
  simp [styled, elementsOf_paragraph, apply_ite (elementsOf "text:p")]

theorem paragraphsOf_noteNode (symbols : NoteSymbols) (note : Note) :
    paragraphsOf [noteNode symbols note] = [noteText symbols " " note] := by
  rw [← shown_noteNode, noteNode, shown_styled]
  refine paragraphsOf_styled _ ?_
  simp [termNode, styled, elementsOf_paragraph,
    apply_ite (elementsOf "text:p")]

theorem paragraphsOf_cellParagraph (symbols : NoteSymbols)
    (cell : PlacedCell Float) :
    paragraphsOf [cellParagraph symbols cell] = [cellText symbols cell] := by
  rw [← shown_cellParagraph, cellParagraph]
  simp only []
  split
  · simp [paragraphsOf, shown, Node.shown]
  · rw [shown_styled]
    refine paragraphsOf_styled _ ?_
    split <;> simp [styled, elementsOf_paragraph]

theorem paragraphsOf_cellNodes (symbols : NoteSymbols) (style : String)
    (cell : PlacedCell Float) :
    paragraphsOf (cellNodes symbols style cell) = [cellText symbols cell] := by
  rw [← paragraphsOf_cellParagraph]
  simp [paragraphsOf, cellNodes, elementsOf_replicate]

theorem paragraphsOf_flatMap {β : Type} (f : β → List Node) (xs : List β) :
    paragraphsOf (xs.flatMap f) = xs.flatMap fun x => paragraphsOf (f x) := by
  rw [paragraphsOf, elementsOf_flatMap, List.map_flatMap]
  rfl

theorem paragraphsOf_rowNode (symbols : NoteSymbols) (table : String)
    (index : Nat) (row : PlacedRow Float) :
    paragraphsOf [rowNode symbols table index row] =
      row.cells.map (cellText symbols) := by
  have hrow : paragraphsOf [rowNode symbols table index row] =
      paragraphsOf (row.cells.flatMap fun cell =>
        cellNodes symbols (cellStyleName table cell.column index) cell) := by
    simp [paragraphsOf, rowNode]
  rw [hrow, paragraphsOf_flatMap]
  simp only [paragraphsOf_cellNodes]
  rw [List.map_eq_flatMap]

/-- Each paragraph of a body shows what it was made from. -/
theorem paragraphsOf_body (symbols : NoteSymbols) (layout : Layout Float) :
    paragraphsOf (body symbols layout) = paragraphs symbols " " layout := by
  have hcolumns := @elementsOf_columns "text:p" (by decide)
    (tableName layout.number) layout.columns.length
  have htable : paragraphsOf
      [tableNode symbols (tableName layout.number) layout] =
      paragraphsOf (layout.rows.mapIdx
        (rowNode symbols (tableName layout.number))) := by
    simp [paragraphsOf, tableNode, hcolumns]
  have hnotes : paragraphsOf (layout.notes.map (noteNode symbols)) =
      layout.notes.map (noteText symbols " ") := by
    rw [List.map_eq_flatMap, paragraphsOf_flatMap]
    simp only [paragraphsOf_noteNode]
    rw [List.map_eq_flatMap]
  rw [body, paragraphsOf_append, hnotes, ← List.singleton_append,
    paragraphsOf_append, htable, paragraphsOf_captionNode, paragraphs,
    List.mapIdx_eq_zipIdx_map, List.map_eq_flatMap, paragraphsOf_flatMap]
  simp only [paragraphsOf_rowNode]
  rw [← List.zipIdx_map_fst 0 layout.rows, List.flatMap_map]
  simp

/-- A tree without text outside of paragraphs. -/
def Typeset (ns : List Node) : Prop :=
  shown ns = String.join (paragraphsOf ns)

namespace Typeset

theorem append {ns ms : List Node} (h : Typeset ns) (h' : Typeset ms) :
    Typeset (ns ++ ms) := by
  rw [Typeset, shown_append, h, h', paragraphsOf_append, String.join_append]

theorem flatMap {β : Type} {f : β → List Node} {xs : List β}
    (h : ∀ x ∈ xs, Typeset (f x)) : Typeset (xs.flatMap f) := by
  induction xs with
  | nil => rfl
  | cons x xs ih =>
      obtain ⟨hx, hxs⟩ := List.forall_mem_cons.mp h
      exact hx.append (ih hxs)

theorem map {β : Type} {f : β → Node} {xs : List β}
    (h : ∀ x ∈ xs, Typeset [f x]) : Typeset (xs.map f) := by
  rw [List.map_eq_flatMap]
  exact .flatMap h

theorem of_shown {n : Node} {text : String} (hshown : n.shown = text)
    (hparagraph : paragraphsOf [n] = [text]) : Typeset [n] := by
  rw [Typeset, hparagraph, shown, hshown]
  simp [shown]

/-- An element around paragraphs. -/
theorem element {name : String} (h : name ≠ "text:p") (as : Xml.Attributes)
    {children : List Node} (hchildren : Typeset children) :
    Typeset [.element name as children] := by
  rw [Typeset, shown, Node.shown, hchildren]
  simp [shown, paragraphsOf, h]

theorem empty {name : String} (h : name ≠ "text:p") (as : Xml.Attributes) :
    Typeset [.empty name as] := by
  simp [Typeset, shown, Node.shown, paragraphsOf, h]

end Typeset

theorem typeset_rowNode (symbols : NoteSymbols) (table : String) (index : Nat)
    (row : PlacedRow Float) : Typeset [rowNode symbols table index row] := by
  refine .element (by decide) _ (.flatMap fun cell _ => ?_)
  rw [cellNodes, ← List.singleton_append]
  refine .append (.element (by decide) _ ?_) ?_
  · exact .of_shown (shown_cellParagraph symbols cell)
      (paragraphsOf_cellParagraph symbols cell)
  · rw [show List.replicate (cell.span - 1) (Node.empty _ []) =
      (List.range (cell.span - 1)).map fun _ =>
        .empty "table:covered-table-cell" [] by
          rw [List.map_const', List.length_range]]
    exact .map fun _ _ => .empty (by decide) _

/-- Outside of paragraphs there is no text. -/
theorem typeset_body (symbols : NoteSymbols) (layout : Layout Float) :
    Typeset (body symbols layout) := by
  rw [body, ← List.singleton_append]
  refine .append (.append ?_ ?_) (.map fun note _ => ?_)
  · exact .of_shown (shown_captionNode symbols _ layout)
      (paragraphsOf_captionNode symbols _ layout)
  · refine .element (by decide) _ (.append ?_ ?_)
    · exact .map fun column _ => .empty (by decide) _
    · rw [List.mapIdx_eq_zipIdx_map]
      exact .map fun row _ => typeset_rowNode symbols _ row.2 row.1
  · exact .of_shown (shown_noteNode symbols note)
      (paragraphsOf_noteNode symbols note)

end Odt

end Tabulation
