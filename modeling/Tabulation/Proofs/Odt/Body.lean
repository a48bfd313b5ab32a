import Tabulation.Proofs.Xml.Tree
import Tabulation.Table.Odt

/-!
# The body of a table

A body is a caption, a table and notes. Content makes spans in paragraphs, so
everything else that a body has is in the table, and the table is rows of
cells. A cell that spans several columns is one element and an empty one for
each column that it covers.
-/

namespace Tabulation

open Xml

namespace Odt

mutual

theorem elementsOf_inlineNodes {name : String} (h : name ≠ "text:span")
    (symbols : NoteSymbols) (x : Inline) :
    elementsOf name (inlineNodes symbols x) = [] := by
  cases x with
  | word text => rw [inlineNodes]; rfl
  | space => rw [inlineNodes]; rfl
  | strong inner =>
      rw [inlineNodes, styled]
      simp [h.symm, elementsOf_contentNodes h symbols inner]
  | raw format text => rw [inlineNodes]; split <;> rfl
  | note label =>
      rw [inlineNodes, termNode, styled]
      simp [h.symm]

theorem elementsOf_contentNodes {name : String} (h : name ≠ "text:span")
    (symbols : NoteSymbols) (xs : List Inline) :
    elementsOf name (contentNodes symbols xs) = [] := by
  cases xs with
  | nil => rfl
  | cons x xs =>
      rw [contentNodes, elementsOf_append, elementsOf_inlineNodes h symbols x,
        elementsOf_contentNodes h symbols xs, List.append_nil]

end

/-- An element that is not one of those that text is put in. -/
structure NotOfText (name : String) : Prop where
  paragraph : "text:p" ≠ name
  span : "text:span" ≠ name
  sequence : "text:sequence" ≠ name

theorem elementsOf_captionNode {name : String} (h : NotOfText name)
    (symbols : NoteSymbols) (table : String) (layout : Layout Float) :
    elementsOf name [captionNode symbols table layout] = [] := by
  simp [captionNode, styled, h.paragraph, h.span, h.sequence,
    elementsOf_contentNodes h.span.symm, apply_ite (elementsOf name)]

theorem elementsOf_noteNode {name : String} (h : NotOfText name)
    (symbols : NoteSymbols) (note : Note) :
    elementsOf name [noteNode symbols note] = [] := by
  simp [noteNode, styled, termNode, h.paragraph, h.span,
    elementsOf_contentNodes h.span.symm, apply_ite (elementsOf name)]

theorem elementsOf_cellParagraph {name : String} (h : NotOfText name)
    (symbols : NoteSymbols) (cell : PlacedCell Float) :
    elementsOf name [cellParagraph symbols cell] = [] := by
  have hcontent := elementsOf_contentNodes h.span.symm symbols cell.content
  rw [cellParagraph]
  simp only []
  split
  · simp [h.paragraph]
  · split
    · simp [styled, h.paragraph, h.span, hcontent]
    · simp [styled, h.paragraph, hcontent]

/-- What is not of the text in a body is in its table. -/
theorem elementsOf_body {name : String} (h : NotOfText name)
    (symbols : NoteSymbols) (layout : Layout Float) :
    elementsOf name (body symbols layout) =
      elementsOf name [tableNode symbols (tableName layout.number) layout] := by
  have hnotes : elementsOf name (layout.notes.map (noteNode symbols)) = [] := by
    rw [elementsOf_map, List.flatMap_eq_nil_iff]
    exact fun note _ => elementsOf_noteNode h symbols note
  have hcaption := elementsOf_captionNode h symbols (tableName layout.number)
    layout
  rw [body, elementsOf_append, hnotes, List.append_nil,
    ← List.singleton_append, elementsOf_append, hcaption]
  rfl

/-! ## The columns and the rows -/

theorem elementsOf_columns {name : String} (h : "table:table-column" ≠ name)
    (table : String) (count : Nat) :
    elementsOf name ((List.range count).map fun column =>
      .empty "table:table-column"
        [("table:style-name", columnStyleName table column)]) = [] := by
  rw [elementsOf_map, List.flatMap_eq_nil_iff]
  intro column _
  rw [elementsOf_empty, if_neg h]
  rfl

theorem tableRow_cellNodes (symbols : NoteSymbols) (style : String)
    (cell : PlacedCell Float) :
    elementsOf "table:table-row" (cellNodes symbols style cell) = [] := by
  have hparagraph := @elementsOf_cellParagraph "table:table-row"
    ⟨by decide, by decide, by decide⟩ symbols cell
  simp [cellNodes, elementsOf_replicate, hparagraph]

/-- The rows of a body are the rows of the layout. -/
theorem elementsOf_tableRow (symbols : NoteSymbols) (layout : Layout Float) :
    (elementsOf "table:table-row" (body symbols layout)).map
        Element.children =
      layout.rows.mapIdx fun index row => row.cells.flatMap fun cell =>
        cellNodes symbols
          (cellStyleName (tableName layout.number) cell.column index) cell := by
  have hcolumns := @elementsOf_columns "table:table-row" (by decide)
    (tableName layout.number) layout.columns.length
  have hrow : ∀ (index : Nat) (row : PlacedRow Float),
      elementsOf "table:table-row"
        [rowNode symbols (tableName layout.number) index row] =
      [⟨[("table:style-name", rowStyleName (tableName layout.number) index)],
        row.cells.flatMap fun cell => cellNodes symbols
          (cellStyleName (tableName layout.number) cell.column index)
            cell⟩] := by
    intro index row
    simp [rowNode, elementsOf_flatMap, tableRow_cellNodes]
  rw [elementsOf_body ⟨by decide, by decide, by decide⟩, tableNode]
  simp only [elementsOf_element, elementsOf_append, hcolumns]
  rw [List.mapIdx_eq_zipIdx_map, elementsOf_map, List.mapIdx_eq_zipIdx_map]
  simp only [hrow]
  rw [← List.map_eq_flatMap]
  simp

end Odt

end Tabulation
