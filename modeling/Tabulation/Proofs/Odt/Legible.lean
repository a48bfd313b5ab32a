import Tabulation.Proofs.Layout.Content
import Tabulation.Proofs.Xml.Reading
import Tabulation.Table.Odt

/-!
# What is written of a table is legible

All names of elements and attributes are fixed, and no element has an attribute
twice. What comes from outside is put into texts and values of attributes,
which are escaped, except raw text for this format; so without any of that, a
body is legible, and the styles are in any case.
-/

namespace Tabulation

open Xml

namespace Odt

/-- The formats of raw text that is written as it is. -/
def rawFormats : List String := ["opendocument", "odt"]

theorem legible_styled {name style : String} {children : List Node}
    (hname : areNames name ["text:style-name"] = true)
    (h : legible children = true) :
    (styled name style children).legible = true := by
  rw [styled, Node.legible, Bool.and_eq_true]
  exact ⟨hname, h⟩

theorem legible_termNode (symbols : NoteSymbols) (label : String) :
    (termNode symbols label).legible = true :=
  legible_styled (by decide) rfl

mutual

theorem legible_inlineNodes (symbols : NoteSymbols) (x : Inline)
    (h : x.free rawFormats = true) :
    legible (inlineNodes symbols x) = true := by
  cases x with
  | word text => rw [inlineNodes]; rfl
  | space => rw [inlineNodes]; rfl
  | strong inner =>
      rw [inlineNodes, legible_singleton]
      exact legible_styled (by decide) (legible_contentNodes symbols inner h)
  | raw format text =>
      rw [inlineNodes, if_neg]
      · rfl
      · rw [Inline.free] at h
        rintro (rfl | rfl) <;> revert h <;> decide
  | note label =>
      rw [inlineNodes, legible_singleton]
      exact legible_termNode symbols label

theorem legible_contentNodes (symbols : NoteSymbols) (xs : List Inline)
    (h : Inline.allFree rawFormats xs = true) :
    legible (contentNodes symbols xs) = true := by
  cases xs with
  | nil => rfl
  | cons x xs =>
      rw [Inline.allFree, Bool.and_eq_true] at h
      rw [contentNodes, legible_append, legible_inlineNodes symbols x h.1,
        legible_contentNodes symbols xs h.2]
      rfl

end

theorem legible_captionNode (symbols : NoteSymbols) (table : String)
    {layout : Layout Float}
    (h : Inline.allFree rawFormats layout.caption = true) :
    (captionNode symbols table layout).legible = true := by
  refine legible_styled (by decide) ?_
  rw [legible, legible_contentNodes symbols _ h, Bool.and_true]
  refine legible_styled (by decide) ?_
  have hsequence : areNames "text:sequence" ["text:ref-name", "text:name",
    "text:formula", "style:num-format"] = true := by decide
  rw [legible_append]
  split <;> simp [legible, Node.legible, hsequence]

theorem legible_cellParagraph (symbols : NoteSymbols) {cell : PlacedCell Float}
    (h : Inline.allFree rawFormats cell.content = true) :
    (cellParagraph symbols cell).legible = true := by
  have hcontent := legible_contentNodes symbols _ h
  rw [cellParagraph]
  simp only []
  split
  · show areNames "text:p" ["text:style-name"] = true
    decide
  · refine legible_styled (by decide) ?_
    split
    · rw [legible_singleton]
      exact legible_styled (by decide) hcontent
    · exact hcontent

theorem legible_noteNode (symbols : NoteSymbols) {note : Note}
    (h : Inline.allFree rawFormats note.definition = true) :
    (noteNode symbols note).legible = true := by
  refine legible_styled (by decide) ?_
  rw [legible, legible_termNode, Bool.true_and]
  split
  · rfl
  · exact legible_contentNodes symbols _ h

theorem legible_cellNodes (symbols : NoteSymbols) (style : String)
    {cell : PlacedCell Float}
    (h : Inline.allFree rawFormats cell.content = true) :
    legible (cellNodes symbols style cell) = true := by
  rw [cellNodes, legible, Bool.and_eq_true]
  constructor
  · rw [Node.legible, legible_singleton, legible_cellParagraph symbols h,
      Bool.and_true]
    split
    · show areNames "table:table-cell" ["table:style-name",
        "office:value-type", "table:number-columns-spanned"] = true
      decide
    · show areNames "table:table-cell" ["table:style-name",
        "office:value-type"] = true
      decide
  · rw [legible_iff]
    intro n hn
    rw [List.eq_of_mem_replicate hn]
    decide

/-- A body without raw text is legible. -/
theorem legible_body (symbols : NoteSymbols) {layout : Layout Float}
    (hcaption : Inline.allFree rawFormats layout.caption = true)
    (hcells : ∀ row ∈ layout.rows, ∀ cell ∈ row.cells,
      Inline.allFree rawFormats cell.content = true)
    (hnotes : ∀ note ∈ layout.notes,
      Inline.allFree rawFormats note.definition = true) :
    legible (body symbols layout) = true := by
  have hcolumns :
      areNames "table:table-column" ["table:style-name"] = true := by
    decide
  have hrow : areNames "table:table-row" ["table:style-name"] = true := by
    decide
  have htable : areNames "table:table"
      ["table:name", "table:style-name", "table:template-name"] = true := by
    decide
  rw [body, legible_append, legible, legible_captionNode symbols _ hcaption,
    legible_singleton, Bool.true_and, Bool.and_eq_true, legible_iff]
  constructor
  · rw [tableNode, Node.legible, legible_append]
    simp only [Bool.and_eq_true, legible_iff]
    refine ⟨htable, fun n hn => ?_, fun n hn => ?_⟩
    · obtain ⟨column, _, rfl⟩ := List.mem_map.mp hn
      exact hcolumns
    · obtain ⟨i, hi, rfl⟩ := List.mem_mapIdx.mp hn
      rw [rowNode, Node.legible, Bool.and_eq_true]
      refine ⟨hrow, legible_iff.mpr fun n hn => ?_⟩
      obtain ⟨cell, hcell, hn⟩ := List.mem_flatMap.mp hn
      exact legible_iff.mp (legible_cellNodes symbols _
        (hcells _ (List.getElem_mem hi) cell hcell)) n hn
  · intro n hn
    obtain ⟨note, hnote, rfl⟩ := List.mem_map.mp hn
    exact legible_noteNode symbols (hnotes note hnote)

theorem legible_cellStyle (name : String) (paddingTop : Float) (indent : Nat)
    (underlined : Bool) :
    (cellStyle name paddingTop indent underlined).legible = true := by
  rw [cellStyle]
  cases underlined with
  | false =>
      show (areNames "style:style" ["style:name", "style:family"] &&
        (areNames "style:table-cell-properties" ["fo:padding-left",
          "fo:padding-right", "fo:padding-top", "fo:padding-bottom",
          "style:vertical-align"] && true)) = true
      decide
  | true =>
      show (areNames "style:style" ["style:name", "style:family"] &&
        (areNames "style:table-cell-properties" ["fo:padding-left",
          "fo:padding-right", "fo:padding-top", "fo:padding-bottom",
          "style:vertical-align", "fo:border-bottom"] && true)) = true
      decide

theorem legible_columnStyle (name : String) (width : Float) :
    (columnStyle name width).legible = true := by
  show (areNames "style:style" ["style:name", "style:family"] &&
    (areNames "style:table-column-properties" ["style:rel-column-width"] &&
      true)) = true
  decide

/-- What there is among styles. -/
theorem mem_styles {layout : Layout Float} {n : Node} (h : n ∈ styles layout) :
    (∃ name width, n = columnStyle name width) ∨
      ∃ name paddingTop indent underlined,
        n = cellStyle name paddingTop indent underlined := by
  have hrows : ∀ (rows : List (PlacedRow Float)) (table : String) (index : Nat)
      (above : Option (PlacedRow Float)),
      n ∈ rowsStyles table index above rows →
        ∃ name paddingTop indent underlined,
          n = cellStyle name paddingTop indent underlined := by
    intro rows
    induction rows with
    | nil => intro table index above hn; cases hn
    | cons row rest ih =>
        intro table index above hn
        rcases List.mem_append.mp hn with hn | hn
        · obtain ⟨cell, _, rfl⟩ := List.mem_map.mp hn
          exact ⟨_, _, _, _, rfl⟩
        · exact ih table (index + 1) (some row) hn
  rcases List.mem_append.mp h with h | h
  · obtain ⟨i, _, rfl⟩ := List.mem_mapIdx.mp h
    exact .inl ⟨_, _, rfl⟩
  · exact .inr (hrows _ _ _ _ h)

theorem legible_styles (layout : Layout Float) :
    legible (styles layout) = true := by
  rw [legible_iff]
  intro n hn
  rcases mem_styles hn with ⟨name, width, rfl⟩ | ⟨name, top, indent, line, rfl⟩
  · exact legible_columnStyle name width
  · exact legible_cellStyle name top indent line

end Odt

end Tabulation
