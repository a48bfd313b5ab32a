import Tabulation.Proofs.Markup.Rows
import Tabulation.Proofs.Xml.Nesting

/-!
# Elements that are closed

Each reader of markup is entered behind a start tag, and it comes back only from
the end tag that belongs to it: a stream that ends before is refused. What is
inside is read by the same rule, so nothing that a reader was entered for is
left open. The reader of a document is entered for nothing. It takes the tags of
the element around the blocks as they come, and the text may end before that
element is closed.
-/

namespace Tabulation.Markup

open Xml (Event Stream Tag Leaves)

variable {outer left : List String}

theorem takeText_leaves {name text : String} {s : Stream} {r : Read String}
    (h : takeText name text s = .ok r) (hs : Leaves (name :: outer) s left) :
    Leaves outer r.rest left := by
  fun_induction takeText name text s with
  | case4 _ _ _ _ _ _ ih => exact ih h (hs.content (.text _))
  | case5 _ _ _ _ ih => exact ih h (hs.content (.cdata _))
  | case6 =>
      cases h
      exact hs.close.2
  | case7 _ _ _ _ hclosed => exact absurd hs.close.1 hclosed
  | case10 _ _ _ ih => exact ih h (hs.content .other)
  | _ => cases h

theorem takeCells_leaves {cells : List Cell} {s : Stream}
    {r : Read (List Cell)} (h : takeCells cells s = .ok r)
    (hs : Leaves ("row" :: outer) s left) : Leaves outer r.rest left := by
  fun_induction takeCells cells s with
  | case6 _ _ _ _ hname _ _ _ htext =>
      rename_i ih
      exact ih h (takeText_leaves htext (hs.start hname))
  | case10 =>
      rename_i ih
      exact ih h (hs.content (.empty _))
  | case12 =>
      cases h
      exact hs.close.2
  | case13 _ _ _ _ hclosed => exact absurd hs.close.1 hclosed
  | case14 _ _ _ _ hstart _ hfinish =>
      rename_i ih
      exact ih h (hs.content (.of_content hstart hfinish))
  | _ => cases h

theorem takeRow_leaves {tag : Tag} {s : Stream} {r : Read Row}
    (h : takeRow tag s = .ok r) (hs : Leaves ("row" :: outer) s left) :
    Leaves outer r.rest left := by
  simp only [takeRow] at h
  split at h
  · cases h
  · next hcells =>
      obtain ⟨_, _, rfl⟩ := Except.map_eq_ok.mp h
      exact takeCells_leaves hcells hs

theorem takeNotes_leaves {notes : List Note} {s : Stream}
    {r : Read (List Note)} (h : takeNotes notes s = .ok r)
    (hs : Leaves ("footnotes" :: outer) s left) : Leaves outer r.rest left := by
  fun_induction takeNotes notes s with
  | case5 _ _ _ _ hname _ _ _ htext =>
      rename_i ih
      exact ih h (takeText_leaves htext (hs.start hname))
  | case8 =>
      rename_i ih
      exact ih h (hs.content (.empty _))
  | case10 =>
      cases h
      exact hs.close.2
  | case11 _ _ _ _ hclosed => exact absurd hs.close.1 hclosed
  | case12 _ _ _ _ hstart _ hfinish =>
      rename_i ih
      exact ih h (hs.content (.of_content hstart hfinish))
  | _ => cases h

section

variable {α : Type} [Scalar α]

/-- Options are left open when they are read, so they may stand between a table
and what is read of it next. The end tag of the table comes behind theirs. -/
theorem takeTable_leaves {d : Draft α} {s : Stream} {r : Read (Table α)}
    (h : takeTable d s = .ok r) (inner : List String)
    (hinner : ∀ name ∈ inner, name = "options")
    (hs : Leaves (inner ++ "table" :: outer) s left) :
    Leaves outer r.rest left := by
  fun_induction takeTable d s generalizing inner with
  | case4 _ _ _ _ hname =>
      rename_i ih
      exact ih h _ (List.forall_mem_cons.mpr ⟨hname, hinner⟩) (hs.start rfl)
  | case7 _ _ _ _ _ hname _ _ htext =>
      rename_i ih
      exact ih h _ hinner (takeText_leaves htext (hs.start hname))
  | case9 _ _ _ _ _ _ hname _ hrow =>
      rename_i ih
      exact ih h _ hinner (takeRow_leaves hrow (hs.start hname))
  | case11 _ _ _ _ _ _ _ hname _ hnotes =>
      rename_i ih
      exact ih h _ hinner (takeNotes_leaves hnotes (hs.start hname))
  | case14 =>
      rename_i ih
      exact ih h _ hinner (hs.content (.empty _))
  | case16 =>
      rename_i ih
      exact ih h _ hinner (hs.content (.empty _))
  | case17 =>
      rename_i ih
      exact ih h _ hinner (hs.content (.empty _))
  | case19 =>
      cases h
      cases inner with
      | nil => exact hs.close.2
      | cons name inner =>
          have hoptions := hinner name List.mem_cons_self
          rw [← hs.close.1] at hoptions
          exact absurd hoptions (by decide)
  | case20 _ closed _ _ hclosed =>
      rename_i ih
      cases inner with
      | nil => exact absurd hs.close.1 hclosed
      | cons name inner =>
          exact ih h _ (List.forall_mem_cons.mp hinner).2 hs.close.2
  | case22 =>
      rename_i ih
      exact ih h _ hinner (hs.content (.text _))
  | case23 _ _ _ _ hstart _ hfinish =>
      rename_i ih
      exact ih h _ hinner (hs.content (.of_content hstart hfinish))
  | _ => cases h

theorem takeFloatRow_leaves {tables : List (Table α)} {s : Stream}
    {r : Read (List (Table α))} (h : takeFloatRow tables s = .ok r)
    (hs : Leaves ("floatrow" :: outer) s left) : Leaves outer r.rest left := by
  fun_induction takeFloatRow tables s with
  | case4 _ _ _ _ hname _ htable =>
      rename_i ih
      exact ih h (takeTable_leaves htable [] (List.forall_mem_nil _)
        (hs.start hname))
  | case8 =>
      cases h
      exact hs.close.2
  | case9 _ _ _ _ hclosed => exact absurd hs.close.1 hclosed
  | case10 _ _ _ _ hstart _ hfinish =>
      rename_i ih
      exact ih h (hs.content (.of_content hstart hfinish))
  | _ => cases h

omit [Scalar α] in
/-- The depth counts the elements of the name that are open inside, so at depth
zero an end tag of that name closes the element that is skipped. -/
theorem skipElement_leaves {name : String} {depth : Nat} {s rest : Stream}
    (h : skipElement name depth s = .ok rest) (inner : List String)
    (hinner : inner.count name = depth)
    (hs : Leaves (inner ++ name :: outer) s left) : Leaves outer rest left := by
  fun_induction skipElement name depth s generalizing inner with
  | case3 depth tag _ _ ih =>
      refine ih h (tag.name :: inner) ?_ (hs.start rfl)
      rw [List.count_cons, hinner]
      simp only [beq_iff_eq]
      split <;> rfl
  | case4 =>
      cases h
      cases inner with
      | nil => exact hs.close.2
      | cons first inner =>
          rw [hs.close.1, List.count_cons_self] at hinner
          cases hinner
  | case5 _ _ depth ih =>
      cases inner with
      | nil => cases hinner
      | cons first inner =>
          refine ih h inner ?_ hs.close.2
          rw [← hs.close.1, List.count_cons_self] at hinner
          exact Nat.add_right_cancel hinner
  | case6 _ closed _ _ hclosed ih =>
      cases inner with
      | nil => exact absurd hs.close.1 hclosed
      | cons first inner =>
          refine ih h inner ?_ hs.close.2
          rwa [← hs.close.1, List.count_cons_of_ne hclosed] at hinner
  | case7 _ _ _ _ hstart hfinish ih =>
      exact ih h inner hinner (hs.content (.of_content hstart hfinish))
  | _ => cases h

/-- Outside of blocks nothing is open but the element around them. -/
theorem takeBlocks_leaves {s : Stream} {blocks : List (Block α)}
    (h : takeBlocks s = .ok blocks) {opened : List String}
    (hopened : ∀ name ∈ opened, name = "document")
    (hs : Leaves opened s left) : ∀ name ∈ left, name = "document" := by
  fun_induction takeBlocks (α := α) s generalizing blocks opened with
  | case2 =>
      cases hs
      exact hopened
  | case3 _ _ _ hname =>
      rename_i ih
      exact ih h (List.forall_mem_cons.mpr ⟨hname, hopened⟩) (hs.start rfl)
  | case5 _ _ _ _ hname _ htable =>
      rename_i ih
      obtain ⟨_, hblocks, _⟩ := Except.map_eq_ok.mp h
      exact ih hblocks hopened
        (takeTable_leaves htable [] (List.forall_mem_nil _) (hs.start hname))
  | case7 _ _ _ _ _ hname _ htables =>
      rename_i ih
      obtain ⟨_, hblocks, _⟩ := Except.map_eq_ok.mp h
      exact ih hblocks hopened (takeFloatRow_leaves htables (hs.start hname))
  | case10 _ _ _ _ _ _ hname _ _ _ hskipped =>
      rename_i ih
      obtain ⟨_, hblocks, _⟩ := Except.map_eq_ok.mp h
      exact ih hblocks hopened
        (skipElement_leaves hskipped [] rfl (hs.start hname))
  | case12 =>
      rename_i ih
      exact ih h hopened (hs.content (.empty _))
  | case14 =>
      rename_i ih
      obtain ⟨_, hblocks, _⟩ := Except.map_eq_ok.mp h
      exact ih hblocks hopened (hs.content (.empty _))
  | case17 =>
      rename_i ih
      exact ih h hopened (hs.content (.text _))
  | case18 event _ _ hstart _ _ =>
      rename_i ih
      by_cases hend : ∃ closed, event = .finish closed
      · obtain ⟨closed, rfl⟩ := hend
        cases opened with
        | nil =>
            cases hs with
            | next step _ => cases step
        | cons name opened =>
            exact ih h (List.forall_mem_cons.mp hopened).2 hs.close.2
      · have hfinish : ∀ closed, event ≠ .finish closed :=
          fun closed heq => hend ⟨closed, heq⟩
        exact ih h hopened (hs.content (.of_content hstart hfinish))
  | _ => cases h

/-- In a document that is read every element is closed, but for the element
around the blocks: that is left open where its start tags outnumber its end
tags. -/
theorem parseDocument_closes {markup : String} {blocks : List (Block α)}
    (h : parseDocument markup = .ok blocks) :
    let s := Stream.ofText markup
    (∃ unclosed, Leaves [] s (List.replicate unclosed "document") ∧
      s.starts "document" = unclosed + s.ends "document") ∧
    (s.Closed ↔ s.starts "document" = s.ends "document") := by
  intro s
  obtain ⟨left, hleft⟩ : ∃ left, Leaves [] s left := Xml.ofText_leaves markup
  have hdocuments := takeBlocks_leaves h (List.forall_mem_nil _) hleft
  have hcount := hleft.count_left "document"
  rw [List.eq_replicate_of_mem hdocuments] at hleft hcount
  rw [List.count_nil, Nat.zero_add, List.count_replicate_self] at hcount
  refine ⟨⟨_, hleft, hcount⟩, ?_⟩
  constructor
  · intro hclosed
    have hequal := hclosed.count_left "document"
    rwa [List.count_nil, Nat.zero_add, Nat.zero_add] at hequal
  · intro hequal
    have hnone : left.length = 0 := by omega
    rw [hnone] at hleft
    exact hleft

end

/-- A document with a heading that has content, and with options that have an
end tag of their own. -/
def wrapped : String :=
  "<document><heading><b></b></heading><table><options></options>" ++
    "<row><cell>a</cell></row></table></document>"

def wrappedEvents : Stream :=
  .next (.start ⟨"document", []⟩) 10 (
  .next (.start ⟨"heading", []⟩) 19 (
  .next (.start ⟨"b", []⟩) 22 (
  .next (.finish "b") 26 (
  .next (.finish "heading") 36 (
  .next (.start ⟨"table", []⟩) 43 (
  .next (.start ⟨"options", []⟩) 52 (
  .next (.finish "options") 62 (
  .next (.start ⟨"row", []⟩) 67 (
  .next (.start ⟨"cell", []⟩) 73 (
  .next (.text "a") 74 (
  .next (.finish "cell") 81 (
  .next (.finish "row") 87 (
  .next (.finish "table") 95 (
  .next (.finish "document") 106 (.finish 106)))))))))))))))

theorem parseDocument_wrapped :
    (∃ blocks : List (Block Float), parseDocument wrapped = .ok blocks) ∧
      (Stream.ofText wrapped).Closed := by
  have hevents : Stream.ofText wrapped = wrappedEvents := by cbv
  have hread : (parseDocument (α := Float) wrapped).isOk = true := by
    rw [parseDocument, hevents]
    decide +kernel
  cases hblocks : parseDocument (α := Float) wrapped with
  | error e =>
      rw [hblocks] at hread
      cases hread
  | ok blocks =>
      refine ⟨⟨blocks, rfl⟩, (parseDocument_closes hblocks).2.mpr ?_⟩
      rw [hevents]
      decide

/-- A start tag alone is a document without blocks. -/
theorem parseDocument_unclosed :
    (∃ blocks : List (Block Float), parseDocument "<document>" = .ok blocks) ∧
      ¬ (Stream.ofText "<document>").Closed := by
  have hevents : Stream.ofText "<document>" =
      .next (.start ⟨"document", []⟩) 10 (.finish 10) := by cbv
  constructor
  · refine ⟨[], ?_⟩
    rw [parseDocument, hevents, takeBlocks, if_pos rfl, takeBlocks]
  · rw [hevents, Stream.Closed]
    intro hclosed
    cases hclosed.start rfl

end Tabulation.Markup
