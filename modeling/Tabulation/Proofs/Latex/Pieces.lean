import Mathlib
import Tabulation.Proofs.Layout.Content

/-!
# Markup and text in LaTeX

The rows, the notes and the caption of a table are each put together from
markup and from text of the table. The lists of pieces here say which is which.
A word is a text wherever it stands, and it is escaped; a term of a note is a
text as well, but it is written as it is, because the symbols that stand for
numbered notes are markup.

That a text is a piece of its own means more than that it can be found in the
output: other words in the place of those in a table change the pieces that
hold the words, and none of the markup.
-/

namespace Tabulation

namespace Latex

/-! ## Special characters -/

/-- The characters that mean something else than themselves. -/
def specials : List Char :=
  ['\\', '&', '%', '$', '#', '_', '\x7b', '\x7d', '~', '^']

theorem escapeChar_plain {c : Char} (h : c ∉ specials) :
    escapeChar c = [c] := by
  simp only [specials, List.mem_cons, List.not_mem_nil, or_false, not_or] at h
  simp [escapeChar, h]

theorem length_escapeChar {c : Char} (h : c ∈ specials) :
    2 ≤ (escapeChar c).length := by
  rw [escapeChar]
  split
  · decide
  split
  · decide
  split
  · decide
  split
  · exact Nat.le_refl 2
  · simp_all [specials]

theorem one_le_length_escapeChar (c : Char) : 1 ≤ (escapeChar c).length := by
  by_cases h : c ∈ specials
  · exact Nat.le_of_succ_le (length_escapeChar h)
  · rw [escapeChar_plain h]
    exact Nat.le_refl 1

theorem length_escapeChars (cs : List Char) :
    cs.length ≤ (cs.flatMap escapeChar).length ∧
      (cs.length = (cs.flatMap escapeChar).length ↔
        ∀ c ∈ cs, c ∉ specials) := by
  induction cs with
  | nil => simp
  | cons c cs ih =>
      obtain ⟨hle, hiff⟩ := ih
      have hone := one_le_length_escapeChar c
      rw [List.flatMap_cons, List.length_cons, List.length_append,
        List.forall_mem_cons, ← hiff]
      by_cases h : c ∈ specials
      · have htwo := length_escapeChar h
        refine ⟨by omega, ⟨by omega, fun hand => absurd h hand.1⟩⟩
      · rw [escapeChar_plain h, List.length_singleton]
        refine ⟨by omega, ⟨fun heq => ⟨h, by omega⟩, fun hand => by omega⟩⟩

theorem length_le_escape (s : String) : s.length ≤ (escape s).length := by
  rw [← String.length_toList, ← String.length_toList, escape,
    String.toList_ofList]
  exact (length_escapeChars s.toList).1

/-- Only a text without special characters has its length when escaped. -/
theorem length_eq_escape_iff {s : String} :
    s.length = (escape s).length ↔ ∀ c ∈ s.toList, c ∉ specials := by
  rw [← String.length_toList, ← String.length_toList, escape,
    String.toList_ofList]
  exact (length_escapeChars s.toList).2

theorem escape_eq_iff {s : String} :
    s = escape s ↔ ∀ c ∈ s.toList, c ∉ specials := by
  constructor
  · intro h
    exact length_eq_escape_iff.mp (congrArg String.length h)
  · intro h
    have hmap : s.toList.flatMap escapeChar = s.toList.flatMap ([·]) :=
      List.flatMap_congr fun c hc => escapeChar_plain (h c hc)
    rw [escape, hmap, List.flatMap_singleton', String.ofList_toList]

/-! ## Pieces -/

/-- A piece of output, by where it comes from. -/
inductive Piece where
  | markup (text : String)
  /-- A text of the table. -/
  | shown (text : String)
  /-- The term for a label of a note. -/
  | term (label : String)

namespace Piece

/-- How a piece is written, with terms written in some way. -/
def write (term : String → String) : Piece → String
  | .markup text => text
  | .shown text => escape text
  | .term label => term label

def shown? : Piece → Option String
  | .shown text => some text
  | _ => none

def term? : Piece → Option String
  | .term label => some label
  | _ => none

/-- The piece with another text for the one that it shows. -/
def mapShown (f : String → String) : Piece → Piece
  | .shown text => .shown (f text)
  | .markup text => .markup text
  | .term label => .term label

end Piece

def written (term : String → String) (ps : List Piece) : String :=
  String.join (ps.map (Piece.write term))

/-- Pieces as the argument of a command. -/
def argument (command : String) (ps : List Piece) : List Piece :=
  .markup (command ++ "\x7b") :: (ps ++ [.markup "\x7d"])

/-- The entries of a row with marks between them. -/
def separated : List (List Piece) → List Piece
  | [] => []
  | ps :: pss => ps ++ pss.flatMap (.markup " & " :: ·)

section Written

variable (term : String → String)

@[simp] theorem written_nil : written term [] = "" := rfl

@[simp] theorem written_append (ps qs : List Piece) :
    written term (ps ++ qs) = written term ps ++ written term qs := by
  rw [written, List.map_append, String.join_append]
  rfl

@[simp] theorem written_cons (p : Piece) (ps : List Piece) :
    written term (p :: ps) = p.write term ++ written term ps := by
  rw [written, List.map_cons, String.join_cons]
  rfl

@[simp] theorem written_argument (command : String) (ps : List Piece) :
    written term (argument command ps) =
      command ++ braced (written term ps) := by
  rw [argument, written_cons, written_append, written_cons, written_nil,
    String.append_empty, braced]
  simp only [Piece.write, String.append_assoc]

theorem written_flatMap {β : Type} (f : β → List Piece) (xs : List β) :
    written term (xs.flatMap f) =
      String.join (xs.map fun x => written term (f x)) := by
  induction xs with
  | nil => rfl
  | cons x xs ih =>
      rw [List.flatMap_cons, written_append, ih, List.map_cons,
        String.join_cons]

theorem written_separated (pss : List (List Piece)) :
    written term (separated pss) =
      String.intercalate " & " (pss.map (written term)) := by
  cases pss with
  | nil => rfl
  | cons ps pss =>
      rw [separated, written_append]
      induction pss generalizing ps with
      | nil => simp
      | cons qs pss ih =>
          rw [List.flatMap_cons, List.cons_append, written_cons,
            written_append, ih qs, List.map_cons, List.map_cons, List.map_cons,
            String.intercalate_cons_cons, String.append_assoc]
          rfl

end Written

theorem filterMap_argument {β : Type} {f : Piece → Option β}
    (h : ∀ text, f (.markup text) = none) (command : String)
    (ps : List Piece) : (argument command ps).filterMap f = ps.filterMap f := by
  simp [argument, h]

theorem filterMap_separated {β : Type} {f : Piece → Option β}
    (h : ∀ text, f (.markup text) = none) (pss : List (List Piece)) :
    (separated pss).filterMap f = pss.flatMap (·.filterMap f) := by
  cases pss with
  | nil => rfl
  | cons ps pss => simp [separated, List.filterMap_flatMap, h]

theorem map_separated (f : String → String) (pss : List (List Piece)) :
    (separated pss).map (Piece.mapShown f) =
      separated (pss.map (·.map (Piece.mapShown f))) := by
  cases pss with
  | nil => rfl
  | cons ps pss =>
      simp [separated, List.map_flatMap, List.flatMap_map, Piece.mapShown]

theorem map_argument (f : String → String) (command : String)
    (ps : List Piece) : (argument command ps).map (Piece.mapShown f) =
      argument command (ps.map (Piece.mapShown f)) := by
  simp [argument, Piece.mapShown]

theorem length_written (term : String → String) (ps : List Piece) :
    (written term ps).length = (ps.map fun p => (p.write term).length).sum := by
  rw [written, String.length_join, List.map_map]
  rfl

/-- Ways of writing terms, one of which makes each longer or leaves it, write
the same only if they write each term of it the same. -/
theorem written_eq_iff {term term' : String → String}
    (hle : ∀ label, (term label).length ≤ (term' label).length)
    (heq : ∀ label, (term label).length = (term' label).length →
      term label = term' label) (ps : List Piece) :
    written term ps = written term' ps ↔
      ∀ label ∈ ps.filterMap Piece.term?, term label = term' label := by
  have hlength : ∀ p : Piece,
      (p.write term).length ≤ (p.write term').length := by
    intro p
    cases p with
    | markup text => exact Nat.le_refl _
    | shown text => exact Nat.le_refl _
    | term label => exact hle label
  constructor
  · intro h
    have hsum := congrArg String.length h
    rw [length_written, length_written] at hsum
    intro label hlabel
    obtain ⟨p, hp, hterm⟩ := List.mem_filterMap.mp hlabel
    cases p with
    | markup text => cases hterm
    | shown text => cases hterm
    | term _ =>
        cases hterm
        refine heq label (Nat.le_antisymm (hle label) ?_)
        -- No piece can make up for one that has become longer.
        by_contra hlt
        have hsums := List.sum_lt_sum (f := fun p => (p.write term).length)
          (fun p => (p.write term').length) (fun p _ => hlength p)
          ⟨_, hp, Nat.not_le.mp hlt⟩
        omega
  · intro h
    rw [written, written]
    refine congrArg String.join (List.map_congr_left fun p hp => ?_)
    cases p with
    | markup text => rfl
    | shown text => rfl
    | term label => exact h label (List.mem_filterMap.mpr ⟨_, hp, rfl⟩)

end Latex

open Latex

/-! ## Content -/

namespace Inline

mutual

/-- A piece of content as it comes out in LaTeX, raw text left aside. -/
def pieces (target : String → String) : Inline → List Piece
  | .word text => [.shown text]
  | .space => [.markup " "]
  | .strong inner => argument "\\textbf" (allPieces target inner)
  | .raw _ _ => []
  | .note label => [.markup ("\\tnotex" ++ braced (target label))]

def allPieces (target : String → String) : List Inline → List Piece
  | [] => []
  | x :: xs => x.pieces target ++ allPieces target xs

end

mutual

/-- The words in a piece of content. -/
def words : Inline → List String
  | .word text => [text]
  | .space => []
  | .strong inner => allWords inner
  | .raw _ _ => []
  | .note _ => []

def allWords : List Inline → List String
  | [] => []
  | x :: xs => x.words ++ allWords xs

end

mutual

/-- The piece with other words in the place of its own. -/
def mapWords (f : String → String) : Inline → Inline
  | .word text => .word (f text)
  | .space => .space
  | .strong inner => .strong (mapAllWords f inner)
  | .raw format text => .raw format text
  | .note label => .note label

def mapAllWords (f : String → String) : List Inline → List Inline
  | [] => []
  | x :: xs => x.mapWords f :: mapAllWords f xs

end

section Pieces

variable (target : String → String)

mutual

theorem written_pieces (term : String → String) (x : Inline)
    (h : x.free ["latex", "tex"] = true) :
    written term (x.pieces target) = x.latex target := by
  cases x with
  | word text => simp [pieces, Inline.latex, Piece.write]
  | space => simp [pieces, Inline.latex, Piece.write]
  | strong inner =>
      rw [pieces, written_argument, written_allPieces term inner h,
        Inline.latex]
  | raw format text =>
      rw [pieces, Inline.latex, if_neg]
      · rfl
      · rw [free] at h
        rintro (rfl | rfl) <;> revert h <;> decide
  | note label => simp [pieces, Inline.latex, Piece.write]

theorem written_allPieces (term : String → String) (xs : List Inline)
    (h : allFree ["latex", "tex"] xs = true) :
    written term (allPieces target xs) = latexInlines target xs := by
  cases xs with
  | nil => rfl
  | cons x xs =>
      rw [allFree, Bool.and_eq_true] at h
      rw [allPieces, written_append, written_pieces term x h.1,
        written_allPieces term xs h.2, latexInlines]

end

mutual

theorem shown_pieces (x : Inline) :
    (x.pieces target).filterMap Piece.shown? = x.words := by
  cases x with
  | word text => rfl
  | space => rfl
  | strong inner =>
      rw [pieces, filterMap_argument (fun _ => rfl), shown_allPieces inner,
        words]
  | raw format text => rfl
  | note label => rfl

theorem shown_allPieces (xs : List Inline) :
    (allPieces target xs).filterMap Piece.shown? = allWords xs := by
  cases xs with
  | nil => rfl
  | cons x xs =>
      rw [allPieces, List.filterMap_append, shown_pieces x, shown_allPieces xs,
        allWords]

end

mutual

/-- There is no term in content, where notes are only referred to. -/
theorem term_pieces (x : Inline) :
    (x.pieces target).filterMap Piece.term? = [] := by
  cases x with
  | word text => rfl
  | space => rfl
  | strong inner =>
      rw [pieces, filterMap_argument (fun _ => rfl), term_allPieces inner]
  | raw format text => rfl
  | note label => rfl

theorem term_allPieces (xs : List Inline) :
    (allPieces target xs).filterMap Piece.term? = [] := by
  cases xs with
  | nil => rfl
  | cons x xs =>
      rw [allPieces, List.filterMap_append, term_pieces x, term_allPieces xs,
        List.append_nil]

end

mutual

theorem pieces_mapWords (f : String → String) (x : Inline) :
    (x.mapWords f).pieces target =
      (x.pieces target).map (Piece.mapShown f) := by
  cases x with
  | word text => rfl
  | space => rfl
  | strong inner =>
      rw [mapWords, pieces, allPieces_mapWords f inner, pieces, map_argument]
  | raw format text => rfl
  | note label => rfl

theorem allPieces_mapWords (f : String → String) (xs : List Inline) :
    allPieces target (mapAllWords f xs) =
      (allPieces target xs).map (Piece.mapShown f) := by
  cases xs with
  | nil => rfl
  | cons x xs =>
      rw [mapAllWords, allPieces, pieces_mapWords f x, allPieces_mapWords f xs,
        allPieces, List.map_append]

end

end Pieces

end Inline

end Tabulation
