import Mathlib
import Tabulation.Content.Reader
import Tabulation.Proofs.Content.Spaces

/-!
# Content read from a text

What is read from a text is canonical: its spaces stand between other pieces,
and a piece has no empty parts and no character that would have ended it. The
spaces are the work of normalizing, which is done to the text and to the inside
of each strong part. The pieces are the work of reading: a word is collected
from characters that are not blank, and the parts of a construct are what stands
in front of the mark that closes it. A text without marks is read as its words.
-/

namespace Tabulation.Inline

open Text

/-- A word is not empty and not broken by blanks. -/
def IsWord (cs : List Char) : Prop :=
  cs ≠ [] ∧ ∀ c ∈ cs, isBlank c = false

/-- The pieces that reading a text makes. -/
inductive Canonical : Inline → Prop where
  | word {cs : List Char} (h : IsWord cs) : Canonical (.word (String.ofList cs))
  | space : Canonical .space
  | strong {inner : List Inline} (tidy : Tidy inner)
      (pieces : ∀ x ∈ inner, Canonical x) : Canonical (.strong inner)
  | raw {format text : List Char} (named : IsWord format)
      (brace : '\x7d' ∉ format) (quote : '\x60' ∉ text) :
      Canonical (.raw (String.ofList format) (String.ofList text))
  | note {label : List Char} (named : IsWord label)
      (apart : ∀ c ∈ [',', '[', ']'], c ∉ label) :
      Canonical (.note (String.ofList label))

/-! ## Marks -/

theorem after?_eq_some {start cs rest : List Char} :
    after? start cs = some rest ↔ cs = start ++ rest := by
  fun_induction after? start cs with
  | case1 cs => rw [Option.some_inj, List.nil_append]
  | case2 p ps =>
      exact iff_of_false (Option.some_ne_none rest).symm
        (List.cons_ne_nil p _).symm
  | case3 p ps cs ih => rw [ih, List.cons_append, List.cons_inj_right]
  | case4 p ps c cs hne =>
      refine iff_of_false (Option.some_ne_none rest).symm fun h => hne ?_
      exact (List.cons.inj h).1.symm

/-- What stands in front of a mark of one character has no such character. -/
theorem breakOn_not_mem {mark : Char} {cs before behind : List Char}
    (h : breakOn [mark] cs = some (before, behind)) : mark ∉ before := by
  fun_induction breakOn [mark] cs generalizing before with
  | case1 =>
      obtain ⟨_, hmark, -⟩ := Option.map_eq_some_iff.mp h
      cases after?_eq_some.mp hmark
  | case2 c cs rest hmark =>
      cases h
      exact List.not_mem_nil
  | case3 c cs hmark ih =>
      obtain ⟨⟨front, _⟩, hfront, heq⟩ := Option.map_eq_some_iff.mp h
      cases heq
      rw [List.mem_cons, not_or]
      refine ⟨?_, ih hfront⟩
      rintro rfl
      have hhere : after? [mark] (mark :: cs) = some cs :=
        after?_eq_some.mpr rfl
      rw [hhere] at hmark
      cases hmark

theorem not_mem_pieces {separator : Char} {cs piece : List Char}
    (h : piece ∈ pieces separator cs) : separator ∉ piece ∧ piece ⊆ cs := by
  induction cs generalizing piece with
  | nil =>
      rw [pieces, List.mem_singleton] at h
      rw [h]
      exact ⟨List.not_mem_nil, List.Subset.refl []⟩
  | cons c cs ih =>
      rw [pieces] at h
      split at h
      · rcases List.mem_cons.mp h with rfl | h
        · exact ⟨List.not_mem_nil, List.nil_subset _⟩
        · exact ⟨(ih h).1, List.subset_cons_of_subset c (ih h).2⟩
      · next hne =>
          split at h
          · next hnil => exact absurd hnil (pieces_ne_nil separator cs)
          · next first rest hpieces =>
              rw [hpieces] at ih
              rcases List.mem_cons.mp h with rfl | h
              · obtain ⟨hnot, hsub⟩ := ih List.mem_cons_self
                refine ⟨?_, List.cons_subset_cons c hsub⟩
                rw [List.mem_cons, not_or]
                exact ⟨Ne.symm hne, hnot⟩
              · have hrest := ih (List.mem_cons_of_mem first h)
                exact ⟨hrest.1, List.subset_cons_of_subset c hrest.2⟩

/-! ## Constructs -/

/-- The characters that open a construct. -/
def openings : List (List Char) := [['*', '*'], ['\x60'], ['[', '^']]

/-- What the parts of a construct are, other than those of a strong text, which
are read once more. -/
inductive Construct.Sound : Construct → Prop where
  | strong (inner : List Char) : Sound (.strong inner)
  | raw {format text : List Char} (named : IsWord format)
      (brace : '\x7d' ∉ format) (quote : '\x60' ∉ text) :
      Sound (.raw format text)
  | notes {labels : List (List Char)} (named : ∀ label ∈ labels, IsWord label)
      (apart : ∀ label ∈ labels, ∀ c ∈ [',', '[', ']'], c ∉ label) :
      Sound (.notes labels)

/-- A construct that is read, behind the characters that open it. -/
structure Opens (cs : List Char) (k : Construct) : Prop where
  opening : ∃ mark ∈ openings, mark <+: cs
  sound : k.Sound

theorem isWord_iff {cs : List Char} :
    IsWord cs ↔ (cs.isEmpty || cs.any isBlank) = false := by
  rw [IsWord, Bool.or_eq_false_iff, List.isEmpty_eq_false_iff,
    List.any_eq_false]
  simp only [Bool.not_eq_true]

variable {cs rest : List Char} {k : Construct}

theorem strong?_opens (h : strong? cs = some (k, rest)) : Opens cs k := by
  simp only [strong?, Option.bind_eq_bind, Option.bind_eq_some_iff] at h
  obtain ⟨opened, hopen, ⟨inner, _⟩, -, h⟩ := h
  split at h
  · cases h
  · cases h
    exact ⟨⟨_, by decide, opened, (after?_eq_some.mp hopen).symm⟩, .strong _⟩

theorem raw?_opens (h : raw? cs = some (k, rest)) : Opens cs k := by
  simp only [raw?, Option.bind_eq_bind, Option.bind_eq_some_iff] at h
  obtain ⟨opened, hopen, ⟨text, _⟩, htext, _, -, ⟨format, _⟩, hformat, h⟩ := h
  split at h
  · cases h
  · next hword =>
      cases h
      refine ⟨⟨_, by decide, opened, (after?_eq_some.mp hopen).symm⟩, ?_⟩
      exact .raw (isWord_iff.mpr (Bool.eq_false_iff.mpr hword))
        (breakOn_not_mem hformat) (breakOn_not_mem htext)

theorem notes?_opens (h : notes? cs = some (k, rest)) : Opens cs k := by
  simp only [notes?, Option.bind_eq_bind, Option.bind_eq_some_iff] at h
  obtain ⟨opened, hopen, ⟨body, _⟩, hbody, _, -, h⟩ := h
  split at h
  · cases h
  · next hplain =>
      cases h
      refine ⟨⟨_, by decide, opened, (after?_eq_some.mp hopen).symm⟩, ?_⟩
      have hclean : ∀ c ∈ body, isBlank c = false ∧ c ≠ '[' := by
        simp only [Bool.or_eq_true, not_or, List.any_eq_true, not_exists,
          not_and, decide_eq_true_eq] at hplain
        exact fun c hc => (hplain.2 c hc).imp_left Bool.eq_false_iff.mpr
      have hlabel : ∀ label ∈ (pieces ',' body).filter (!·.isEmpty),
          label ≠ [] ∧ ',' ∉ label ∧ label ⊆ body := by
        intro label hlabel
        obtain ⟨hpiece, hne⟩ := List.mem_filter.mp hlabel
        refine ⟨?_, not_mem_pieces hpiece⟩
        rintro rfl
        cases hne
      refine .notes (fun label h => ?_) (fun label h => ?_)
      · obtain ⟨hne, -, hsub⟩ := hlabel label h
        exact ⟨hne, fun c hc => (hclean c (hsub hc)).1⟩
      · obtain ⟨-, hcomma, hsub⟩ := hlabel label h
        intro c hc
        simp only [List.mem_cons, List.not_mem_nil, or_false] at hc
        rcases hc with rfl | rfl | rfl
        · exact hcomma
        · exact fun hmem => (hclean _ (hsub hmem)).2 rfl
        · exact fun hmem => breakOn_not_mem hbody (hsub hmem)

theorem construct?_opens (h : construct? cs = some (k, rest)) : Opens cs k := by
  rw [construct?, Option.or_eq_some_iff, Option.or_eq_some_iff] at h
  rcases h with h | ⟨-, h | ⟨-, h⟩⟩
  · exact strong?_opens h
  · exact raw?_opens h
  · exact notes?_opens h

/-! ## Reading -/

theorem flush_canonical {word : List Char} {following : List Inline}
    (hword : ∀ c ∈ word, isBlank c = false)
    (h : ∀ x ∈ following, Canonical x) :
    ∀ x ∈ flush word following, Canonical x := by
  rw [flush]
  split
  · exact h
  · next hne =>
      refine List.forall_mem_cons.mpr ⟨.word ⟨?_, ?_⟩, h⟩
      · rw [List.isEmpty_iff] at hne
        exact fun hnil => hne (List.reverse_eq_nil_iff.mp hnil)
      · exact fun c hc => hword c (List.mem_reverse.mp hc)

theorem normalize_canonical {xs : List Inline} (h : ∀ x ∈ xs, Canonical x) :
    ∀ x ∈ normalize xs, Canonical x :=
  fun x hx => h x ((normalize_sublist xs).subset hx)

theorem scan_canonical {word : List Char} (cs : List Char)
    (hword : ∀ c ∈ word, isBlank c = false) :
    ∀ x ∈ scan word cs, Canonical x := by
  have hempty : ∀ c ∈ ([] : List Char), isBlank c = false := nofun
  fun_induction scan word cs with
  | case1 word => exact flush_canonical hword nofun
  | case2 word c rest hblank ih =>
      refine flush_canonical hword ?_
      exact List.forall_mem_cons.mpr ⟨.space, ih hempty⟩
  | case3 word c rest hblank hnone ih =>
      refine ih (List.forall_mem_cons.mpr ⟨?_, hword⟩)
      exact Bool.eq_false_iff.mpr hblank
  | case4 word c rest hblank inner behind h _ ihinner ihbehind =>
      refine flush_canonical hword ?_
      refine List.forall_mem_cons.mpr ⟨?_, ihbehind hempty⟩
      exact .strong (normalize_tidy _) (normalize_canonical (ihinner hempty))
  | case5 word c rest hblank format text behind h _ ih =>
      refine flush_canonical hword ?_
      refine List.forall_mem_cons.mpr ⟨?_, ih hempty⟩
      cases (construct?_opens h).sound with
      | raw named brace quote => exact .raw named brace quote
  | case6 word c rest hblank labels behind h _ ih =>
      refine flush_canonical hword ?_
      refine List.forall_mem_append.mpr ⟨?_, ih hempty⟩
      cases (construct?_opens h).sound with
      | notes named apart =>
          refine List.forall_mem_map.mpr fun label hlabel => ?_
          exact .note (named label hlabel) (apart label hlabel)

/-! ## Texts without marks -/

/-- The words of a text, as blanks cut it. -/
def wordsOf (text : String) : List String :=
  ((text.toList.splitOnP isBlank).filter (!·.isEmpty)).map String.ofList

/-- The pieces of a cut text that have characters, as content. -/
def spaced (cut : List (List Char)) : List Inline :=
  ((cut.filter (!·.isEmpty)).map fun cs => .word (String.ofList cs)).intersperse
    .space

theorem intersperse_cons {α : Type} (sep x : α) (xs : List α) :
    (x :: xs).intersperse sep = x ::
      if xs.intersperse sep = [] then [] else sep :: xs.intersperse sep := by
  cases xs with
  | nil => rfl
  | cons y ys =>
      have hne : (y :: ys).intersperse sep ≠ [] := by
        cases ys with
        | nil => exact List.cons_ne_nil _ _
        | cons => exact List.cons_ne_nil _ _
      rw [List.intersperse_cons_cons, if_neg hne]

theorem spaced_cons {cs : List Char} (h : cs ≠ []) (cut : List (List Char)) :
    spaced (cs :: cut) = .word (String.ofList cs) ::
      if spaced cut = [] then [] else .space :: spaced cut := by
  rw [spaced, List.filter_cons_of_pos, List.map_cons, intersperse_cons]
  · rfl
  · rw [List.isEmpty_eq_false_iff.mpr h, Bool.not_false]

theorem squeeze_flush (word : List Char) :
    squeeze true (flush word []) = spaced [word.reverse] := by
  rw [flush]
  split
  · next hnil =>
      rw [List.isEmpty_iff.mp hnil]
      rfl
  · next hne =>
      rw [List.isEmpty_iff, ← List.reverse_eq_nil_iff] at hne
      rw [spaced_cons hne]
      rfl

theorem squeeze_flush_space (word : List Char) {following : List Inline}
    {cut : List (List Char)} (h : squeeze true following = spaced cut) :
    squeeze true (flush word (.space :: following)) =
      spaced (word.reverse :: cut) := by
  rw [flush]
  split
  · next hnil =>
      rw [List.isEmpty_iff.mp hnil]
      exact h
  · next hne =>
      rw [List.isEmpty_iff, ← List.reverse_eq_nil_iff] at hne
      rw [spaced_cons hne, squeeze_cons rfl, squeeze_behind, h]

/-- The word that is being read is the beginning of the first one. -/
theorem squeeze_scan {cs : List Char} (word : List Char)
    (h : ∀ mark ∈ openings, ¬mark <:+: cs) :
    squeeze true (scan word cs) =
      spaced (cs.splitOnPPrepend isBlank word) := by
  have htail : ∀ (c : Char) (rest : List Char),
      (∀ mark ∈ openings, ¬mark <:+: c :: rest) →
      ∀ mark ∈ openings, ¬mark <:+: rest := by
    intro c rest h mark hmark hin
    exact h mark hmark (hin.trans (List.suffix_cons c rest).isInfix)
  have hliteral : ∀ {cs k rest}, (∀ mark ∈ openings, ¬mark <:+: cs) →
      construct? cs ≠ some (k, rest) := by
    intro cs k rest h hopens
    obtain ⟨mark, hmark, hprefix⟩ := (construct?_opens hopens).opening
    exact h mark hmark hprefix.isInfix
  fun_induction scan word cs with
  | case1 word =>
      rw [List.splitOnPPrepend_nil]
      exact squeeze_flush word
  | case2 word c rest hblank ih =>
      rw [List.splitOnPPrepend_cons_pos hblank]
      refine squeeze_flush_space word ?_
      rw [ih (htail c rest h), List.splitOnPPrepend_nil_right]
  | case3 word c rest hblank hnone ih =>
      rw [List.splitOnPPrepend_cons_neg (Bool.eq_false_iff.mpr hblank)]
      exact ih (htail c rest h)
  | case4 _ _ _ _ _ _ hopens => exact absurd hopens (hliteral h)
  | case5 _ _ _ _ _ _ _ hopens => exact absurd hopens (hliteral h)
  | case6 _ _ _ _ _ _ hopens => exact absurd hopens (hliteral h)

theorem plainText_words (words : List String) :
    plainText ((words.map .word).intersperse .space) =
      " ".intercalate words := by
  induction words with
  | nil => rfl
  | cons s words ih =>
      cases words with
      | nil =>
          rw [List.map_singleton, List.intersperse_singleton, plainText, plain,
            plainText, String.append_empty, String.intercalate_singleton]
      | cons t words =>
          rw [List.map_cons] at ih
          rw [List.map_cons, List.map_cons, List.intersperse_cons_cons,
            plainText, plainText, plain, plain, ih,
            String.intercalate_cons_cons, String.append_assoc]

/-- What is read from a text is canonical, and normalizing leaves it alone. A
text without the characters that open a construct is read as its words. -/
theorem ofText_canonical (text : String) :
    Tidy (ofText text) ∧
    (∀ x ∈ ofText text, Canonical x) ∧
    normalize (ofText text) = ofText text ∧
    ((∀ mark ∈ openings, ¬mark <:+: text.toList) →
      ofText text = ((wordsOf text).map .word).intersperse .space ∧
      plainText (ofText text) = " ".intercalate (wordsOf text)) := by
  have htidy := normalize_tidy (scan [] text.toList)
  refine ⟨htidy, normalize_canonical (scan_canonical _ nofun),
    htidy.normalize_eq, fun h => ?_⟩
  have hread : ofText text =
      ((wordsOf text).map .word).intersperse .space := by
    rw [ofText, normalize, squeeze_scan [] h, List.splitOnPPrepend_nil_right,
      spaced, wordsOf, List.map_map]
    rfl
  exact ⟨hread, by rw [hread, plainText_words]⟩

end Tabulation.Inline
