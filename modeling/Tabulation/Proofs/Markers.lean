import Mathlib.Data.List.Infix
import Tabulation.Document
import Tabulation.Proofs.Outcome

/-!
# Marks of failed tables

Where a table failed, a mark with the message of its error stands in the output,
as a comment that the format does not read. In LaTeX a comment ends with its
line, so each line of the message is a comment of its own. In OpenDocument a
comment is closed by two hyphens and a bracket and must have no two hyphens
before that, so those of the message are set apart. They are taken in pairs from
the left, and the second hyphen of a pair is not compared with what follows: of
three hyphens in a row two stay together.
-/

namespace Tabulation

/-! ## Lines -/

section

variable {separator : Char} {line rest : List Char}

theorem Text.pieces_of_not_mem (h : separator ∉ line) :
    Text.pieces separator line = [line] := by
  induction line with
  | nil => rfl
  | cons c line ih =>
      rw [List.mem_cons, not_or] at h
      rw [pieces, if_neg (Ne.symm h.1), ih h.2]

theorem Text.pieces_append (h : separator ∉ line) :
    Text.pieces separator (line ++ separator :: rest) =
      line :: Text.pieces separator rest := by
  induction line with
  | nil => rw [List.nil_append, pieces, if_pos rfl]
  | cons c line ih =>
      rw [List.mem_cons, not_or] at h
      rw [List.cons_append, pieces, if_neg (Ne.symm h.1), ih h.2]

/-- A text that is put together from lines has these lines. -/
theorem Text.split_intercalate {line : String} {lines : List String}
    (h : ∀ l ∈ line :: lines, '\n' ∉ l.toList) :
    Text.split '\n' (String.intercalate "\n" (line :: lines)) =
      line :: lines := by
  rw [split]
  induction lines generalizing line with
  | nil =>
      rw [String.intercalate_singleton,
        pieces_of_not_mem (h line List.mem_cons_self), List.map_singleton,
        String.ofList_toList]
  | cons second lines ih =>
      obtain ⟨hline, hlines⟩ := List.forall_mem_cons.mp h
      rw [String.intercalate_cons_cons, String.toList_append,
        String.toList_append, List.append_assoc]
      show (pieces '\n' (line.toList ++
        '\n' :: (String.intercalate "\n" (second :: lines)).toList)).map _ = _
      rw [pieces_append hline, List.map_cons, String.ofList_toList, ih hlines]

end

/-- No line has the character at which lines end. -/
theorem linesFrom_not_mem {line cs : List Char} (hline : '\n' ∉ line) :
    ∀ l ∈ linesFrom line cs, '\n' ∉ l.toList := by
  fun_induction linesFrom line cs with
  | case1 => exact List.forall_mem_nil _
  | case2 line =>
      rw [List.forall_mem_singleton, String.toList_ofList, List.mem_reverse]
      exact hline
  | case3 line cs ended ih =>
      have hended : ended ⊆ line := by
        simp only [ended]
        split
        · exact List.subset_cons_self _ _
        · exact List.Subset.refl line
      refine List.forall_mem_cons.mpr ⟨?_, ih List.not_mem_nil⟩
      rw [String.toList_ofList, List.mem_reverse]
      exact fun hmem => hline (hended hmem)
  | case4 line c cs hc ih =>
      refine ih fun hmem => ?_
      rcases List.mem_cons.mp hmem with heq | hmem
      · exact hc heq.symm
      · exact hline hmem

theorem linesFrom_ne_nil {line cs : List Char} (h : line ≠ [] ∨ cs ≠ []) :
    linesFrom line cs ≠ [] := by
  fun_induction linesFrom line cs with
  | case1 line hempty =>
      rcases h with hline | hcs
      · exact absurd (List.isEmpty_iff.mp hempty) hline
      · exact absurd rfl hcs
  | case2 => exact List.cons_ne_nil _ _
  | case3 => exact List.cons_ne_nil _ _
  | case4 line c cs _ ih => exact ih (.inl (List.cons_ne_nil c line))

theorem append_ne_empty {front : String} (h : front ≠ "") (behind : String) :
    front ++ behind ≠ "" := fun happend =>
  h (String.append_eq_empty_iff.mp happend).1

theorem Error.message_ne_empty (e : Error) : e.message ≠ "" := by
  fun_cases Error.message e
  all_goals
    repeat apply append_ne_empty
    decide

/-! ## Hyphens -/

/-- Whether a text has two hyphens in a row is seen from its first two
characters and from the text behind the first. -/
theorem doubled_cons {c : Char} {cs : List Char} :
    ['-', '-'] <:+: c :: cs ↔
      ('-' = c ∧ ['-'] <+: cs) ∨ ['-', '-'] <:+: cs := by
  rw [List.infix_cons_iff, List.cons_prefix_cons]

theorem tripled_cons {c : Char} {cs : List Char} :
    ['-', '-', '-'] <:+: c :: cs ↔
      ('-' = c ∧ ['-', '-'] <+: cs) ∨ ['-', '-', '-'] <:+: cs := by
  rw [List.infix_cons_iff, List.cons_prefix_cons]

theorem doubled_append {front cs : List Char} (h : '-' ∉ front) :
    ['-', '-'] <:+: front ++ cs ↔ ['-', '-'] <:+: cs := by
  induction front with
  | nil => rfl
  | cons c front ih =>
      rw [List.mem_cons, not_or] at h
      rw [List.cons_append, doubled_cons, ih h.2, or_iff_right]
      exact fun hc => h.1 hc.1

theorem doubled_concat {cs : List Char} {c : Char} (h : c ≠ '-') :
    ['-', '-'] <:+: cs ++ [c] ↔ ['-', '-'] <:+: cs := by
  rw [List.infix_concat_iff, or_iff_right]
  intro hsuffix
  rcases List.suffix_concat_iff.mp hsuffix with hnil | ⟨front, heq, _⟩
  · cases hnil
  · have hmem : c ∈ ['-', '-'] :=
      heq ▸ List.mem_append_right _ List.mem_cons_self
    simp only [List.mem_cons, List.not_mem_nil, or_false, or_self] at hmem
    exact h hmem

theorem prefix_splitHyphens {cs : List Char} :
    ['-'] <+: splitHyphens cs ↔ ['-'] <+: cs := by
  fun_cases splitHyphens cs with
  | case1 => simp only [List.cons_prefix_cons, List.nil_prefix, and_true]
  | case2 => simp only [List.cons_prefix_cons, List.nil_prefix, and_true]
  | case3 => rfl

/-- Pairs are taken apart from the left, so only of three hyphens in a row do
two stay together. -/
theorem doubled_splitHyphens {cs : List Char} :
    ['-', '-'] <:+: splitHyphens cs ↔ ['-', '-', '-'] <:+: cs := by
  fun_induction splitHyphens cs with
  | case1 cs ih =>
      have hpair : ['-', '-'] <+: cs → ['-'] <+: cs :=
        (List.prefix_append ['-'] ['-']).trans
      have hblank : ¬ '-' = ' ' := by decide
      simp only [doubled_cons, tripled_cons, List.cons_prefix_cons, ih,
        prefix_splitHyphens, hblank, true_and, false_and, and_false, false_or]
      exact ⟨fun h => h.elim .inl (.inr ∘ .inr),
        fun h => h.elim .inl (.imp hpair id)⟩
  | case2 c cs hnot ih =>
      rw [doubled_cons, tripled_cons, ih, prefix_splitHyphens, or_iff_right,
        or_iff_right]
      · rintro ⟨rfl, rest, rfl⟩
        exact hnot ('-' :: rest) rfl rfl
      · rintro ⟨rfl, rest, rfl⟩
        exact hnot rest rfl rfl
  | case3 => exact iff_of_false (by decide) (by decide)

namespace Xml

theorem escapeChar_cases (c : Char) :
    escapeChar c = [c] ∨
      c ≠ '-' ∧ '-' ∉ escapeChar c ∧ escapeChar c ≠ [] := by
  by_cases h : c ∈ ['<', '>', '&', '\'', '"']
  · simp only [List.mem_cons, List.not_mem_nil, or_false] at h
    rcases h with rfl | rfl | rfl | rfl | rfl
    all_goals exact .inr (by decide)
  · simp only [List.mem_cons, List.not_mem_nil, or_false, not_or] at h
    simp [escapeChar, h]

theorem prefix_escapeChars {cs : List Char} :
    ['-'] <+: cs.flatMap escapeChar ↔ ['-'] <+: cs := by
  cases cs with
  | nil => rfl
  | cons c cs =>
      rw [List.flatMap_cons]
      rcases escapeChar_cases c with hself | ⟨hc, hfree, hne⟩
      · rw [hself, List.singleton_append, List.cons_prefix_cons,
          List.cons_prefix_cons]
        simp
      · obtain ⟨d, ds, hd⟩ := List.exists_cons_of_ne_nil hne
        rw [hd, List.mem_cons, not_or] at hfree
        rw [hd, List.cons_append, List.cons_prefix_cons, List.cons_prefix_cons]
        exact iff_of_false (fun h => hfree.1 h.1) (fun h => hc h.1.symm)

/-- Escaping brings no hyphens together and takes none apart. -/
theorem doubled_escapeChars {cs : List Char} :
    ['-', '-'] <:+: cs.flatMap escapeChar ↔ ['-', '-'] <:+: cs := by
  induction cs with
  | nil => rfl
  | cons c cs ih =>
      rw [List.flatMap_cons, doubled_cons]
      rcases escapeChar_cases c with hself | ⟨hc, hfree, _⟩
      · rw [hself, List.singleton_append, doubled_cons, ih, prefix_escapeChars]
      · rw [doubled_append hfree, ih, or_iff_right]
        exact fun h => hc h.1.symm

/-- A comment: between its two ends there are no two hyphens in a row, and none
in front of those that close it. -/
def IsComment (text : String) : Prop :=
  ∃ inner : List Char, text.toList = "<!--".toList ++ inner ++ "-->".toList ∧
    ¬ ['-', '-'] <:+: inner ∧ inner.getLast? ≠ some '-'

end Xml

/-! ## Marks -/

/-- A message has a line, and each of its lines becomes a comment. -/
theorem failureMark_lines (e : Error) :
    ∀ line ∈ Text.split '\n' (failureMark .latex e),
      line.toList.head? = some '%' := by
  have hfree : ∀ l ∈ textLines e.message, '\n' ∉ l.toList :=
    linesFrom_not_mem List.not_mem_nil
  have hlines : textLines e.message ≠ [] := linesFrom_ne_nil
    (.inr fun h => e.message_ne_empty (String.toList_eq_nil_iff.mp h))
  rw [failureMark]
  cases hmessage : textLines e.message with
  | nil => exact absurd hmessage hlines
  | cons first more =>
      rw [hmessage] at hfree
      rw [List.map_cons, Text.split_intercalate, ← List.map_cons]
      · refine List.forall_mem_map.mpr fun l _ => ?_
        rw [String.toList_append]
        rfl
      · rw [← List.map_cons]
        refine List.forall_mem_map.mpr fun l hl => ?_
        rw [String.toList_append, List.mem_append, not_or]
        exact ⟨by decide, hfree l hl⟩

/-- What stands between the two ends of a mark. -/
def markInner (message : String) : String :=
  " tabset: " ++ Xml.escape (String.ofList (splitHyphens message.toList)) ++ " "

theorem failureMark_odt (e : Error) :
    failureMark .odt e = "<!--" ++ markInner e.message ++ "-->" := by
  have hopen : "<!-- tabset: " = "<!--" ++ " tabset: " := by decide
  have hclose : " -->" = " " ++ "-->" := by decide
  rw [failureMark, hopen, hclose, markInner]
  simp only [String.append_assoc]

theorem markInner_toList (message : String) :
    (markInner message).toList = " tabset: ".toList ++
      (splitHyphens message.toList).flatMap Xml.escapeChar ++ [' '] := by
  simp only [markInner, Xml.escape, String.toList_append, String.toList_ofList]
  rfl

theorem doubled_markInner {message : String} :
    ['-', '-'] <:+: (markInner message).toList ↔
      ['-', '-', '-'] <:+: message.toList := by
  rw [markInner_toList, doubled_concat (by decide), doubled_append (by decide),
    Xml.doubled_escapeChars, doubled_splitHyphens]

/-- Both ends of what stands in a mark are blank, so only hyphens of the message
can keep it from being a comment. -/
theorem failureMark_isComment_iff (e : Error) :
    Xml.IsComment (failureMark .odt e) ↔
      ¬ ['-', '-', '-'] <:+: e.message.toList := by
  rw [← doubled_markInner, Xml.IsComment, failureMark_odt, String.toList_append,
    String.toList_append]
  constructor
  · rintro ⟨inner, heq, hinner, _⟩
    rwa [List.append_cancel_left (List.append_cancel_right heq)]
  · intro h
    refine ⟨_, rfl, h, ?_⟩
    rw [markInner_toList, List.getLast?_concat]
    decide

/-- A mark in LaTeX is made of comments only, whatever the error. A mark in
OpenDocument is a comment for exactly those errors of which the message has no
three hyphens in a row. -/
theorem failureMark_contained (e : Error) :
    (∀ line ∈ Text.split '\n' (failureMark .latex e),
      line.toList.head? = some '%') ∧
    (Xml.IsComment (failureMark .odt e) ↔
      ¬ ['-', '-', '-'] <:+: e.message.toList) :=
  ⟨failureMark_lines e, failureMark_isComment_iff e⟩

/-- A width of three hyphens is quoted in the message of its error. -/
theorem failureMark_hyphens :
    ∃ e, Column.parseSpecifiers (α := Float) "p['---']" = .error e ∧
      ¬ Xml.IsComment (failureMark .odt e) := by
  refine ⟨.width "---" (.notANumber "---"), ?_, ?_⟩
  · exact Except.error?_eq_some.mp (by decide +kernel)
  · rw [failureMark_isComment_iff, not_not]
    decide

end Tabulation
