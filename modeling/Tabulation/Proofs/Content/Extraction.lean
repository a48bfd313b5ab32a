import Tabulation.Content.Reader
import Tabulation.Proofs.Content.Marks
import Tabulation.Proofs.Content.Options
import Tabulation.Proofs.Content.Pieces
import Tabulation.Proofs.Content.Spaces

/-!
# What is left of a cell's content

The markers in front of a cell indent it, and they stand in front as long as
there are only spaces, markers and option lists. Reading a cell has one state,
whether it is still in front. Behind the front every piece is judged by itself,
so what is kept there is a filtered list. In front nothing is kept, and the
first piece that is no part of the front is read as if reading had begun behind
it. So what is left of the content is said by one filter over all of it and one
over its front, whatever the order of the pieces.

What is left may begin with a marker that stood behind a mark. Reading it once
more would take that marker for one in front, and this is the only way in which
a second reading finds anything.
-/

namespace Tabulation

namespace Directive

/-! ## The kinds of pieces -/

def isMarker : Inline → Bool
  | .word text => text = indentMarker
  | _ => false

def isOptions : Inline → Bool
  | .raw format _ => format = optionFormat
  | _ => false

/-- A word that asks for a rule or for a span. -/
def IsMark : Inline → Prop
  | .word text => ∃ rule extra, MarkWord rule extra text.toList
  | _ => False

/-- Behind such pieces a marker still indents. -/
def isFront (x : Inline) : Bool :=
  x.isSpace || isMarker x || isOptions x

theorem isMark_word {text : String} :
    IsMark (.word text) ↔ (marks? text).isSome = true := by
  rw [Option.isSome_iff_exists]
  constructor
  · rintro ⟨rule, extra, h⟩
    exact ⟨_, marks?_eq_some.mpr h⟩
  · rintro ⟨⟨rule, extra⟩, h⟩
    exact ⟨rule, extra, marks?_eq_some.mp h⟩

instance : DecidablePred IsMark
  | .word _ => decidable_of_iff' _ isMark_word
  | .space => .isFalse id
  | .strong _ => .isFalse id
  | .raw _ _ => .isFalse id
  | .note _ => .isFalse id

/-- Neither an option list nor a mark. -/
def isContent (x : Inline) : Bool :=
  !isOptions x && !decide (IsMark x)

/-- A cell's content without the markers in front, the option lists and the
marks. -/
def remaining (content : List Inline) : List Inline :=
  ((content.takeWhile isFront).filter (!isMarker ·) ++
    content.dropWhile isFront).filter isContent

theorem isContent_iff {x : Inline} :
    isContent x = true ↔ isOptions x = false ∧ ¬ IsMark x := by
  rw [isContent, Bool.and_eq_true, Bool.not_eq_true', Bool.not_eq_true',
    decide_eq_false_iff_not]

theorem eq_options {x : Inline} (h : isOptions x = true) :
    ∃ text, x = .raw optionFormat text := by
  cases x with
  | raw format text =>
      cases of_decide_eq_true h
      exact ⟨text, rfl⟩
  | _ => cases h

theorem eq_marker {x : Inline} (h : isMarker x = true) :
    x = .word indentMarker := by
  cases x with
  | word text => rw [of_decide_eq_true h]
  | _ => cases h

theorem isFront_cases {x : Inline} (h : isFront x = true) :
    x = .space ∨ x = .word indentMarker ∨ ∃ text, x = .raw optionFormat text := by
  rw [isFront, Bool.or_eq_true, Bool.or_eq_true] at h
  rcases h with (h | h) | h
  · exact .inl (Inline.eq_space h)
  · exact .inr (.inl (eq_marker h))
  · exact .inr (.inr (eq_options h))

/-! ## Reading behind the front -/

section

variable {α : Type} [Scalar α]

variable {lenient : Bool} {d d' : Directive α} {content kept : List Inline}
  {ws : List Warning}

theorem withOptions_indent (d : Directive α) (text : String) :
    (d.withOptions text).1.indent = d.indent := by
  cases withOptions_effect α text with
  | early e _ applied => rw [applied]
  | late n found e _ _ applied => rw [applied]
  | whole n found underline force applied => rw [applied]

theorem extractFrom_content {x : Inline} (hx : isContent x = true)
    (lenient : Bool) (d : Directive α) (rest : List Inline) :
    extractFrom lenient false d (x :: rest) =
      extractFrom lenient false d rest >>= fun p =>
        .ok (p.1, x :: p.2.1, p.2.2) := by
  obtain ⟨hoptions, hmark⟩ := isContent_iff.mp hx
  cases x with
  | raw format text =>
      exact extractFrom_raw (of_decide_eq_false hoptions) text lenient d rest
  | word text =>
      rw [isMark_word, Option.not_isSome_iff_eq_none] at hmark
      refine extractFrom_word ?_ hmark lenient d rest
      exact Bool.false_ne_true
  | _ => rfl

theorem extractFrom_mark {x : Inline} (hx : IsMark x) :
    ∃ rule extra, ∀ (lenient : Bool) (d : Directive α) (rest : List Inline),
      extractFrom lenient false d (x :: rest) =
        extractFrom lenient false (d.withMarks rule extra) rest := by
  cases x with
  | word text =>
      obtain ⟨rule, extra, h⟩ := hx
      refine ⟨rule, extra, extractFrom_marks ?_ (marks?_eq_some.mpr h)⟩
      exact Bool.false_ne_true
  | _ => cases hx

theorem extractFrom_behind
    (h : extractFrom lenient false d content = .ok (d', kept, ws)) :
    d'.indent = d.indent ∧ kept = content.filter isContent := by
  induction content generalizing d kept ws with
  | nil =>
      cases h
      exact ⟨rfl, rfl⟩
  | cons x rest ih =>
      cases hx : isContent x with
      | true =>
          rw [extractFrom_content hx] at h
          obtain ⟨p, hrest, h⟩ := Except.bind_eq_ok.mp h
          cases h
          obtain ⟨hindent, hkept⟩ := ih hrest
          exact ⟨hindent, by rw [List.filter_cons_of_pos hx, hkept]⟩
      | false =>
          rw [List.filter_cons_of_neg (Bool.eq_false_iff.mp hx)]
          cases hoptions : isOptions x with
          | true =>
              obtain ⟨text, rfl⟩ := eq_options hoptions
              obtain ⟨ws', hrest⟩ := extractFrom_pastOptions h
              rw [← withOptions_indent d text]
              exact ih hrest
          | false =>
              have hmark : IsMark x := Decidable.not_not.mp fun hmark =>
                Bool.eq_false_iff.mp hx (isContent_iff.mpr ⟨hoptions, hmark⟩)
              obtain ⟨rule, extra, hread⟩ := extractFrom_mark (α := α) hmark
              rw [hread] at h
              obtain ⟨hindent, hkept⟩ := ih h
              exact ⟨hindent, hkept⟩

/-! ## Reading in front -/

/-- A piece that is no part of the front ends it. -/
theorem extractFrom_ends {x : Inline} (hx : isFront x = false)
    (lenient : Bool) (d : Directive α) (rest : List Inline) :
    extractFrom lenient true d (x :: rest) =
      extractFrom lenient false d (x :: rest) := by
  rw [isFront, Bool.or_eq_false_iff, Bool.or_eq_false_iff] at hx
  obtain ⟨⟨hspace, hmarker⟩, hoptions⟩ := hx
  cases x with
  | space => cases hspace
  | raw format text =>
      have hformat := of_decide_eq_false hoptions
      rw [extractFrom_raw hformat, extractFrom_raw hformat]
  | word text =>
      have htext : ¬ (true && text = indentMarker) = true :=
        Bool.eq_false_iff.mp hmarker
      have hbehind : ¬ (false && text = indentMarker) = true :=
        Bool.false_ne_true
      cases hmarks : marks? text with
      | some asked =>
          rw [extractFrom_marks htext hmarks, extractFrom_marks hbehind hmarks]
      | none =>
          rw [extractFrom_word htext hmarks, extractFrom_word hbehind hmarks]
  | _ => rfl

theorem extractFrom_front
    (h : extractFrom lenient true d content = .ok (d', kept, ws)) :
    d'.indent = d.indent + (content.takeWhile isFront).countP isMarker ∧
      kept = (content.dropWhile isFront).filter isContent := by
  induction content generalizing d kept ws with
  | nil =>
      cases h
      exact ⟨rfl, rfl⟩
  | cons x rest ih =>
      cases hx : isFront x with
      | true =>
          rw [List.takeWhile_cons_of_pos hx, List.dropWhile_cons_of_pos hx]
          rcases isFront_cases hx with rfl | rfl | ⟨text, rfl⟩
          · exact ih h
          · rw [extractFrom_marker] at h
            obtain ⟨hindent, hkept⟩ := ih h
            refine ⟨?_, hkept⟩
            rw [hindent, List.countP_cons_of_pos rfl]
            exact Nat.add_right_comm _ _ _
          · obtain ⟨ws', hrest⟩ := extractFrom_pastOptions h
            rw [← withOptions_indent d text]
            exact ih hrest
      | false =>
          rw [List.takeWhile_cons_of_neg (Bool.eq_false_iff.mp hx),
            List.dropWhile_cons_of_neg (Bool.eq_false_iff.mp hx)]
          rw [extractFrom_ends hx] at h
          exact extractFrom_behind h

/-- Nothing but spaces is left of the front. -/
theorem normalize_remaining (content : List Inline) :
    Inline.normalize (remaining content) =
      Inline.normalize ((content.dropWhile isFront).filter isContent) := by
  rw [remaining, List.filter_append]
  refine Inline.squeeze_spaces (fun x hx => ?_) _
  obtain ⟨hx, hcontent⟩ := List.mem_filter.mp hx
  obtain ⟨hx, hmarker⟩ := List.mem_filter.mp hx
  have hfront := List.all_eq_true.mp List.all_takeWhile x hx
  rcases isFront_cases hfront with rfl | rfl | ⟨text, rfl⟩
  · rfl
  · cases hmarker
  · cases hcontent

theorem extract_eq_ok (h : extract content lenient = .ok (d, kept, ws)) :
    d.indent = (content.takeWhile isFront).countP isMarker ∧
      kept = Inline.normalize (remaining content) := by
  rw [extract] at h
  obtain ⟨p, hfrom, h⟩ := Except.bind_eq_ok.mp h
  cases h
  obtain ⟨hindent, hkept⟩ := extractFrom_front hfrom
  rw [normalize_remaining, ← hkept]
  exact ⟨hindent.trans (Nat.zero_add _), rfl⟩

/-- Of a cell's content is kept what is left without the markers in front, the
option lists and the marks, tidied up, and the cell is indented by the markers
in front. -/
theorem extract_keeps (h : extract content lenient = .ok (d, kept, ws)) :
    d.indent = (content.takeWhile isFront).countP isMarker ∧
      kept = Inline.normalize (remaining content) ∧
      kept.filter (!·.isSpace) = (remaining content).filter (!·.isSpace) ∧
      Inline.Tidy kept := by
  obtain ⟨hindent, rfl⟩ := extract_eq_ok h
  exact ⟨hindent, rfl, Inline.filter_normalize _, Inline.normalize_tidy _⟩

end

/-- The option list, two markers and the marks are taken out, and the marker
behind the word is kept. -/
theorem extract_keeps_laterMarker : ∃ (d : Directive Float) (kept : List Inline)
    (ws : List Warning),
    extract (Inline.ofText "~~~ `2,c,mr`{=multicolumn} ~~~ Total ~~~ 2_30> 0_")
        false = .ok (d, kept, ws) ∧
      d.indent = 2 ∧
      kept = [.word "Total", .space, .word "~~~", .space, .word "0_"] := by
  have hread :
      Inline.ofText "~~~ `2,c,mr`{=multicolumn} ~~~ Total ~~~ 2_30> 0_" =
        [.word "~~~", .space, .raw "multicolumn" "2,c,mr", .space, .word "~~~",
          .space, .word "Total", .space, .word "~~~", .space, .word "2_30>",
          .space, .word "0_"] := by cbv
  rw [hread]
  have hok : (extract (α := Float) [.word "~~~", .space,
      .raw "multicolumn" "2,c,mr", .space, .word "~~~", .space, .word "Total",
      .space, .word "~~~", .space, .word "2_30>", .space, .word "0_"]
      false).isOk = true := by decide +kernel
  cases h : extract (α := Float) _ false with
  | error e =>
      rw [h] at hok
      cases hok
  | ok answer =>
      obtain ⟨d, kept, ws⟩ := answer
      obtain ⟨hindent, hkept, -, -⟩ := extract_keeps h
      exact ⟨d, kept, ws, rfl, hindent, hkept⟩

/-! ## Reading once more -/

section

variable {α : Type} [Scalar α]

variable {lenient : Bool} {d : Directive α} {content kept : List Inline}
  {ws : List Warning}

theorem extractFrom_clean (h : ∀ x ∈ content, isContent x = true)
    (lenient : Bool) (d : Directive α) :
    extractFrom lenient false d content = .ok (d, content, []) := by
  induction content with
  | nil => rfl
  | cons x rest ih =>
      rw [extractFrom_content (h x List.mem_cons_self),
        ih fun y hy => h y (List.mem_cons_of_mem x hy)]
      rfl

theorem extractFrom_cleanFront (h : ∀ x ∈ content, isContent x = true)
    (lenient : Bool) (d : Directive α) :
    extractFrom lenient true d content =
      .ok ({ d with indent :=
          d.indent + (content.takeWhile isFront).countP isMarker },
        content.dropWhile isFront, []) := by
  induction content generalizing d with
  | nil => rfl
  | cons x rest ih =>
      have hrest := fun y hy => h y (List.mem_cons_of_mem x hy)
      cases hx : isFront x with
      | true =>
          rw [List.takeWhile_cons_of_pos hx, List.dropWhile_cons_of_pos hx]
          rcases isFront_cases hx with rfl | rfl | ⟨text, rfl⟩
          · exact ih hrest d
          · rw [extractFrom_marker, ih hrest, List.countP_cons_of_pos rfl]
            simp only [Nat.add_right_comm d.indent 1, Nat.add_assoc]
          · cases h _ List.mem_cons_self
      | false =>
          rw [List.takeWhile_cons_of_neg (Bool.eq_false_iff.mp hx),
            List.dropWhile_cons_of_neg (Bool.eq_false_iff.mp hx),
            extractFrom_ends hx]
          exact extractFrom_clean h lenient d

theorem extract_clean (h : ∀ x ∈ content, isContent x = true)
    (lenient : Bool) :
    extract (α := α) content lenient =
      .ok ({ indent := (content.takeWhile isFront).countP isMarker },
        Inline.normalize (content.dropWhile isFront), []) := by
  rw [extract, extractFrom_cleanFront h]
  simp only [Nat.zero_add]
  rfl

theorem kept_isContent (h : extract content lenient = .ok (d, kept, ws)) :
    ∀ x ∈ kept, isContent x = true := by
  obtain ⟨-, rfl⟩ := extract_eq_ok h
  intro x hx
  exact (List.mem_filter.mp ((Inline.normalize_sublist _).subset hx)).2

/-- What is kept begins with a part of a front only if that is a marker. -/
theorem isFront_head (h : extract content lenient = .ok (d, kept, ws))
    {x : Inline} (hx : kept.head? = some x) (hfront : isFront x = true) :
    x = .word indentMarker := by
  rcases isFront_cases hfront with rfl | rfl | ⟨text, rfl⟩
  · cases (extract_keeps h).2.2.2.first _ hx
  · rfl
  · cases kept_isContent h _ (List.mem_of_head? hx)

/-- A marker that is kept as the first piece stood behind marks. -/
theorem isMark_of_marker (h : extract content lenient = .ok (d, kept, ws))
    (hmarker : kept.head? = some (.word indentMarker)) :
    ∃ mark, (content.dropWhile isFront).head? = some mark ∧ IsMark mark := by
  obtain ⟨-, rfl⟩ := extract_eq_ok h
  rw [normalize_remaining] at hmarker
  cases hbehind : content.dropWhile isFront with
  | nil =>
      rw [hbehind] at hmarker
      cases hmarker
  | cons x rest =>
      have hx : isFront x = false := by
        have hends := List.head?_dropWhile_not isFront content
        rw [hbehind] at hends
        exact hends
      refine ⟨x, rfl, Decidable.not_not.mp fun hmark => ?_⟩
      -- A piece that is no mark would be the first one that is kept.
      have hparts := hx
      rw [isFront, Bool.or_eq_false_iff, Bool.or_eq_false_iff] at hparts
      obtain ⟨⟨hspace, -⟩, hoptions⟩ := hparts
      rw [hbehind, List.filter_cons_of_pos (isContent_iff.mpr ⟨hoptions, hmark⟩),
        Inline.normalize, Inline.squeeze_cons hspace, List.head?_cons,
        Option.some.injEq] at hmarker
      rw [hmarker] at hx
      cases hx

/-- A second reading finds nothing but markers, which it takes for markers in
front. It finds none, and keeps everything, exactly if what was kept does not
begin with one, and what was kept begins with one only if the first piece
behind the front was a mark. -/
theorem extract_again (h : extract content lenient = .ok (d, kept, ws))
    (again : Bool) :
    extract (α := α) kept again =
        .ok ({ indent := (kept.takeWhile isFront).countP isMarker },
          Inline.normalize (kept.dropWhile isFront), []) ∧
      (extract (α := α) kept again = .ok ({}, kept, []) ↔
        kept.head? ≠ some (.word indentMarker)) ∧
      (kept.head? = some (.word indentMarker) →
        ∃ mark, (content.dropWhile isFront).head? = some mark ∧
          IsMark mark) := by
  have hread := extract_clean (α := α) (kept_isContent h) again
  refine ⟨hread, ⟨fun hsame hmarker => ?_, fun hmarker => ?_⟩,
    isMark_of_marker h⟩
  · rw [hread] at hsame
    cases kept with
    | nil => cases hmarker
    | cons x rest =>
        cases hmarker
        have hindent := congrArg Directive.indent
          (Prod.mk.inj (Except.ok.inj hsame)).1
        rw [List.takeWhile_cons_of_pos rfl, List.countP_cons_of_pos rfl]
          at hindent
        cases hindent
  · have htidy := (extract_keeps h).2.2.2
    cases kept with
    | nil => exact hread
    | cons x rest =>
        have hx : isFront x = false := by
          refine Bool.eq_false_iff.mpr fun hfront => hmarker ?_
          rw [isFront_head h rfl hfront]
          rfl
        rw [hread, List.takeWhile_cons_of_neg (Bool.eq_false_iff.mp hx),
          List.dropWhile_cons_of_neg (Bool.eq_false_iff.mp hx),
          htidy.normalize_eq]
        rfl

end

theorem extract_again_laterMarker : ∃ (d : Directive Float) (kept : List Inline),
    extract (Inline.ofText "3> Total ~~~") false = .ok (d, kept, []) ∧
      kept.head? ≠ some (.word indentMarker) ∧
      extract (α := Float) kept false = .ok ({}, kept, []) := by
  have hread : Inline.ofText "3> Total ~~~" =
      [.word "3>", .space, .word "Total", .space, .word "~~~"] := by cbv
  have h : extract (α := Float) (Inline.ofText "3> Total ~~~") false =
      .ok ({ columns := some 4 }, [.word "Total", .space, .word "~~~"], []) := by
    rw [hread]
    rfl
  exact ⟨_, _, h, by simp [indentMarker],
    (extract_again h false).2.1.mpr (by simp [indentMarker])⟩

/-- The marker behind the mark is kept, and a second reading takes it out. -/
theorem extract_markedMarker :
    extract (α := Float) (Inline.ofText "_ ~~~") false =
        .ok ({ underline := some (.columns 1) }, [.word "~~~"], []) ∧
      extract (α := Float) [.word "~~~"] false =
        .ok ({ indent := 1 }, [], []) ∧
      extract (α := Float) [.word "~~~"] false ≠
        .ok ({}, [.word "~~~"], []) := by
  have hread : Inline.ofText "_ ~~~" = [.word "_", .space, .word "~~~"] := by
    cbv
  have hagain : extract (α := Float) [.word "~~~"] false =
      .ok ({ indent := 1 }, [], []) := rfl
  refine ⟨by rw [hread]; rfl, hagain, fun h => ?_⟩
  rw [hagain] at h
  cases h

end Directive

end Tabulation
