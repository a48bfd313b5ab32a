import Tabulation.Proofs.Content.Options
import Tabulation.Proofs.Content.Pieces

/-!
# Option lists that are refused

A lenient reading drops an option list that is refused, keeps a warning and
goes on, with what the list has done before it was refused. Reading is a walk
along the content with a directive. Two walks over the same content keep the
same pieces and fail for the same reasons, whatever their directives are, so
what a refused list leaves behind is carried to the end and changes nothing
else.
-/

namespace Tabulation

namespace Directive

variable {α : Type} [Scalar α]

/-! ## Two readings side by side -/

/-- Two readings that come to the same but for their directives, and for some
warnings that only the first one has: both fail with one error, or both keep
the same content. -/
inductive Differ (R : Directive α → Directive α → Prop) (more : List Warning) :
    Except Error (Directive α × List Inline × List Warning) →
    Except Error (Directive α × List Inline × List Warning) → Prop where
  | error (e : Error) : Differ R more (.error e) (.error e)
  | ok {d d' : Directive α} (kept : List Inline) (ws ws' : List Warning)
      (related : R d d') :
      Differ R more (.ok (d, kept, ws ++ more ++ ws'))
        (.ok (d', kept, ws ++ ws'))

/-- What two directives have in common as long as the same is read. -/
structure Kept (R : Directive α → Directive α → Prop) : Prop where
  indented : ∀ {d d'}, R d d' →
    R { d with indent := d.indent + 1 } { d' with indent := d'.indent + 1 }
  marked : ∀ {d d'} underline extra, R d d' →
    R (d.withMarks underline extra) (d'.withMarks underline extra)
  bound : ∀ {d d'} text, R d d' →
    R (d.withOptions text).1 (d'.withOptions text).1

namespace Differ

variable {R : Directive α → Directive α → Prop} {more : List Warning}
  {x y : Except Error (Directive α × List Inline × List Warning)}

omit [Scalar α] in
theorem bind (h : Differ R more x y)
    {f : Directive α × List Inline × List Warning →
      Except Error (Directive α × List Inline × List Warning)}
    (next : ∀ {d d'} kept ws ws', R d d' →
      Differ R more (f (d, kept, ws ++ more ++ ws'))
        (f (d', kept, ws ++ ws'))) :
    Differ R more (x >>= f) (y >>= f) := by
  cases h with
  | error e => exact .error e
  | ok kept ws ws' related => exact next kept ws ws' related

omit [Scalar α] in
/-- A warning in front of those of the first reading. -/
theorem warned (h : Differ R [] x y) (w : Warning) :
    Differ R [w]
      (x >>= fun p => .ok (p.1, p.2.1, w :: p.2.2)) y := by
  cases h with
  | error e => exact .error e
  | ok kept ws ws' related =>
      rw [List.append_nil]
      exact .ok kept [] (ws ++ ws') related

omit [Scalar α] in
theorem related (h : Differ R more x y)
    {p p' : Directive α × List Inline × List Warning} (hx : x = .ok p)
    (hy : y = .ok p') : R p.1 p'.1 := by
  cases h with
  | error e => cases hx
  | ok kept ws ws' related =>
      cases hx
      cases hy
      exact related

end Differ

/-- What is read behind the same pieces differs as what is read without them
does. -/
theorem extractFrom_append {R : Directive α → Directive α → Prop}
    (hR : Kept R) {more : List Warning} {tail tail' : List Inline}
    (h : ∀ leading {d d' : Directive α}, R d d' → Differ R more
      (extractFrom true leading d tail) (extractFrom true leading d' tail'))
    (pieces : List Inline) (leading : Bool) {d d' : Directive α}
    (hd : R d d') :
    Differ R more (extractFrom true leading d (pieces ++ tail))
      (extractFrom true leading d' (pieces ++ tail')) := by
  induction pieces generalizing leading d d' with
  | nil => exact h leading hd
  | cons x rest ih =>
      rw [List.cons_append, List.cons_append]
      cases reads α leading x with
      | passed hx =>
          rw [hx, hx]
          exact ih leading hd
      | indents hx =>
          rw [hx, hx]
          exact ih leading (hR.indented hd)
      | marks underline extra hx =>
          rw [hx, hx]
          exact ih false (hR.marked underline extra hd)
      | kept hx =>
          rw [hx, hx]
          exact (ih false hd).bind fun _ ws ws' => .ok _ ws ws'
      | options text hx =>
          subst hx
          have hbound := ih leading (hR.bound text hd)
          have herror := withOptions_error d d' text
          cases herror' : (d'.withOptions text).2 with
          | none =>
              rw [extractFrom_options (herror.trans herror'),
                extractFrom_options herror']
              exact hbound
          | some e =>
              cases hdrops : (true && e.isRecoverable) with
              | true =>
                  rw [extractFrom_drops (herror.trans herror') hdrops,
                    extractFrom_drops herror' hdrops]
                  exact hbound.bind fun kept ws ws' => .ok kept (_ :: ws) ws'
              | false =>
                  rw [extractFrom_stops (herror.trans herror') hdrops,
                    extractFrom_stops herror' hdrops]
                  exact .error e

/-! ## A refused list -/

/-- Directives that differ at most in the columns to cover and in what the cell
is set as. -/
structure Alike (d d' : Directive α) : Prop where
  indent : d.indent = d'.indent
  underline : d.underline = d'.underline
  force : d.force = d'.force

omit [Scalar α] in
theorem Alike.refl (d : Directive α) : Alike d d := ⟨rfl, rfl, rfl⟩

omit [Scalar α] in
theorem Alike.trans {d d' d'' : Directive α} (h : Alike d d')
    (h' : Alike d' d'') : Alike d d'' :=
  ⟨h.indent.trans h'.indent, h.underline.trans h'.underline,
    h.force.trans h'.force⟩

theorem kept_eq : Kept (α := α) Eq := by
  refine ⟨?_, ?_, ?_⟩
  · rintro d _ rfl
    rfl
  · rintro d _ underline extra rfl
    rfl
  · rintro d _ text rfl
    rfl

theorem kept_alike : Kept (α := α) Alike := by
  refine ⟨fun h => ⟨congrArg (· + 1) h.indent, h.underline, h.force⟩,
    fun underline extra h => ⟨h.indent, ?_, h.force⟩, fun text h => ?_⟩
  · rw [withMarks, withMarks, h.underline]
  · cases withOptions_effect α text with
    | early e _ applied =>
        rw [applied, applied]
        exact h
    | late n found e _ _ applied =>
        rw [applied, applied]
        exact ⟨h.indent, h.underline, h.force⟩
    | whole n found underline force applied =>
        rw [applied, applied]
        exact ⟨h.indent, rfl, rfl⟩

theorem alike_of_refused {text : String} {e : Error} {d : Directive α}
    (h : (d.withOptions text).2 = some e) : Alike (d.withOptions text).1 d := by
  cases withOptions_effect α text with
  | early e _ applied =>
      rw [applied]
      exact .refl d
  | late n found e _ _ applied =>
      rw [applied]
      exact ⟨rfl, rfl, rfl⟩
  | whole n found underline force applied =>
      rw [applied] at h
      cases h

theorem extractFrom_refused {R : Directive α → Directive α → Prop}
    (hR : Kept R) {text : String} {e : Error}
    (refused : ∀ d : Directive α, (d.withOptions text).2 = some e)
    (recoverable : e.isRecoverable = true)
    (left : ∀ {d d' : Directive α}, R d d' → R (d.withOptions text).1 d')
    (before after : List Inline) (leading : Bool) {d : Directive α}
    (hd : R d d) :
    Differ R [refusal text e]
      (extractFrom true leading d (before ++ .raw optionFormat text :: after))
      (extractFrom true leading d (before ++ after)) := by
  refine extractFrom_append hR ?_ before leading hd
  intro leading d d' hd
  have hend : ∀ leading {d d' : Directive α}, R d d' → Differ R []
      (extractFrom true leading d []) (extractFrom true leading d' []) :=
    fun _ {_ _} hd => .ok [] [] [] hd
  have hafter := extractFrom_append hR hend after leading (left hd)
  rw [List.append_nil] at hafter
  rw [extractFrom_drops (refused d) (by rw [recoverable]; rfl)]
  exact hafter.warned (refusal text e)

/-- What the whole reading of a cell makes of two readings of its pieces. -/
theorem Differ.normalized {R : Directive α → Directive α → Prop}
    {more : List Warning} {content content' : List Inline}
    (h : Differ R more (extractFrom true true {} content)
      (extractFrom true true {} content')) :
    Differ R more (extract content true) (extract content' true) :=
  h.bind fun _ ws ws' => .ok _ ws ws'

/-- A list that is refused and dropped has one warning of its own and changes
nothing that is kept of the content, and in the directive at most the columns
to cover and what the cell is set as. It leaves nothing behind in any content
exactly if it is refused before the number of columns takes effect, and it is
refused behind that only for the specifier or the rule. -/
theorem extract_refused {text : String} {e : Error} {d : Directive α}
    (refused : (d.withOptions text).2 = some e)
    (recoverable : e.isRecoverable = true) :
    (∀ before after : List Inline,
      Differ (α := α) Alike [refusal text e]
        (extract (before ++ .raw optionFormat text :: after) true)
        (extract (before ++ after) true)) ∧
    ((∀ before after : List Inline,
      Differ (α := α) Eq [refusal text e]
        (extract (before ++ .raw optionFormat text :: after) true)
        (extract (before ++ after) true)) ↔ ¬ TakesColumns α text) ∧
    (TakesColumns α text → ∃ source, e = refuse (.cellSpecifier source) ∨
      e = refuse (.cellUnderline source)) := by
  have hall : ∀ d' : Directive α, (d'.withOptions text).2 = some e :=
    fun d' => (withOptions_error d' d text).trans refused
  refine ⟨fun before after => ?_, ⟨fun hsame hlate => ?_, fun hearly => ?_⟩,
    fun hlate => fault_of_takes hlate refused⟩
  · refine (extractFrom_refused kept_alike hall recoverable ?_ before after
      true (.refl _)).normalized
    exact fun {d d'} hd => (alike_of_refused (hall d)).trans hd
  · -- A cell of nothing but the list is left with a number of columns.
    obtain ⟨n, hn⟩ := columns_of_takes hlate {}
    have hread : extract [.raw optionFormat text] true = .ok
        ((({} : Directive α).withOptions text).1, [], [refusal text e]) := by
      rw [extract, extractFrom_drops (hall {}) (by rw [recoverable]; rfl)]
      rfl
    have heq := (hsame [] []).related hread rfl
    simp only [] at heq
    rw [heq] at hn
    cases hn
  · intro before after
    refine (extractFrom_refused kept_eq hall recoverable ?_ before after
      true rfl).normalized
    exact fun {d d'} hd => (eq_of_refused hearly (hall d)).trans hd

theorem extract_refusedCount :
    (({} : Directive Float).withOptions "0").2 =
        some (refuse (.cellColumns "0")) ∧
      Differ (α := Float) Eq [refusal "0" (refuse (.cellColumns "0"))]
        (extract [.word "3>", .raw optionFormat "0", .space, .word "x"] true)
        (extract [.word "3>", .space, .word "x"] true) := by
  have hrefused : (({} : Directive Float).withOptions "0").2 =
      some (refuse (.cellColumns "0")) := by decide +kernel
  obtain ⟨_, hsame, hfault⟩ := extract_refused hrefused rfl
  refine ⟨hrefused, hsame.mpr (fun hlate => ?_) [.word "3>"] _⟩
  obtain ⟨source, h | h⟩ := hfault hlate <;> cases h

/-- The specifier is refused, and the cell covers two columns all the same. -/
theorem extract_refusedSpecifier : ∃ e,
    (({} : Directive Float).withOptions "2,3").2 = some e ∧
      e.isRecoverable = true ∧
      (extract (α := Float) [.raw optionFormat "2,3", .space, .word "x"]
        true).toOption.map (·.1.columns) = some (some 2) ∧
      (extract (α := Float) [.space, .word "x"] true).toOption.map
        (·.1.columns) = some none := by
  refine ⟨refuse (.cellSpecifier "3"), ?_⟩
  decide +kernel

end Directive

end Tabulation
