import Tabulation.Content.Directive
import Tabulation.Proofs.Outcome

/-!
# How a piece of content is read

Reading a cell goes along its content with a directive. A piece is passed over,
counted as indentation, taken for marks, read as an option list or kept, and
which of these it is depends on the piece and on what came before it, and
neither on the directive nor on the mode. `Reads` says so once, and what holds
of all readings is proved by induction along the content with these cases.
-/

namespace Tabulation

namespace Directive

/-- The complaint about an option list that is refused and dropped. -/
def refusal (text : String) (e : Error) : Warning where
  text := "ignored cell options " ++ Text.quoted text ++ ": " ++ e.message
  suggestion := none

/-- How a piece of content is read, whatever is read behind it. -/
inductive Reads (α : Type) [Scalar α] (leading : Bool) (x : Inline) : Prop where
  | passed (h : ∀ (lenient : Bool) (d : Directive α) (rest : List Inline),
      extractFrom lenient leading d (x :: rest) =
        extractFrom lenient leading d rest)
  | indents (h : ∀ (lenient : Bool) (d : Directive α) (rest : List Inline),
      extractFrom lenient leading d (x :: rest) =
        extractFrom lenient leading { d with indent := d.indent + 1 } rest)
  | marks (underline extra : Option Nat)
      (h : ∀ (lenient : Bool) (d : Directive α) (rest : List Inline),
        extractFrom lenient leading d (x :: rest) =
          extractFrom lenient false (d.withMarks underline extra) rest)
  | options (text : String) (h : x = .raw optionFormat text)
  | kept (h : ∀ (lenient : Bool) (d : Directive α) (rest : List Inline),
      extractFrom lenient leading d (x :: rest) =
        extractFrom lenient false d rest >>= fun p =>
          .ok (p.1, x :: p.2.1, p.2.2))

variable {α : Type} [Scalar α]

section

variable {leading : Bool}

/-- Markup of another format is kept. -/
theorem extractFrom_raw {format : String} (h : format ≠ optionFormat)
    (text : String) (lenient : Bool) (d : Directive α) (rest : List Inline) :
    extractFrom lenient leading d (.raw format text :: rest) =
      extractFrom lenient false d rest >>= fun p =>
        .ok (p.1, .raw format text :: p.2.1, p.2.2) := by
  rw [extractFrom, if_neg h]
  rfl

theorem extractFrom_marker (lenient : Bool) (d : Directive α)
    (rest : List Inline) :
    extractFrom lenient true d (.word indentMarker :: rest) =
      extractFrom lenient true { d with indent := d.indent + 1 } rest := by
  rw [extractFrom]
  exact if_pos rfl

theorem extractFrom_marks {text : String} {underline extra : Option Nat}
    (h : ¬ (leading && text = indentMarker) = true)
    (hmarks : marks? text = some (underline, extra)) (lenient : Bool)
    (d : Directive α) (rest : List Inline) :
    extractFrom lenient leading d (.word text :: rest) =
      extractFrom lenient false (d.withMarks underline extra) rest := by
  rw [extractFrom, if_neg h, hmarks]

theorem extractFrom_word {text : String}
    (h : ¬ (leading && text = indentMarker) = true)
    (hmarks : marks? text = none) (lenient : Bool) (d : Directive α)
    (rest : List Inline) :
    extractFrom lenient leading d (.word text :: rest) =
      extractFrom lenient false d rest >>= fun p =>
        .ok (p.1, .word text :: p.2.1, p.2.2) := by
  rw [extractFrom, if_neg h, hmarks]
  rfl

end

variable (α) in
theorem reads (leading : Bool) (x : Inline) : Reads α leading x := by
  cases x with
  | strong inner => exact .kept fun _ _ _ => rfl
  | note label => exact .kept fun _ _ _ => rfl
  | space =>
      cases leading with
      | true => exact .passed fun _ _ _ => rfl
      | false => exact .kept fun _ _ _ => rfl
  | raw format text =>
      by_cases hformat : format = optionFormat
      · exact .options text (by rw [hformat])
      · exact .kept (extractFrom_raw hformat text)
  | word text =>
      by_cases hmarker : (leading && text = indentMarker) = true
      · obtain ⟨rfl, htext⟩ := Bool.and_eq_true_iff.mp hmarker
        obtain rfl := of_decide_eq_true htext
        exact .indents extractFrom_marker
      · cases hmarks : marks? text with
        | some asked =>
            exact .marks asked.1 asked.2 (extractFrom_marks hmarker hmarks)
        | none => exact .kept (extractFrom_word hmarker hmarks)

variable {lenient leading : Bool} {d : Directive α} {text : String}

/-- An option list is taken, or dropped with a complaint, or ends the reading. -/
theorem extractFrom_optionList (lenient leading : Bool) (d : Directive α)
    (text : String) (rest : List Inline) :
    extractFrom lenient leading d (.raw optionFormat text :: rest) =
      (d.withOptions text).2.elim
        (extractFrom lenient leading (d.withOptions text).1 rest) fun e =>
          if (lenient && e.isRecoverable) = true then
            extractFrom lenient leading (d.withOptions text).1 rest >>= fun p =>
              .ok (p.1, p.2.1, refusal text e :: p.2.2)
          else .error e := by
  rw [extractFrom, if_pos rfl]
  obtain ⟨after, error⟩ := d.withOptions text
  cases error <;> rfl

theorem extractFrom_options (h : (d.withOptions text).2 = none)
    (rest : List Inline) :
    extractFrom lenient leading d (.raw optionFormat text :: rest) =
      extractFrom lenient leading (d.withOptions text).1 rest := by
  rw [extractFrom_optionList, h]
  rfl

theorem extractFrom_stops {e : Error} (h : (d.withOptions text).2 = some e)
    (hstops : (lenient && e.isRecoverable) = false) (rest : List Inline) :
    extractFrom lenient leading d (.raw optionFormat text :: rest) =
      .error e := by
  rw [extractFrom_optionList, h]
  exact if_neg (Bool.eq_false_iff.mp hstops)

theorem extractFrom_drops {e : Error} (h : (d.withOptions text).2 = some e)
    (hdrops : (lenient && e.isRecoverable) = true) (rest : List Inline) :
    extractFrom lenient leading d (.raw optionFormat text :: rest) =
      extractFrom lenient leading (d.withOptions text).1 rest >>= fun p =>
        .ok (p.1, p.2.1, refusal text e :: p.2.2) := by
  rw [extractFrom_optionList, h]
  exact if_pos hdrops

/-- A reading that succeeds goes on behind an option list as if the list had
been taken, with or without a complaint. -/
theorem extractFrom_pastOptions {rest kept : List Inline} {d' : Directive α}
    {ws : List Warning}
    (h : extractFrom lenient leading d (.raw optionFormat text :: rest) =
      .ok (d', kept, ws)) :
    ∃ ws', extractFrom lenient leading (d.withOptions text).1 rest =
      .ok (d', kept, ws') := by
  cases herror : (d.withOptions text).2 with
  | none =>
      rw [extractFrom_options herror] at h
      exact ⟨ws, h⟩
  | some e =>
      cases hdrops : (lenient && e.isRecoverable) with
      | true =>
          rw [extractFrom_drops herror hdrops] at h
          obtain ⟨⟨_, _, ws'⟩, hrest, h⟩ := Except.bind_eq_ok.mp h
          cases h
          exact ⟨ws', hrest⟩
      | false =>
          rw [extractFrom_stops herror hdrops] at h
          cases h

end Directive

end Tabulation
