import Tabulation.Error

/-!
# Strict and lenient runs in lockstep

Every step that may be refused runs in two ways. A strict run stops at the
first complaint; a lenient run replaces what the complaint is about, goes on
and keeps a warning. `Lockstep` relates the two outcomes of one step: either
both succeed with the same answer and without a warning, or the strict run
fails and the lenient one does not succeed silently. Steps in lockstep compose
as long as the second one keeps the warnings of the first, and that is the only
thing that the layers above have to watch.
-/

namespace Tabulation

variable {ε β γ : Type}

/-- The outcomes of a strict and of a lenient run; the answers carry the
warnings that `warned` finds in them. -/
inductive Lockstep (warned : β → List Warning) :
    Except ε β → Except ε β → Prop where
  | same {b : β} (silent : warned b = []) : Lockstep warned (.ok b) (.ok b)
  | refused {e : ε} {lenient : Except ε β}
      (loud : ∀ b, lenient = .ok b → warned b ≠ []) :
      Lockstep warned (.error e) lenient

namespace Lockstep

variable {warned : β → List Warning} {heard : γ → List Warning}

/-- What lockstep means for the answers. -/
theorem ok_iff {strict lenient : Except ε β}
    (h : Lockstep warned strict lenient) {b : β} :
    strict = .ok b ↔ lenient = .ok b ∧ warned b = [] := by
  cases h with
  | same silent =>
      constructor
      · intro hb; cases hb; exact ⟨rfl, silent⟩
      · intro h'
        obtain ⟨hb, _⟩ := h'
        exact hb
  | refused loud =>
      constructor
      · intro hb; cases hb
      · intro h'
        obtain ⟨hb, silent⟩ := h'
        exact absurd silent (loud b hb)

/-- What is answered without a warning in one mode is so in the other. -/
theorem either {f : Bool → Except ε β}
    (h : Lockstep warned (f false) (f true)) {mode : Bool} {b : β}
    (hb : f mode = .ok b) (silent : warned b = []) (other : Bool) :
    f other = .ok b := by
  have hstrict : f false = .ok b := by
    cases mode with
    | false => exact hb
    | true => exact h.ok_iff.mpr ⟨hb, silent⟩
  cases other with
  | false => exact hstrict
  | true => exact (h.ok_iff.mp hstrict).1

theorem error (e e' : ε) :
    Lockstep warned (.error e) (.error e') :=
  .refused fun _ h => nomatch h

/-- A step that does not look at the mode, and does not warn. -/
theorem of_silent {x : Except ε β}
    (silent : ∀ b, x = .ok b → warned b = []) : Lockstep warned x x := by
  cases x with
  | error e => exact .error e e
  | ok b => exact .same (silent b rfl)

/-- Two steps in lockstep are one, if the second does not drop the warnings
of the first. -/
theorem bind {strict lenient : Except ε β} {f g : β → Except ε γ}
    (h : Lockstep warned strict lenient)
    (next : ∀ b, warned b = [] → Lockstep heard (f b) (g b))
    (kept : ∀ b c, warned b ≠ [] → g b = .ok c → heard c ≠ []) :
    Lockstep heard (strict >>= f) (lenient >>= g) := by
  cases h with
  | @same b silent => exact next b silent
  | @refused e lenient loud =>
      refine .refused fun c hc => ?_
      cases lenient with
      | error e' => cases hc
      | ok b => exact kept b c (loud b rfl) hc

/-- A step in lockstep whose answers are read in another way. -/
theorem map {strict lenient : Except ε β} {f : β → γ}
    (h : Lockstep warned strict lenient)
    (reads : ∀ b, heard (f b) = warned b) :
    Lockstep heard (strict >>= fun b => .ok (f b))
      (lenient >>= fun b => .ok (f b)) := by
  refine h.bind (fun b silent => .same ?_) fun b c loud hc => ?_
  · rw [reads, silent]
  · cases hc
    rw [reads]
    exact loud

/-- Two steps in lockstep, one after the other, with the warnings of both. -/
theorem both {δ : Type} {strict lenient : Except ε (β × List Warning)}
    {strict' lenient' : Except ε (γ × List Warning)}
    (h : Lockstep Prod.snd strict lenient)
    (h' : Lockstep Prod.snd strict' lenient') (f : β → γ → δ) :
    Lockstep Prod.snd
      (strict >>= fun x => strict' >>= fun y => .ok (f x.1 y.1, x.2 ++ y.2))
      (lenient >>= fun x =>
        lenient' >>= fun y => .ok (f x.1 y.1, x.2 ++ y.2)) := by
  refine h.bind (fun x silent => ?_) fun x z loud hz => ?_
  · refine h'.map fun y => ?_
    rw [silent, List.nil_append]
  · cases lenient' with
    | error e => cases hz
    | ok y => cases hz; exact List.append_ne_nil_of_left_ne_nil loud _

end Lockstep

end Tabulation
