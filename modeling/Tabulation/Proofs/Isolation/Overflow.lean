import Mathlib
import Tabulation.Proofs.Layout.Overflow
import Tabulation.Proofs.Leniency.Document
import Tabulation.Proofs.Markup.Rows

/-!
# Where a render overflows

Only a layout can overflow. The writers add nothing to that, and tables in a row
are rendered in sessions with the same options, so a block overflows only if one
of its tables does.
-/

namespace Tabulation

open Session Markup

section Tables

variable {α β γ : Type} [Scalar α] {ts : List (Table α)}

/-- A run that overflows only if some of the tables do. -/
def OverflowsBy (ts : List (Table α))
    (run : Session α → Except Failure β × Session α) : Prop :=
  ∀ s, (run s).1 = .error .overflow → ∃ t ∈ ts, t.Overflows s.options.lenient

namespace OverflowsBy

variable {run : Session α → Except Failure β × Session α}

theorem of_ok {f : Session α → β} {g : Session α → Session α} :
    OverflowsBy ts fun s => (.ok (f s), g s) :=
  fun _ h => by cases h

theorem mono {more : List (Table α)} (h : OverflowsBy ts run)
    (hsub : ts ⊆ more) : OverflowsBy more run := by
  intro s hs
  obtain ⟨t, ht, hover⟩ := h s hs
  exact ⟨t, hsub ht, hover⟩

theorem inTurn {next : β → Session α → Except Failure γ × Session α}
    (h : OverflowsBy ts run) (hrun : Steady run)
    (hnext : ∀ b, OverflowsBy ts (next b)) :
    OverflowsBy ts (inTurn run next) := by
  intro s hs
  have hoptions := (hrun.continues s).options
  have hfirst := h s
  rw [Tabulation.inTurn] at hs
  generalize run s = ended at hs hoptions hfirst
  obtain ⟨answer, s'⟩ := ended
  cases answer with
  | error e =>
      cases hs
      exact hfirst rfl
  | ok b =>
      obtain ⟨t, ht, hover⟩ := hnext b s' hs
      rw [show s'.options = s.options from hoptions] at hover
      exact ⟨t, ht, hover⟩

theorem inRow {run : Table α → Session α → Except Failure β × Session α}
    (h : ∀ t, OverflowsBy [t] (run t)) (hrun : ∀ t, Steady (run t))
    (join : β → γ → γ) (empty : γ) (ts : List (Table α)) :
    OverflowsBy ts (inRow run join empty ts) := by
  induction ts with
  | nil => exact .of_ok
  | cons t ts ih =>
      have hfirst := (h t).mono (List.cons_subset_cons t ts.nil_subset)
      have hrest := ih.mono (List.subset_cons_self t ts)
      exact hfirst.inTurn (hrun t) fun _ =>
        hrest.inTurn (.inRow hrun join empty ts) fun _ => .of_ok

end OverflowsBy

end Tables

end Tabulation
