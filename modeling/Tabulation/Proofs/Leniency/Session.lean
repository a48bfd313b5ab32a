import Tabulation.Proofs.Layout.Stages
import Tabulation.Proofs.Leniency.Layout
import Tabulation.Proofs.Turns

/-!
# Sessions in lockstep

A table is rendered in a session, which holds the mode among its options and
collects the warnings, so a strict and a lenient render of one document run in
two sessions. They are kept together by `under`, one session in either mode.
`Steady` is what a render has to be for documents to be in lockstep: whatever
comes of it, it leaves the options alone and keeps the warnings that were
there, and as long as there are none its two runs are in lockstep.
-/

namespace Tabulation

variable {α β γ : Type}

namespace Session

/-- The session in strict or in lenient mode. -/
def under (lenient : Bool) (s : Session α) : Session α :=
  { s with options := { s.options with lenient } }

/-- A session that is the same one as before, or further on. -/
structure Continues (s s' : Session α) : Prop where
  options : s'.options = s.options
  warnings : s.warnings <+: s'.warnings

theorem Continues.refl (s : Session α) : s.Continues s :=
  ⟨rfl, List.prefix_refl _⟩

theorem Continues.trans {s s' s'' : Session α} (h : s.Continues s')
    (h' : s'.Continues s'') : s.Continues s'' :=
  ⟨h'.options.trans h.options, h.warnings.trans h'.warnings⟩

theorem Continues.warn (s : Session α) (ws : List Warning) :
    s.Continues (s.warn ws) :=
  ⟨rfl, List.prefix_append _ _⟩

theorem Continues.loud {s s' : Session α} (h : s.Continues s')
    (loud : s.warnings ≠ []) : s'.warnings ≠ [] := fun silent =>
  loud (List.prefix_nil.mp (silent ▸ h.warnings))

end Session

open Session

/-- The outcomes of a strict and of a lenient run, and the sessions that they
end in. -/
inductive InLockstep : Except Failure β × Session α →
    Except Failure β × Session α → Prop where
  | same {b : β} {s : Session α} (silent : s.warnings = []) :
      InLockstep (.ok b, s.under false) (.ok b, s.under true)
  | refused {e : Failure} {s s' : Session α} {lenient : Except Failure β}
      (loud : ∀ b, lenient = .ok b → s'.warnings ≠ []) :
      InLockstep (.error e, s) (lenient, s')

/-- A render that keeps what the session holds and runs in lockstep. -/
structure Steady (run : Session α → Except Failure β × Session α) : Prop where
  continues : ∀ s : Session α, s.Continues (run s).2
  lockstep : ∀ s : Session α, s.warnings = [] →
    InLockstep (run (s.under false)) (run (s.under true))

namespace Steady

variable {run : Session α → Except Failure β × Session α}

/-- A step that cannot fail and reads only what both modes have in common. -/
theorem of_total {f : Session α → β} {g : Session α → Session α}
    (reads : ∀ s b, f (s.under b) = f s)
    (moves : ∀ s b, g (s.under b) = (g s).under b)
    (options : ∀ s, (g s).options = s.options)
    (warnings : ∀ s, (g s).warnings = s.warnings) :
    Steady fun s => (.ok (f s), g s) where
  continues s := ⟨options s, (warnings s) ▸ List.prefix_refl _⟩
  lockstep s silent := by
    rw [reads, reads, moves, moves]
    exact .same ((warnings s).trans silent)

theorem pure (b : β) : Steady fun s : Session α => (.ok b, s) :=
  .of_total (f := fun _ => b) (fun _ _ => rfl) (fun _ _ => rfl)
    (fun _ => rfl) (fun _ => rfl)

theorem inTurn {next : β → Session α → Except Failure γ × Session α}
    (h : Steady run) (hnext : ∀ b, Steady (next b)) :
    Steady (inTurn run next) where
  continues s := by
    have hs := h.continues s
    rw [Tabulation.inTurn]
    split
    · next heq => rw [heq] at hs; exact hs
    · next b s' heq =>
        rw [heq] at hs
        exact hs.trans ((hnext b).continues s')
  lockstep s silent := by
    have hs := h.lockstep s silent
    rw [Tabulation.inTurn, Tabulation.inTurn]
    generalize run (s.under false) = strict at hs ⊢
    generalize run (s.under true) = lenient at hs ⊢
    cases hs with
    | @same b s' silent' => exact (hnext b).lockstep s' silent'
    | @refused e u u' lenient loud =>
        refine .refused fun c hc => ?_
        cases lenient with
        | error e' => cases hc
        | ok b => exact ((hnext b).continues u').loud (loud b rfl)

theorem inRow {run : Table α → Session α → Except Failure β × Session α}
    (h : ∀ t, Steady (run t)) (join : β → γ → γ) (empty : γ)
    (ts : List (Table α)) : Steady (inRow run join empty ts) := by
  induction ts with
  | nil => exact .pure empty
  | cons t ts ih =>
      exact (h t).inTurn fun first => ih.inTurn fun more =>
        .pure (join first more)

end Steady

section Compile

variable [Scalar α]

omit [Scalar α] in
theorem registerNotes_continues (notePrefix : String) (notes : List Note)
    (s : Session α) : s.Continues (registerNotes notePrefix notes s) := by
  induction notes generalizing s with
  | nil => exact .refl s
  | cons note notes ih =>
      have hnote : s.Continues (s.registerNote notePrefix
          (noteTarget s.options.noteSymbols note.label)).2 :=
        ⟨rfl, List.prefix_refl _⟩
      exact hnote.trans (ih _)

omit [Scalar α] in
theorem registerNotes_under (notePrefix : String) (notes : List Note)
    (s : Session α) (lenient : Bool) :
    registerNotes notePrefix notes (s.under lenient) =
      (registerNotes notePrefix notes s).under lenient := by
  induction notes generalizing s with
  | nil => rfl
  | cons note notes ih =>
      exact ih (s.registerNote notePrefix
        (noteTarget s.options.noteSymbols note.label)).2

omit [Scalar α] in
theorem registerNotes_warnings (notePrefix : String) (notes : List Note)
    (s : Session α) :
    (registerNotes notePrefix notes s).warnings = s.warnings := by
  induction notes generalizing s with
  | nil => rfl
  | cons note notes ih =>
      exact ih (s.registerNote notePrefix
        (noteTarget s.options.noteSymbols note.label)).2

theorem compile_continues (t : Table α) (s : Session α) :
    s.Continues (compile t s).2 := by
  have henter : s.Continues (enterTable t.attributes.label s).2 :=
    ⟨rfl, List.prefix_refl _⟩
  rcases compile_cases t s with ⟨e, ws, h⟩ | ⟨layout, ws, h⟩
  · rw [h]
    exact henter.trans (.warn _ _)
  · rw [h]
    exact (henter.trans (.warn _ _)).trans (registerNotes_continues _ _ _)

namespace Compilation

variable {t : Table α} {s : Session α}

theorem session_warnings (c : Compilation t s) :
    c.session.warnings = s.warnings ++ c.replaced ++ c.ignored :=
  registerNotes_warnings _ _ _

/-- A strict layout has no complaints. -/
theorem silent (c : Compilation t (s.under false)) :
    c.replaced = [] ∧ c.ignored = [] := by
  have hcolumns := layoutColumns_lockstep t.attributes c.count
    (t.totalWidth s.options)
  have hmeasures := measureRows_lockstep (α := α) t.rows
  have hresolved : layoutColumns t.attributes c.count
    (t.totalWidth s.options) false = _ := c.resolved
  rw [hresolved] at hcolumns
  exact ⟨(hcolumns.ok_iff.mp rfl).2, (hmeasures.ok_iff.mp c.measures).2⟩

/-- A layout without complaints is the same in either mode. -/
theorem either {mode : Bool} (c : Compilation t (s.under mode))
    (replaced : c.replaced = []) (ignored : c.ignored = []) (other : Bool) :
    ∃ (d : Compilation t (s.under other)) (s' : Session α),
      d.layout = c.layout ∧ s'.warnings = s.warnings ∧
        c.session = s'.under mode ∧ d.session = s'.under other := by
  have hresolved : (layoutColumns t.attributes c.count
      (t.totalWidth s.options) mode).2.map
        (·, (layoutColumns t.attributes c.count
          (t.totalWidth s.options) mode).1) =
      .ok ((c.columns, c.widths), []) := by
    rw [← replaced]
    exact congrArg (fun x => x.2.map (·, x.1)) c.resolved
  have hmeasures : measureRows mode t.rows = .ok (c.measured, []) := by
    rw [← ignored]
    exact c.measures
  have hcolumns := (layoutColumns_lockstep _ _ _).either
    (f := fun m => (layoutColumns t.attributes c.count
      (t.totalWidth s.options) m).2.map
        (·, (layoutColumns t.attributes c.count
          (t.totalWidth s.options) m).1)) hresolved rfl other
  have hcells := (measureRows_lockstep t.rows).either
    (f := fun m => measureRows m t.rows) hmeasures rfl other
  obtain ⟨x, hx, heq⟩ := Except.map_eq_ok.mp hcolumns
  obtain ⟨rfl, hsilent⟩ := Prod.mk.inj heq
  let d : Compilation t (s.under other) :=
    { c with
      replaced := []
      ignored := []
      resolved := Prod.ext hsilent hx
      measures := hcells
      places := c.places }
  refine ⟨d, registerNotes c.names.notePrefix t.notes
    (enterTable t.attributes.label s).2, rfl, ?_, ?_, ?_⟩
  · rw [registerNotes_warnings]
    rfl
  · rw [session, replaced, ignored, warn_nil, warn_nil]
    exact registerNotes_under _ _ (enterTable t.attributes.label s).2 mode
  · show registerNotes _ _ ((Session.warn _ []).warn []) = _
    rw [warn_nil, warn_nil]
    exact registerNotes_under _ _ (enterTable t.attributes.label s).2 other

end Compilation

theorem compile_steady (t : Table α) : Steady (compile t) where
  continues := compile_continues t
  lockstep s silent := by
    cases hstrict : compile t (s.under false) with
    | mk answer s' =>
        cases answer with
        | ok layout =>
            obtain ⟨c, rfl, rfl⟩ := compile_eq_ok_iff.mp hstrict
            obtain ⟨d, u, hlayout, hsilent, hc, hd⟩ :=
              c.either c.silent.1 c.silent.2 true
            have hlenient := compile_eq_ok_iff.mpr ⟨d, rfl, rfl⟩
            rw [hlenient, hlayout, hc, hd]
            exact .same (hsilent.trans silent)
        | error e =>
            cases hlenient : compile t (s.under true) with
            | mk answer u =>
                refine .refused fun layout hlayout hnone => ?_
                subst hlayout
                obtain ⟨c, rfl, rfl⟩ := compile_eq_ok_iff.mp hlenient
                rw [c.session_warnings] at hnone
                obtain ⟨hreplaced, hignored⟩ := List.append_eq_nil_iff.mp hnone
                obtain ⟨d, _⟩ := c.either
                  (List.append_eq_nil_iff.mp hreplaced).2 hignored false
                have hok := compile_eq_ok_iff.mpr ⟨d, rfl, rfl⟩
                rw [hstrict] at hok
                cases hok

end Compile

end Tabulation
