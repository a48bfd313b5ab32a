import Tabulation.Proofs.Styles.Session
import Tabulation.Proofs.Turns

/-!
# What a document reports does not depend on the format

The two writers run different code for every block, and OpenDocument collects
styles on the way, which LaTeX does not have. But what can fail or warn is the
layout, which both compute first and in the same order, and a writer only reads
it. So the two renders of a document are run side by side in sessions that
differ in the styles at most: block by block they fail with the same error, or
both go on and have kept the same warnings.
-/

namespace Tabulation

open Session Markup

variable {α β β' γ γ' : Type}

/-- Runs that end the same way: both with an answer, or both with the same
error, in sessions that differ in the styles at most. -/
inductive EndAlike : Except Failure β × Session α →
    Except Failure γ × Session α → Prop where
  | ok (b : β) (c : γ) (s : Session α) (styles : List String) :
      EndAlike (.ok b, s) (.ok c, s.withStyles styles)
  | error (e : Failure) (s : Session α) (styles : List String) :
      EndAlike (.error e, s) (.error e, s.withStyles styles)

/-- Two renders of which each may collect styles of its own. -/
def Parallel (run : Session α → Except Failure β × Session α)
    (run' : Session α → Except Failure γ × Session α) : Prop :=
  ∀ (s : Session α) (styles : List String),
    EndAlike (run s) (run' (s.withStyles styles))

namespace Parallel

variable {run : Session α → Except Failure β × Session α}
  {run' : Session α → Except Failure β' × Session α}

/-- Steps that cannot fail and that leave all but the styles alone. -/
theorem of_total {f : Session α → β} {f' : Session α → β'}
    {g g' : Session α → Session α}
    (keeps : ∀ s, ∃ styles, g s = s.withStyles styles)
    (keeps' : ∀ s, ∃ styles, g' s = s.withStyles styles) :
    Parallel (fun s => (.ok (f s), g s)) fun s => (.ok (f' s), g' s) := by
  intro s styles
  obtain ⟨left, hleft⟩ := keeps s
  obtain ⟨right, hright⟩ := keeps' (s.withStyles styles)
  simp only [hleft, hright]
  exact .ok _ _ (s.withStyles left) right

theorem pure (b : β) (b' : β') :
    Parallel (fun s : Session α => (.ok b, s)) fun s => (.ok b', s) :=
  of_total (fun s => ⟨s.styles, rfl⟩) fun s => ⟨s.styles, rfl⟩

theorem inTurn {next : β → Session α → Except Failure γ × Session α}
    {next' : β' → Session α → Except Failure γ' × Session α}
    (h : Parallel run run') (hnext : ∀ b b', Parallel (next b) (next' b')) :
    Parallel (inTurn run next) (inTurn run' next') := by
  intro s styles
  have hs := h s styles
  rw [Tabulation.inTurn, Tabulation.inTurn]
  generalize run s = ended at hs ⊢
  generalize run' (s.withStyles styles) = ended' at hs ⊢
  cases hs with
  | ok b b' s styles => exact hnext b b' s styles
  | error e s styles => exact .error e s styles

theorem inRow {run : Table α → Session α → Except Failure β × Session α}
    {run' : Table α → Session α → Except Failure β' × Session α}
    (h : ∀ t, Parallel (run t) (run' t)) (join : β → γ → γ)
    (join' : β' → γ' → γ') (empty : γ) (empty' : γ') (ts : List (Table α)) :
    Parallel (inRow run join empty ts) (inRow run' join' empty' ts) := by
  induction ts with
  | nil => exact .pure empty empty'
  | cons t ts ih =>
      exact (h t).inTurn fun first first' => ih.inTurn fun more more' =>
        .pure (join first more) (join' first' more')

end Parallel

theorem compile_parallel [Scalar α] (t : Table α) :
    Parallel (compile t) (compile t) := by
  intro s styles
  rw [compile_withStyles]
  generalize compile t s = compiled
  obtain ⟨answer, s'⟩ := compiled
  cases answer with
  | ok layout => exact .ok layout layout s' styles
  | error e => exact .error e s' styles

theorem renderLatex_parallel (t : Table Float) :
    Parallel (renderLatex t) (renderOdt t) := by
  rw [renderLatex_eq, renderOdt_eq]
  exact (compile_parallel t).inTurn fun _ _ =>
    .of_total (fun s => ⟨s.styles, rfl⟩) fun _ => ⟨_, rfl⟩

theorem renderTable_parallel (t : Table Float) :
    Parallel (renderTable .latex t) (renderTable .odt t) := by
  intro s styles
  have hs := renderLatex_parallel t s styles
  rw [renderTable, renderTable, Tabulation.inTurn]
  generalize renderLatex t s = ended at hs ⊢
  generalize renderOdt t (s.withStyles styles) = ended' at hs ⊢
  cases hs with
  | ok table part s styles => exact .ok table.float part s styles
  | error e s styles => exact .error e s styles

theorem renderRow_parallel (ts : List (Table Float)) :
    Parallel (renderRow .latex ts) (renderRow .odt ts) := by
  intro s styles
  have hs := Parallel.inRow renderLatex_parallel List.cons (· ++ ·) [] "" ts
    s styles
  rw [renderRow_latex, renderRow_odt, Tabulation.inTurn]
  generalize inRow renderLatex _ _ ts s = ended at hs ⊢
  generalize inRow renderOdt _ _ ts (s.withStyles styles) = ended' at hs ⊢
  cases hs with
  | ok tables part s styles =>
      exact .ok (LatexTable.floatRow tables) part s styles
  | error e s styles => exact .error e s styles

/-- A block is a heading in either format, or something that is rendered in
both in parallel. -/
theorem renderBlock_parallel (block : Block Float) :
    (∃ level, block = .heading level) ∨
      ∃ run run' : Session Float → Except Failure String × Session Float,
        Parallel run run' ∧
          (∀ s, renderBlock .latex block s = (some (run s).1, (run s).2)) ∧
          ∀ s, renderBlock .odt block s = (some (run' s).1, (run' s).2) := by
  cases block with
  | heading level => exact .inl ⟨level, rfl⟩
  | table t =>
      exact .inr ⟨_, _, renderTable_parallel t, renderBlock_table .latex t,
        renderBlock_table .odt t⟩
  | floatRow ts =>
      exact .inr ⟨_, _, renderRow_parallel ts, renderBlock_floatRow .latex ts,
        renderBlock_floatRow .odt ts⟩

/-- What rendered blocks report: the warnings, and how many of the blocks are
only marks of a failure. -/
def Parts.report (p : Parts) : List Warning × Nat :=
  (p.session.warnings, p.failures)

theorem renderBlocks_report (blocks : List (Block Float)) (s : Session Float)
    (styles : List String) :
    (renderBlocks .latex s blocks).map Parts.report =
      (renderBlocks .odt (s.withStyles styles) blocks).map Parts.report := by
  induction blocks generalizing s styles with
  | nil => rfl
  | cons block rest ih =>
      rw [renderBlocks, renderBlocks]
      obtain ⟨level, rfl⟩ | ⟨run, run', h, hlatex, hodt⟩ :=
        renderBlock_parallel block
      · exact ih (s.enterHeading level) styles
      · have hs := h s styles
        rw [hlatex, hodt]
        generalize run s = ended at hs ⊢
        generalize run' (s.withStyles styles) = ended' at hs ⊢
        cases hs with
        | ok part part' s styles =>
            have hadd : ∀ (x : Except Failure Parts) (part : String),
                (x.map fun p => { p with parts := part :: p.parts }).map
                  Parts.report = x.map Parts.report := by
              intro x part
              cases x <;> rfl
            simp only [hadd]
            exact ih s styles
        | error e s styles =>
            have hfail : ∀ (x : Except Failure Parts) (mark : String),
                (x.map fun p => { p with
                    parts := mark :: p.parts
                    failures := p.failures + 1 }).map Parts.report =
                  (x.map Parts.report).map fun r => (r.1, r.2 + 1) := by
              intro x mark
              cases x <;> rfl
            cases e with
            | overflow => rfl
            | refused e =>
                -- Both sessions have the same options, so both go on or neither.
                have hmode : (s.withStyles styles).options = s.options := rfl
                simp only [hmode]
                split
                · rw [hfail, hfail, ih (s.warn [failureWarning e]) styles]
                  rfl
                · rfl

/-- A document renders to LaTeX and to OpenDocument with the same report: both
renders fail with the same error, or both succeed with the same warnings in the
same order and as many failures. -/
theorem renderDocument_report (markup : String) (o : Options Float) :
    (∃ e, renderDocument markup .latex o = .error e ∧
      renderDocument markup .odt o = .error e) ∨
    ∃ r r', renderDocument markup .latex o = .ok r ∧
      renderDocument markup .odt o = .ok r' ∧
      r.warnings = r'.warnings ∧ r.failures = r'.failures := by
  obtain ⟨e, hfails⟩ | ⟨blocks, _, hrenders⟩ := renderDocument_cases markup o
  · exact .inl ⟨_, hfails .latex, hfails .odt⟩
  · have h := renderBlocks_report blocks { options := o } []
    have hfresh : ({ options := o } : Session Float).withStyles [] =
        { options := o } := rfl
    rw [hfresh] at h
    rw [hrenders, hrenders]
    generalize renderBlocks .latex _ blocks = x at h ⊢
    generalize renderBlocks .odt _ blocks = y at h ⊢
    cases x with
    | error e =>
        cases y with
        | error e' => cases h; exact .inl ⟨e, rfl, rfl⟩
        | ok q => cases h
    | ok p =>
        cases y with
        | error e' => cases h
        | ok q =>
            obtain ⟨hwarnings, hfailures⟩ := Prod.mk.inj (Except.ok.inj h)
            exact .inr ⟨_, _, rfl, rfl, hwarnings, hfailures⟩

end Tabulation
