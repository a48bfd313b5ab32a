import Tabulation.Proofs.Leniency.Session

/-!
# Documents in lockstep

Both writers lay a table out and then only read the layout, so what holds of
layouts holds of written tables and of rows of them. A document is rendered
block by block: a table that fails ends the strict render, and in the lenient
one it leaves a warning, which nothing behind it takes back. That gives the
contract of the two modes: the strict render of a document succeeds exactly if
the lenient one succeeds without a warning, and then both give the same.
-/

namespace Tabulation

open Session Markup

theorem renderLatex_steady {α : Type} [Scalar α] (t : Table α) :
    Steady (renderLatex t) := by
  rw [renderLatex_eq]
  exact (compile_steady t).inTurn fun layout =>
    .of_total (fun _ _ => rfl) (fun _ _ => rfl) (fun _ => rfl) (fun _ => rfl)

theorem renderOdt_steady (t : Table Float) : Steady (renderOdt t) := by
  rw [renderOdt_eq]
  exact (compile_steady t).inTurn fun layout =>
    .of_total (fun _ _ => rfl) (fun _ _ => rfl) (fun _ => rfl) (fun _ => rfl)

theorem renderTable_steady (format : Format) (t : Table Float) :
    Steady (renderTable format t) := by
  cases format with
  | latex => exact (renderLatex_steady t).inTurn fun table => .pure table.float
  | odt => exact renderOdt_steady t

theorem renderRow_steady (format : Format) (ts : List (Table Float)) :
    Steady (renderRow format ts) := by
  cases format with
  | latex =>
      rw [renderRow_latex]
      exact (Steady.inRow renderLatex_steady List.cons [] ts).inTurn
        fun tables => .pure _
  | odt =>
      rw [renderRow_odt]
      exact .inRow renderOdt_steady _ _ ts

/-- A block is a heading, which only counts, or something that is rendered. -/
theorem renderBlock_cases (format : Format) (block : Block Float) :
    (∃ level, ∀ s, renderBlock format block s = (none, s.enterHeading level)) ∨
      ∃ run : Session Float → Except Failure String × Session Float,
        Steady run ∧
          ∀ s, renderBlock format block s = (some (run s).1, (run s).2) := by
  cases block with
  | heading level => exact .inl ⟨level, fun _ => by rw [renderBlock]⟩
  | table t =>
      exact .inr ⟨_, renderTable_steady format t, renderBlock_table format t⟩
  | floatRow ts =>
      exact .inr ⟨_, renderRow_steady format ts,
        renderBlock_floatRow format ts⟩

/-- What the rest of a document adds to a session. -/
theorem renderBlocks_warnings {format : Format} {blocks : List (Block Float)}
    {s : Session Float} {p : Parts}
    (h : renderBlocks format s blocks = .ok p) :
    s.warnings <+: p.session.warnings := by
  induction blocks generalizing s p with
  | nil => cases h; exact List.prefix_refl _
  | cons block rest ih =>
      rw [renderBlocks] at h
      obtain ⟨level, hblock⟩ | ⟨run, hrun, hblock⟩ :=
        renderBlock_cases format block
      · rw [hblock] at h
        exact ih (s := s.enterHeading level) h
      · have hs := (hrun.continues s).warnings
        rw [hblock] at h
        generalize run s = outcome at h hs
        obtain ⟨answer, s'⟩ := outcome
        cases answer with
        | ok part =>
            obtain ⟨q, hq, rfl⟩ := Except.map_eq_ok.mp h
            have hrest := ih hq
            exact hs.trans hrest
        | error e =>
            cases e with
            | overflow => cases h
            | refused e =>
                simp only [] at h
                split at h
                · obtain ⟨q, hq, rfl⟩ := Except.map_eq_ok.mp h
                  have hrest := ih hq
                  exact hs.trans ((List.prefix_append _ _).trans hrest)
                · cases h

/-- What the blocks of a document come to, in a session of lenient mode. -/
def Parts.relaxed (p : Parts) : Parts :=
  { p with session := p.session.under true }

theorem renderBlocks_lockstep (format : Format) (blocks : List (Block Float))
    (s : Session Float) (silent : s.warnings = []) :
    Lockstep (fun p => p.session.warnings)
      ((renderBlocks format (s.under false) blocks).map Parts.relaxed)
      ((renderBlocks format (s.under true) blocks).map Parts.relaxed) := by
  induction blocks generalizing s with
  | nil => exact .same silent
  | cons block rest ih =>
      obtain ⟨level, hblock⟩ | ⟨run, hrun, hblock⟩ :=
        renderBlock_cases format block
      · rw [renderBlocks, renderBlocks, hblock, hblock]
        exact ih (s.enterHeading level) silent
      · have hs := hrun.lockstep s silent
        have hstrict := (hrun.continues (s.under false)).options
        have hlenient := (hrun.continues (s.under true)).options
        have hblock' := hblock (s.under true)
        replace hblock := hblock (s.under false)
        generalize run (s.under false) = strict at hs hstrict hblock
        generalize run (s.under true) = lenient at hs hlenient hblock'
        cases hs with
        | @same part s' silent' =>
            have hadd : ∀ x : Except Failure Parts,
                (x.map fun p => { p with parts := part :: p.parts }).map
                    Parts.relaxed =
                  x.map Parts.relaxed >>= fun p =>
                    .ok { p with parts := part :: p.parts } := by
              intro x
              cases x <;> rfl
            rw [renderBlocks, renderBlocks, hblock, hblock']
            simp only []
            rw [hadd, hadd]
            exact (ih s' silent').map fun _ => rfl
        | @refused e u u' lenient loud =>
            rw [renderBlocks_stops hblock (congrArg _ hstrict), renderBlocks,
              hblock']
            refine .refused fun p hp => ?_
            obtain ⟨q, hq, rfl⟩ := Except.map_eq_ok.mp hp
            cases lenient with
            | ok part =>
                obtain ⟨r, hr, rfl⟩ := Except.map_eq_ok.mp hq
                have hkept := renderBlocks_warnings hr
                intro hnone
                exact loud part rfl (List.prefix_nil.mp (hnone ▸ hkept))
            | error e' =>
                have hmode' : u'.options.lenient = true := congrArg _ hlenient
                cases e' with
                | overflow => cases hq
                | refused e' =>
                    simp only [hmode'] at hq
                    obtain ⟨r, hr, rfl⟩ := Except.map_eq_ok.mp hq
                    have hkept := renderBlocks_warnings hr
                    intro hnone
                    have hwarned := List.prefix_nil.mp (hnone ▸ hkept)
                    exact List.append_ne_nil_of_right_ne_nil _
                      (List.cons_ne_nil _ _) hwarned

/-- A strict render leaves nothing out. -/
theorem renderBlocks_failures {format : Format} {blocks : List (Block Float)}
    {s : Session Float} {p : Parts} (mode : s.options.lenient = false)
    (h : renderBlocks format s blocks = .ok p) : p.failures = 0 := by
  induction blocks generalizing s p with
  | nil => cases h; rfl
  | cons block rest ih =>
      obtain ⟨level, hblock⟩ | ⟨run, hrun, hblock⟩ :=
        renderBlock_cases format block
      · rw [renderBlocks, hblock] at h
        exact ih (s := s.enterHeading level) mode h
      · have hs := (hrun.continues s).options
        replace hblock := hblock s
        generalize run s = outcome at hblock hs
        obtain ⟨answer, s'⟩ := outcome
        have hmode : s'.options.lenient = false := by rw [hs, mode]
        cases answer with
        | ok part =>
            rw [renderBlocks, hblock] at h
            obtain ⟨q, hq, rfl⟩ := Except.map_eq_ok.mp h
            have hrest := ih hmode hq
            exact hrest
        | error e =>
            rw [renderBlocks_stops hblock hmode] at h
            cases h

theorem Parts.document_relaxed (format : Format) (p : Parts) :
    p.relaxed.document format = p.document format := by
  cases format <;> rfl

theorem renderDocument_lockstep (markup : String) (format : Format)
    (o : Options Float) :
    Lockstep Rendered.warnings
      (renderDocument markup format { o with lenient := false })
      (renderDocument markup format { o with lenient := true }) := by
  have hvalid : Lockstep (fun _ => [])
      ((Options.validate { o with lenient := false }).mapError
        Failure.refused)
      ((Options.validate { o with lenient := true }).mapError .refused) :=
    .of_silent fun _ _ => rfl
  have hparse : Lockstep (fun _ => [])
      ((parseDocument (α := Float) markup).mapError Failure.refused)
      ((parseDocument markup).mapError .refused) :=
    .of_silent fun _ _ => rfl
  have hdocument : ∀ x : Except Failure Parts,
      x.map (Parts.document format) =
        x.map Parts.relaxed >>= fun p => .ok (p.document format) := by
    intro x
    cases x with
    | error e => rfl
    | ok p => exact congrArg Except.ok (p.document_relaxed format).symm
  rw [renderDocument_eq, renderDocument_eq]
  refine hvalid.bind (fun _ _ => ?_) (fun _ _ loud => absurd rfl loud)
  refine hparse.bind (fun blocks _ => ?_) (fun _ _ loud => absurd rfl loud)
  have hblocks := renderBlocks_lockstep format blocks { options := o } rfl
  rw [hdocument, hdocument]
  exact hblocks.map (f := Parts.document format) fun _ => rfl

/-- The strict render of a document succeeds exactly if the lenient one does
without a warning; both then give the same, and nothing is left out of it. -/
theorem renderDocument_strict_iff (markup : String) (format : Format)
    (o : Options Float) (r : Rendered) :
    (renderDocument markup format { o with lenient := false } = .ok r ↔
      renderDocument markup format { o with lenient := true } = .ok r ∧
        r.warnings = []) ∧
      (renderDocument markup format { o with lenient := false } = .ok r →
        r.failures = 0) := by
  refine ⟨(renderDocument_lockstep markup format o).ok_iff, fun h => ?_⟩
  rw [renderDocument_eq] at h
  obtain ⟨_, _, h⟩ := Except.bind_eq_ok.mp h
  obtain ⟨blocks, _, h⟩ := Except.bind_eq_ok.mp h
  obtain ⟨p, hp, rfl⟩ := Except.map_eq_ok.mp h
  have hnone : p.failures = 0 := renderBlocks_failures rfl hp
  exact hnone

end Tabulation
