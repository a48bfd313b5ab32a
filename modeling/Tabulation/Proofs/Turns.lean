import Tabulation.Document

/-!
# Renders in turn

Everything that is rendered runs in a session and hands on the session behind
it, whether it fails or not. The writers compile a table and then read the
layout, a float row renders its tables one after another, and each of them
stops at the first failure: they are all put together by `inTurn`. The
equations here say so, so that a property of renders is proved of whole blocks
by showing that `inTurn` keeps it and that compiling a table has it.
-/

namespace Tabulation

open Markup (Block)

section InTurn

variable {α β γ : Type}

/-- One run after another, unless the first fails. -/
def inTurn (run : Session α → Except Failure β × Session α)
    (next : β → Session α → Except Failure γ × Session α) (s : Session α) :
    Except Failure γ × Session α :=
  match run s with
  | (.error e, s) => (.error e, s)
  | (.ok b, s) => next b s

theorem eq_inTurn {f : Session α → Except Failure γ × Session α}
    {run : Session α → Except Failure β × Session α}
    {next : β → Session α → Except Failure γ × Session α}
    (fails : ∀ {s s' e}, run s = (.error e, s') → f s = (.error e, s'))
    (goesOn : ∀ {s s' b}, run s = (.ok b, s') → f s = next b s') :
    f = inTurn run next := by
  funext s
  rw [inTurn]
  split
  · next heq => exact fails heq
  · next heq => exact goesOn heq

/-- Runs for each of some tables in turn, up to the first that fails, and what
they give put together. -/
def inRow (run : Table α → Session α → Except Failure β × Session α)
    (join : β → γ → γ) (empty : γ) :
    List (Table α) → Session α → Except Failure γ × Session α
  | [] => fun s => (.ok empty, s)
  | t :: rest =>
      inTurn (run t) fun first =>
        inTurn (inRow run join empty rest) fun more s =>
          (.ok (join first more), s)

end InTurn

section Latex

variable {α : Type} [Scalar α]

theorem renderLatex_eq (t : Table α) :
    renderLatex t = inTurn (compile t) fun layout s =>
      (.ok (layout.latex s.options.noteSymbols), s) :=
  eq_inTurn (fun h => by rw [renderLatex, h]) (fun h => by rw [renderLatex, h])

theorem renderAllLatex_eq (ts : List (Table α)) (s : Session α) :
    renderAllLatex s ts = inRow renderLatex List.cons [] ts s := by
  induction ts generalizing s with
  | nil => rfl
  | cons t ts ih =>
      rw [renderAllLatex, inRow, inTurn]
      generalize renderLatex t s = first
      obtain ⟨answer, s'⟩ := first
      cases answer with
      | error e => rfl
      | ok table =>
          simp only [ih, inTurn]
          split <;> simp only [*]

theorem renderFloatRow_eq (ts : List (Table α)) :
    renderFloatRow ts =
      inTurn (inRow renderLatex List.cons [] ts) fun tables s =>
        (.ok (LatexTable.floatRow tables), s) :=
  eq_inTurn (fun h => by rw [renderFloatRow, renderAllLatex_eq, h]; rfl)
    (fun h => by rw [renderFloatRow, renderAllLatex_eq, h]; rfl)

end Latex

theorem renderOdt_eq (t : Table Float) :
    renderOdt t = inTurn (compile t) fun layout s =>
      (.ok (Xml.renderNodes (Odt.body s.options.noteSymbols layout)),
        s.addStyle (Xml.renderNodes (Odt.styles layout))) :=
  eq_inTurn (fun h => by rw [renderOdt, h]) (fun h => by rw [renderOdt, h])

theorem renderAllOdt_eq (ts : List (Table Float)) (s : Session Float) :
    renderAllOdt s ts = inRow renderOdt (· ++ ·) "" ts s := by
  induction ts generalizing s with
  | nil => rfl
  | cons t ts ih =>
      rw [renderAllOdt, inRow, inTurn]
      generalize renderOdt t s = first
      obtain ⟨answer, s'⟩ := first
      cases answer with
      | error e => rfl
      | ok table =>
          simp only [ih, inTurn]
          split <;> simp only [*]

/-- Renders a table block. -/
def renderTable (format : Format) (t : Table Float) :
    Session Float → Except Failure String × Session Float :=
  match format with
  | .latex => inTurn (renderLatex t) fun table s => (.ok table.float, s)
  | .odt => renderOdt t

/-- Renders a float row block. -/
def renderRow (format : Format) (ts : List (Table Float)) :
    Session Float → Except Failure String × Session Float :=
  match format with
  | .latex => renderFloatRow ts
  | .odt => fun s => renderAllOdt s ts

theorem renderRow_latex (ts : List (Table Float)) :
    renderRow .latex ts =
      inTurn (inRow renderLatex List.cons [] ts) fun tables s =>
        (.ok (LatexTable.floatRow tables), s) :=
  renderFloatRow_eq ts

theorem renderRow_odt (ts : List (Table Float)) :
    renderRow .odt ts = inRow renderOdt (· ++ ·) "" ts :=
  funext (renderAllOdt_eq ts)

theorem renderBlock_table (format : Format) (t : Table Float)
    (s : Session Float) :
    renderBlock format (.table t) s =
      (some (renderTable format t s).1, (renderTable format t s).2) := by
  cases format with
  | latex =>
      rw [renderBlock, renderTable, inTurn]
      generalize renderLatex t s = rendered
      obtain ⟨answer, s'⟩ := rendered
      cases answer <;> rfl
  | odt => rfl

theorem renderBlock_floatRow (format : Format) (ts : List (Table Float))
    (s : Session Float) :
    renderBlock format (.floatRow ts) s =
      (some (renderRow format ts s).1, (renderRow format ts s).2) := by
  cases format <;> rfl

/-- A strict document ends with the first block that fails. -/
theorem renderBlocks_stops {format : Format} {block : Block Float}
    {rest : List (Block Float)} {s s' : Session Float} {e : Failure}
    (h : renderBlock format block s = (some (.error e), s'))
    (strict : s'.options.lenient = false) :
    renderBlocks format s (block :: rest) = .error e := by
  rw [renderBlocks, h]
  cases e with
  | overflow => rfl
  | refused e =>
      simp only [strict]
      rfl

/-- The document that rendered blocks make. -/
def Parts.document (format : Format) (p : Parts) : Rendered where
  output := assemble format p
  warnings := p.session.warnings
  failures := p.failures

theorem renderDocument_eq (markup : String) (format : Format)
    (o : Options Float) :
    renderDocument markup format o =
      o.validate.mapError .refused >>= fun _ =>
        (Markup.parseDocument markup).mapError .refused >>= fun blocks =>
          (renderBlocks format { options := o } blocks).map
            (Parts.document format) := by
  rw [renderDocument]
  refine bind_congr fun _ => bind_congr fun blocks => ?_
  cases renderBlocks format { options := o } blocks <;> rfl

/-- A document is rendered in a fresh session from the blocks that its text
gives, unless the options or the text are refused. -/
theorem renderDocument_cases (markup : String) (o : Options Float) :
    (∃ e, ∀ format, renderDocument markup format o = .error (.refused e)) ∨
      ∃ blocks, Markup.parseDocument markup = .ok blocks ∧
        ∀ format, renderDocument markup format o =
          (renderBlocks format { options := o } blocks).map
            (Parts.document format) := by
  simp only [renderDocument_eq]
  cases o.validate with
  | error e => exact .inl ⟨e, fun _ => rfl⟩
  | ok _ =>
      cases Markup.parseDocument (α := Float) markup with
      | error e => exact .inl ⟨e, fun _ => rfl⟩
      | ok blocks => exact .inr ⟨blocks, rfl, fun _ => rfl⟩

end Tabulation
