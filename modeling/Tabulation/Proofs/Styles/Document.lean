import Mathlib
import Tabulation.Proofs.Isolation.Session
import Tabulation.Proofs.Styles.Session
import Tabulation.Proofs.Styles.Table

/-!
# The styles of a document

The styles of all tables end up in one list at the head of the document, where
a name must not come twice. The session keeps them as text, so the invariant
`Styled` says which layouts this text was written for, and that their numbers
are among those that the session has handed out. No number is handed out twice,
and tables with different numbers have no style name in common.

A failed table is counted and leaves no style. A float row that fails leaves
the styles of its tables in front of the failure behind, without their bodies;
these styles are nobody's, but their names are taken like all others.
-/

namespace Tabulation

open Session Markup

namespace Odt

def bodyText (symbols : NoteSymbols) (layout : Layout Float) : String :=
  Xml.renderNodes (body symbols layout)

def stylesText (layout : Layout Float) : String :=
  Xml.renderNodes (styles layout)

/-- What a block leaves in a document: the tables of it that were laid out, and
how it failed if it did. -/
structure Written where
  layouts : List (Layout Float)
  failure : Option Error := none

/-- The bodies of the tables, or a mark in their place. -/
def Written.part (symbols : NoteSymbols) (w : Written) : String :=
  match w.failure with
  | none => String.join (w.layouts.map (bodyText symbols))
  | some e => failureMark .odt e

/-- A session in which some tables have been laid out and their styles kept. -/
structure Styled (o : Options Float) (s : Session Float)
    (layouts : List (Layout Float)) : Prop where
  options : s.options = o
  styles : s.styles = layouts.map stylesText
  refers : ∀ layout ∈ layouts, Refers o.noteSymbols layout
  ownNames : ∀ layout ∈ layouts, (styleNames layout).Nodup
  /-- Tables that failed have numbers too. -/
  numbered : ∃ earlier : List (List Nat),
    Counters.Numbering o.numberWithin s.counters earlier ∧
      (layouts.map Layout.number).Sublist (earlier.map dotted)

theorem tableNames_nodup {within : Nat} {cs : Counters}
    {earlier : List (List Nat)} (h : Counters.Numbering within cs earlier) :
    ((earlier.map dotted).map tableName).Nodup := by
  have hne : ∀ number ∈ earlier, number ≠ [] := by
    intro number hnumber
    obtain ⟨scope, k, rfl, _⟩ := h.numbered number hnumber
    simp
  have hnodup : earlier.Nodup := h.increasing.imp fun hlt => hlt.ne
  rw [List.map_map]
  exact hnodup.map_on fun m hm n hn =>
    tableName_dotted_inj (hne m hm) (hne n hn)

namespace Styled

variable {o : Options Float} {s s' : Session Float}
  {layouts : List (Layout Float)}

theorem start (o : Options Float) : Styled o { options := o } [] where
  options := rfl
  styles := rfl
  refers := fun _ h => nomatch h
  ownNames := fun _ h => nomatch h
  numbered := ⟨[], .start o.numberWithin, .slnil⟩

theorem enterHeading (h : Styled o s layouts) (level : Nat) :
    Styled o (s.enterHeading level) layouts where
  options := h.options
  styles := h.styles
  refers := h.refers
  ownNames := h.ownNames
  numbered := by
    obtain ⟨earlier, hnumbering, hsub⟩ := h.numbered
    exact ⟨earlier, hnumbering.enterHeading level, hsub⟩

theorem warn (h : Styled o s layouts) (ws : List Warning) :
    Styled o (s.warn ws) layouts :=
  ⟨h.options, h.styles, h.refers, h.ownNames, h.numbered⟩

/-- A table that fails takes a number and leaves nothing else. -/
theorem fails {t : Table Float} {e : Failure} (h : Styled o s layouts)
    (hfails : compile t s = (.error e, s')) : Styled o s' layouts := by
  have hcounts := compile_counts t s
  have hstyles := compile_styles t s
  rw [hfails] at hcounts hstyles
  refine ⟨hcounts.options.symm.trans h.options, hstyles.trans h.styles,
    h.refers, h.ownNames, ?_⟩
  obtain ⟨earlier, hnumbering, hsub⟩ := h.numbered
  have hcounters : (s.counters.nextTable s.options.numberWithin).2 =
    s'.counters := hcounts.counters
  rw [← hcounters, h.options]
  refine ⟨_, hnumbering.table, hsub.trans ?_⟩
  rw [List.map_append]
  exact List.sublist_append_left _ _

theorem compiles {t : Table Float} {layout : Layout Float}
    (h : Styled o s layouts) (hcompiles : compile t s = (.ok layout, s')) :
    Styled o (s'.addStyle (stylesText layout)) (layouts ++ [layout]) := by
  have hcounts := compile_counts t s
  have hstyles := compile_styles t s
  rw [hcompiles] at hcounts hstyles
  obtain ⟨c, rfl, _⟩ := compile_eq_ok_iff.mp hcompiles
  refine ⟨hcounts.options.symm.trans h.options, ?_, ?_, ?_, ?_⟩
  · rw [addStyle, hstyles, h.styles, List.map_append]
    rfl
  · intro layout hlayout
    rcases List.mem_append.mp hlayout with hlayout | hlayout
    · exact h.refers layout hlayout
    · rw [List.mem_singleton.mp hlayout]
      exact c.refers o.noteSymbols
  · intro layout hlayout
    rcases List.mem_append.mp hlayout with hlayout | hlayout
    · exact h.ownNames layout hlayout
    · rw [List.mem_singleton.mp hlayout]
      exact styleNames_nodup c.pairwise_column
  · obtain ⟨earlier, hnumbering, hsub⟩ := h.numbered
    have hcounters : (s.counters.nextTable s.options.numberWithin).2 =
      s'.counters := hcounts.counters
    rw [addStyle, ← hcounters, h.options]
    refine ⟨_, hnumbering.table, ?_⟩
    rw [List.map_append, List.map_append, ← h.options]
    exact hsub.append (List.Sublist.refl _)

/-- Laid out in one session, tables have no style name in common. -/
theorem names_nodup (h : Styled o s layouts) :
    (layouts.flatMap styleNames).Nodup := by
  obtain ⟨earlier, hnumbering, hsub⟩ := h.numbered
  have htables := (hsub.map tableName).nodup (tableNames_nodup hnumbering)
  rw [List.map_map, List.Nodup, List.pairwise_map] at htables
  rw [List.nodup_flatMap]
  exact ⟨h.ownNames, htables.imp fun hne => styleNames_disjoint hne⟩

end Styled

/-! ## Renders -/

/-- A render that keeps the styles of each table that it lays out and gives
their bodies. -/
def Lays (o : Options Float)
    (run : Session Float → Except Failure String × Session Float) : Prop :=
  ∀ (s : Session Float) (layouts : List (Layout Float)), Styled o s layouts →
    ∃ more, Styled o (run s).2 (layouts ++ more) ∧ ∀ part,
      (run s).1 = .ok part →
        part = String.join (more.map (bodyText o.noteSymbols))

theorem renderOdt_lays (o : Options Float) (t : Table Float) :
    Lays o (renderOdt t) := by
  intro s layouts h
  rw [renderOdt_eq, inTurn]
  split
  · next e s' hfails =>
      refine ⟨[], ?_, fun _ hpart => by cases hpart⟩
      rw [List.append_nil]
      exact h.fails hfails
  · next layout s' hcompiles =>
      have hstyled := h.compiles hcompiles
      refine ⟨[layout], hstyled, fun part hpart => ?_⟩
      have hoptions : s'.options = o := hstyled.options
      rw [← Except.ok.inj hpart, hoptions]
      simp [bodyText]

theorem renderRow_lays (o : Options Float) (ts : List (Table Float)) :
    Lays o (renderRow .odt ts) := by
  rw [renderRow_odt]
  induction ts with
  | nil =>
      intro s layouts h
      refine ⟨[], by rwa [List.append_nil], fun part hpart => ?_⟩
      exact (Except.ok.inj hpart).symm
  | cons t ts ih =>
      intro s layouts h
      obtain ⟨first, hfirst, hbody⟩ := renderOdt_lays o t s layouts h
      rw [inRow, inTurn]
      generalize renderOdt t s = ended at hfirst hbody ⊢
      obtain ⟨answer, s'⟩ := ended
      cases answer with
      | error e => exact ⟨first, hfirst, fun _ hpart => by cases hpart⟩
      | ok table =>
          obtain ⟨more, hmore, hbodies⟩ := ih s' _ hfirst
          rw [List.append_assoc] at hmore
          simp only [inTurn]
          generalize inRow renderOdt _ _ ts s' = ended at hmore hbodies ⊢
          obtain ⟨answer, s''⟩ := ended
          cases answer with
          | error e =>
              -- The tables in front of the failure have left their styles.
              exact ⟨first ++ more, hmore, fun _ hpart => by cases hpart⟩
          | ok tables =>
              refine ⟨first ++ more, hmore, fun part hpart => ?_⟩
              rw [← Except.ok.inj hpart, hbody table rfl, hbodies tables rfl,
                List.map_append, String.join_append]

/-- A block is a heading, or it renders to one part. -/
theorem renderBlock_lays (o : Options Float) (block : Block Float) :
    (∃ level, block = .heading level) ∨
      ∃ run, Lays o run ∧
        ∀ s, renderBlock .odt block s = (some (run s).1, (run s).2) := by
  cases block with
  | heading level => exact .inl ⟨level, rfl⟩
  | table t =>
      exact .inr ⟨_, renderOdt_lays o t, renderBlock_table .odt t⟩
  | floatRow ts =>
      exact .inr ⟨_, renderRow_lays o ts, renderBlock_floatRow .odt ts⟩

theorem Styled.renderBlocks {o : Options Float} {blocks : List (Block Float)}
    {s : Session Float} {layouts : List (Layout Float)} {p : Parts}
    (h : Styled o s layouts) (hp : renderBlocks .odt s blocks = .ok p) :
    ∃ written : List Written,
      p.parts = written.map (Written.part o.noteSymbols) ∧
        Styled o p.session (layouts ++ written.flatMap Written.layouts) := by
  induction blocks generalizing s layouts p with
  | nil =>
      cases hp
      exact ⟨[], rfl, by rwa [List.flatMap_nil, List.append_nil]⟩
  | cons block rest ih =>
      rw [Tabulation.renderBlocks] at hp
      obtain ⟨level, rfl⟩ | ⟨run, hlays, hrun⟩ := renderBlock_lays o block
      · exact ih (h.enterHeading level) hp
      · obtain ⟨more, hmore, hbodies⟩ := hlays s layouts h
        rw [hrun] at hp
        generalize run s = ended at hp hmore hbodies
        obtain ⟨answer, s'⟩ := ended
        cases answer with
        | ok part =>
            obtain ⟨q, hq, rfl⟩ := Except.map_eq_ok.mp hp
            obtain ⟨written, hparts, hstyled⟩ := ih hmore hq
            refine ⟨⟨more, none⟩ :: written, ?_, ?_⟩
            · rw [List.map_cons, ← hparts, Written.part, hbodies part rfl]
            · rwa [List.flatMap_cons, ← List.append_assoc]
        | error e =>
            cases e with
            | overflow => cases hp
            | refused e =>
                simp only [] at hp
                split at hp
                · obtain ⟨q, hq, rfl⟩ := Except.map_eq_ok.mp hp
                  obtain ⟨written, hparts, hstyled⟩ :=
                    ih (hmore.warn [failureWarning e]) hq
                  refine ⟨⟨more, some e⟩ :: written, ?_, ?_⟩
                  · rw [List.map_cons, ← hparts, Written.part]
                  · rwa [List.flatMap_cons, ← List.append_assoc]
                · cases hp

end Odt

open Odt

/-- The styles that a document collects are those of the tables laid out in it,
no two of them have the same name, and each column and each cell in the body of
a table refers to one that is written for this table, and to no other. -/
theorem renderBlocks_styles {o : Options Float} {blocks : List (Block Float)}
    {p : Parts} (h : renderBlocks .odt { options := o } blocks = .ok p) :
    ∃ written : List Written,
      let layouts := written.flatMap Written.layouts
      p.parts = written.map (Written.part o.noteSymbols) ∧
        p.session.styles = layouts.map stylesText ∧
        (layouts.flatMap styleNames).Nodup ∧
        ∀ layout ∈ layouts, Refers o.noteSymbols layout ∧
          ∀ name ∈ styleNames layout,
            (layouts.flatMap styleNames).count name = 1 := by
  obtain ⟨written, hparts, hstyled⟩ := (Styled.start o).renderBlocks h
  rw [List.nil_append] at hstyled
  refine ⟨written, hparts, hstyled.styles, hstyled.names_nodup, ?_⟩
  intro layout hlayout
  refine ⟨hstyled.refers layout hlayout, fun name hname => ?_⟩
  exact List.count_eq_one_of_mem hstyled.names_nodup
    (List.mem_flatMap.mpr ⟨layout, hlayout, hname⟩)

/-- A table of two columns, which its one cell spans. -/
def spannedTable : Table Float where
  rows := [Row.spanned [.cell { content := [.word "a"], span := 2 }]]
  attributes := Attributes.default

/-- A table below a heading, and a row of two of which the second has no rows
and fails. -/
def spannedBlocks : List (Block Float) :=
  [.heading 1, .table spannedTable,
    .floatRow [spannedTable, { spannedTable with rows := [] }]]

theorem renderBlocks_spannedBlocks : ∃ p,
    let o : Options Float := Options.default
    renderBlocks .odt { options := o } spannedBlocks = .ok p ∧
      ∃ written : List Written,
        let layouts := written.flatMap Written.layouts
        p.parts = written.map (Written.part o.noteSymbols) ∧
          layouts.length = 2 ∧ (layouts.flatMap styleNames).Nodup := by
  have hstyles : (renderBlocks .odt { options := Options.default }
      spannedBlocks).toOption.map (·.session.styles.length) = some 2 := by
    decide +kernel
  generalize hrun : renderBlocks .odt { options := Options.default }
    spannedBlocks = run at hstyles
  cases run with
  | error e => cases hstyles
  | ok p =>
      obtain ⟨written, hparts, hnames, hnodup, _⟩ := renderBlocks_styles hrun
      have hlength : p.session.styles.length = 2 := Option.some.inj hstyles
      rw [hnames, List.length_map] at hlength
      exact ⟨p, hrun, written, hparts, hlength, hnodup⟩

end Tabulation
