import Mathlib
import Tabulation.Proofs.Latex.Text
import Tabulation.Proofs.Reference.Spelling
import Tabulation.Proofs.Session.Attempt

/-!
# References lead to their notes

Three parts of a render name a note: its table registers it, the list of notes
gives it a label, and the references in cells, in the caption and in definitions
of notes lead to it. Each of them has a label of its own to start from, and what
it comes to is the same if the labels differ in nothing but the blanks around
them. The registry keeps what it has once got, so a reference leads to its note
whatever is compiled behind it.
-/

namespace Tabulation

namespace Latex

/-! ## Texts with links -/

/-- What a text says about a note. -/
inductive Link where
  | reference (label : String)
  | anchor (label : String)

def Link.latex (target : String → String) : Link → String
  | .reference label => "\\tnotex" ++ braced (target label)
  | .anchor label => labelLatex (target label)

/-- A text that is put together from links, in their order, and from what stands
between them. -/
inductive Linked (target : String → String) : List Link → String → Prop where
  | text (s : String) : Linked target [] s
  | link (l : Link) : Linked target [l] (l.latex target)
  | append {ls ms : List Link} {s t : String} (hs : Linked target ls s)
      (ht : Linked target ms t) : Linked target (ls ++ ms) (s ++ t)

/-- Texts in a row, the links of each behind those of the texts in front. -/
inductive LinkedAll (target : String → String) :
    List Link → List String → Prop where
  | nil : LinkedAll target [] []
  | cons {ls ms : List Link} {s : String} {ss : List String}
      (hs : Linked target ls s) (hss : LinkedAll target ms ss) :
      LinkedAll target (ls ++ ms) (s :: ss)

section

variable {target : String → String} {ls ms : List Link} {s : String}
  {ss ss' : List String}

theorem Linked.before (h : Linked target ls s) (front : String) :
    Linked target ls (front ++ s) := (Linked.text front).append h

theorem Linked.behind (h : Linked target ls s) (back : String) :
    Linked target ls (s ++ back) := by
  have happend := h.append (.text back)
  rwa [List.append_nil] at happend

theorem Linked.braced (h : Linked target ls s) :
    Linked target ls (braced s) := (h.before "\x7b").behind "\x7d"

theorem LinkedAll.append (h : LinkedAll target ls ss)
    (h' : LinkedAll target ms ss') :
    LinkedAll target (ls ++ ms) (ss ++ ss') := by
  induction h with
  | nil => exact h'
  | cons hs _ ih =>
      rw [List.append_assoc]
      exact .cons hs ih

theorem LinkedAll.singleton (h : Linked target ls s) :
    LinkedAll target ls [s] := by
  have hcons := LinkedAll.cons h .nil
  rwa [List.append_nil] at hcons

theorem LinkedAll.replicate (n : Nat) :
    LinkedAll target [] (List.replicate n "") := by
  induction n with
  | zero => exact .nil
  | succ n ih => exact .cons (.text "") ih

theorem LinkedAll.flatMap {β : Type} {links : β → List Link}
    {texts : β → List String} {xs : List β}
    (h : ∀ x ∈ xs, LinkedAll target (links x) (texts x)) :
    LinkedAll target (xs.flatMap links) (xs.flatMap texts) := by
  induction xs with
  | nil => exact .nil
  | cons x xs ih =>
      obtain ⟨hx, hxs⟩ := List.forall_mem_cons.mp h
      exact hx.append (ih hxs)

theorem LinkedAll.join (h : LinkedAll target ls ss) :
    Linked target ls (String.join ss) := by
  induction h with
  | nil => exact .text ""
  | cons hs _ ih =>
      rw [String.join_cons]
      exact hs.append ih

theorem LinkedAll.intercalate (h : LinkedAll target ls ss) (mark : String) :
    Linked target ls (mark.intercalate ss) := by
  induction h with
  | nil => exact .text ""
  | @cons _ _ s ss hs hss ih =>
      cases ss with
      | nil =>
          cases hss
          rw [List.append_nil]
          exact hs
      | cons s' ss =>
          rw [String.intercalate_cons_cons]
          exact (hs.behind mark).append ih

end

end Latex

open Latex Text

/-! ## Links of a table -/

namespace Inline

mutual

/-- The references in a piece of content. -/
def references : Inline → List Link
  | .word _ => []
  | .space => []
  | .strong inner => allReferences inner
  | .raw _ _ => []
  | .note label => [.reference label]

def allReferences : List Inline → List Link
  | [] => []
  | x :: xs => x.references ++ allReferences xs

end

mutual

theorem latex_linked (target : String → String) :
    ∀ x : Inline, Linked target x.references (x.latex target)
  | .word text => .text (escape text)
  | .space => .text " "
  | .strong inner => (allLatex_linked target inner).braced.before "\\textbf"
  | .raw _ _ => .text _
  | .note label => .link (.reference label)

theorem allLatex_linked (target : String → String) :
    ∀ xs : List Inline,
      Linked target (allReferences xs) (latexInlines target xs)
  | [] => .text ""
  | x :: xs => (latex_linked target x).append (allLatex_linked target xs)

end

end Inline

section Render

variable {α : Type}

namespace Layout

section

variable (target : String → String)

theorem cellLatex_linked (cell : PlacedCell α) :
    Linked target (Inline.allReferences cell.content)
      (cellLatex target cell) := by
  have hcontent := Inline.allLatex_linked target cell.content
  rw [cellLatex]
  split
  · exact (hcontent.before _).braced.before _
  · exact hcontent.before _

variable [Scalar α]

theorem cellEntries_linked (extra : String) (cell : PlacedCell α) :
    LinkedAll target (Inline.allReferences cell.content)
      (cellEntries target extra cell) := by
  have hcontent := (cellLatex_linked target cell).behind extra
  rw [cellEntries]
  refine (LinkedAll.replicate cell.indent).append (.singleton ?_)
  split
  · exact hcontent.braced.before _
  · exact hcontent

theorem rowLatex_linked (row : PlacedRow α) :
    Linked target (row.cells.flatMap fun cell =>
      Inline.allReferences cell.content) (rowLatex target row) := by
  rw [rowLatex, rowEntries]
  refine ((LinkedAll.intercalate ?_ " & ").behind _).behind _
  cases row.cells with
  | nil => exact .nil
  | cons cell cells =>
      exact (cellEntries_linked target _ cell).append
        (.flatMap fun cell _ => cellEntries_linked target "" cell)

end

section

variable (layout : Layout α) (style : NoteSymbols)

theorem captionLatex_linked :
    Linked (layout.noteLabel style) (Inline.allReferences layout.caption)
      (layout.captionLatex style) := by
  rw [captionLatex]
  refine Linked.behind ?_ _
  cases hcaption : layout.caption with
  | nil => exact .text ""
  | cons x xs =>
      exact (Inline.allLatex_linked _ (x :: xs)).braced.before _

theorem noteLatex_linked (note : Note) :
    Linked (layout.noteLabel style)
      (.anchor note.label :: Inline.allReferences note.definition)
      (layout.noteLatex style note) := by
  have hanchor : Linked (layout.noteLabel style) [.anchor note.label]
      ("\\item[" ++ noteTerm style note.label ++ "] " ++
        labelLatex (layout.noteLabel style note.label)) :=
    (Linked.link (.anchor note.label)).before _
  exact ((hanchor.behind " ").append (Inline.allLatex_linked _ _)).behind "\n"

theorem notesLatex_linked :
    Linked (layout.noteLabel style)
      (layout.notes.flatMap fun note =>
        .anchor note.label :: Inline.allReferences note.definition)
      (layout.notesLatex style) := by
  have hnotes : LinkedAll (layout.noteLabel style)
      (layout.notes.flatMap fun note =>
        .anchor note.label :: Inline.allReferences note.definition)
      (layout.notes.map (layout.noteLatex style)) := by
    rw [List.map_eq_flatMap]
    exact .flatMap fun note _ => .singleton (layout.noteLatex_linked style note)
  unfold notesLatex
  exact (hnotes.join.before _).behind _

end

end Layout

/-- A table in LaTeX that has the links of a layout, each in its place: those of
the cells of a row in that row, and in the list of notes the anchor of each note
in front of the references in its definition. -/
structure LatexTable.LinkedFrom (table : LatexTable) (layout : Layout α)
    (target : String → String) : Prop where
  rows : List.Forall₂ (fun row => Linked target
    (row.cells.flatMap fun cell => Inline.allReferences cell.content))
      layout.rows table.rows
  caption : Linked target (Inline.allReferences layout.caption) table.caption
  notes : Linked target
    (layout.notes.flatMap fun note =>
      .anchor note.label :: Inline.allReferences note.definition) table.notes

theorem Layout.latex_linkedFrom [Scalar α] (layout : Layout α)
    (style : NoteSymbols) :
    (layout.latex style).LinkedFrom layout (layout.noteLabel style) where
  rows := by
    rw [latex, List.forall₂_map_right_iff]
    exact List.forall₂_same.mpr fun row _ => rowLatex_linked _ row
  caption := layout.captionLatex_linked style
  notes := by
    have hnotes := layout.notesLatex_linked style
    rw [latex]
    cases hempty : layout.notes with
    | nil => exact .text ""
    | cons note notes =>
        rw [hempty] at hnotes
        exact hnotes

/-! ## The registry -/

/-- A session that is reached by compiling tables, with anything in between that
leaves the labels alone. -/
inductive Session.Later [Scalar α] (s : Session α) : Session α → Prop where
  | now : Later s s
  | compile {s' : Session α} (h : Later s s') (t : Table α) :
      Later s (compile t s').2
  | between {s' s'' : Session α} (h : Later s s')
      (hlabels : s''.labels = s'.labels) : Later s s''

/-- A table enters the session whatever comes of it, and its notes do if it is
laid out. -/
theorem Session.Enters.of_compile [Scalar α] (t : Table α) (s : Session α) :
    let name := t.nameFor s.nextTableNumber.1
    ∃ notes, s.Enters name notes (compile t s).2 ∧
      ∀ layout s', compile t s = (.ok layout, s') →
        notes = t.noteLinks s.options.noteSymbols name := by
  intro name
  rcases compile_cases t s with ⟨e, ws, h⟩ | ⟨layout, ws, h⟩
  · rw [h]
    exact ⟨[], .of_labels rfl List.not_mem_nil ws, nofun⟩
  · rw [h, registerNotes_eq, enterTable_notePrefix]
    exact ⟨_, .of_labels rfl (t.name_not_mem_noteLinks _ name) ws,
      fun _ _ _ => rfl⟩

/-- Labels may come to lead elsewhere, but neither they nor targets are lost. -/
theorem Session.Later.keeps [Scalar α] {s s' : Session α} (h : s.Later s')
    (name : String) :
    (s.labels.hasLabel name → s'.labels.hasLabel name) ∧
      (s.labels.hasTarget name → s'.labels.hasTarget name) := by
  induction h with
  | now => exact ⟨id, id⟩
  | @compile s' _ t ih =>
      obtain ⟨notes, henters, _⟩ := Session.Enters.of_compile t s'
      refine ⟨fun hlabel => henters.kept name (ih.1 hlabel), fun htarget => ?_⟩
      exact (henters.targets name).mpr (.inr (.inr (.inr (ih.2 htarget))))
  | between _ hlabels ih =>
      rw [hlabels]
      exact ih

variable [Scalar α] {t : Table α} {s s' : Session α} {layout : Layout α}

theorem compile_noteLabel (h : compile t s = (.ok layout, s')) {note : Note}
    (hnote : note ∈ t.notes) :
    let target := layout.noteLabel s.options.noteSymbols note.label
    s'.labels.hasLabel target ∧ s'.labels.hasTarget target := by
  intro target
  obtain ⟨notes, henters, hnotes⟩ := Session.Enters.of_compile t s
  rw [h] at henters
  have htarget : target ∈ notes := by
    obtain ⟨c, rfl, _⟩ := compile_eq_ok_iff.mp h
    rw [hnotes _ _ h, Table.noteLinks, ← enterTable_notePrefix]
    exact List.mem_map_of_mem hnote
  refine ⟨?_, (henters.targets target).mpr (.inl htarget)⟩
  rw [Labels.hasLabel, henters.note target htarget]
  rfl

/-- A table that is laid out is written with a link for each reference and each
note in it. Their targets have nothing but letters, digits and hyphens behind
what the notes of the table have in common. A reference whose label is that of a
note, but for blanks around them, has the target of the note, and the registry
knows it from then on. -/
theorem renderLatex_links (h : compile t s = (.ok layout, s')) :
    let target := layout.noteLabel s.options.noteSymbols
    ∃ table, renderLatex t s = (.ok table, s') ∧
      table.LinkedFrom layout target ∧
      layout.caption = t.caption ∧ layout.notes = t.notes ∧
      (∀ label, ∃ name, target label = layout.notePrefix ++ ":" ++ name ∧
        ∀ c ∈ name.toList, isAlphanumeric c = true ∨ c = '-') ∧
      ∀ note ∈ t.notes, ∀ ref, trim ref = trim note.label →
        target ref = target note.label ∧
          ∀ later, s'.Later later →
            later.labels.hasLabel (target ref) ∧
              later.labels.hasTarget (target ref) := by
  intro target
  have hsame : layout.caption = t.caption ∧ layout.notes = t.notes := by
    obtain ⟨c, rfl, _⟩ := compile_eq_ok_iff.mp h
    exact ⟨rfl, rfl⟩
  refine ⟨_, renderLatex_of_compile h, layout.latex_linkedFrom _, hsame.1,
    hsame.2, fun label => ?_, fun note hnote ref htrim => ?_⟩
  · exact ⟨_, rfl, noteTarget_plain_or_hyphen _ label⟩
  · have htarget : target ref = target note.label :=
      congrArg (layout.notePrefix ++ ":" ++ ·) (noteTarget_congr _ htrim)
    obtain ⟨hlabel, hheld⟩ := compile_noteLabel h hnote
    rw [htarget]
    exact ⟨rfl, fun later hlater =>
      ⟨(hlater.keeps _).1 hlabel, (hlater.keeps _).2 hheld⟩⟩

end Render

/-- A reference to the note with the second symbol, with a blank too many. -/
def linkedTable : Table Float where
  rows := [Row.spanned [.cell { content := [.word "a", .note "*2 "] }]]
  attributes := Attributes.default
  notes := [⟨"*2", [.word "b"]⟩]

theorem renderLatex_linkedTable :
    ∃ (layout : Layout Float) (s' : Session Float) (table : LatexTable),
      compile linkedTable { options := Options.default } =
          (.ok layout, s') ∧
        renderLatex linkedTable { options := Options.default } =
          (.ok table, s') ∧
        table.LinkedFrom layout (layout.noteLabel .lion) ∧
        layout.noteLabel .lion "*2 " = layout.noteLabel .lion "*2" ∧
        s'.labels.hasLabel (layout.noteLabel .lion "*2 ") := by
  have h : ∃ layout s', compile linkedTable { options := Options.default } =
      (.ok layout, s') := ⟨_, _, rfl⟩
  obtain ⟨layout, s', h⟩ := h
  obtain ⟨table, hrender, hlinked, _, _, _, hnotes⟩ := renderLatex_links h
  obtain ⟨htarget, hlater⟩ := hnotes ⟨"*2", [.word "b"]⟩
    List.mem_cons_self "*2 " (by decide)
  exact ⟨layout, s', table, h, hrender, hlinked, htarget,
    (hlater s' .now).1⟩

end Tabulation
