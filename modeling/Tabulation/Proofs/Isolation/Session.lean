import Tabulation.Proofs.Leniency.Session
import Tabulation.Proofs.Numbering.Tables

/-!
# What tables see of each other

The tables of a document share one session, but a render reads little of it:
the options, which never change, and the counters, which give the table its
number. Labels, styles and warnings are only added to. So two sessions are
`Alike` if they agree on options and counters, and `Secluded` renders give the
same in sessions that are alike and leave sessions that are alike.

What makes tables independent is that a table counts first and is checked
later: whatever comes of it, the counters behind it are those in front of it
and one table further. A float row counts the tables it gets to, which are all
of them or those up to the first that fails.
-/

namespace Tabulation

variable {α β γ : Type}

namespace Session

/-- Sessions in which a table renders to the same. -/
structure Alike (s s' : Session α) : Prop where
  options : s.options = s'.options
  counters : s.counters = s'.counters

theorem Alike.refl (s : Session α) : s.Alike s :=
  ⟨rfl, rfl⟩

theorem Alike.symm {s s' : Session α} (h : s.Alike s') : s'.Alike s :=
  ⟨h.options.symm, h.counters.symm⟩

theorem Alike.trans {s s' s'' : Session α} (h : s.Alike s')
    (h' : s'.Alike s'') : s.Alike s'' :=
  ⟨h.options.trans h'.options, h.counters.trans h'.counters⟩

theorem Alike.enterHeading {s s' : Session α} (h : s.Alike s')
    (level : Nat) : (s.enterHeading level).Alike (s'.enterHeading level) :=
  ⟨h.options, congrArg (·.enterHeading level) h.counters⟩

/-- The session with some tables counted, and nothing else done. -/
def countTables (s : Session α) (k : Nat) : Session α :=
  { s with counters :=
      s.counters.after s.options.numberWithin (List.replicate k .table) }

theorem Alike.countTables {s s' : Session α} (h : s.Alike s') (k : Nat) :
    (s.countTables k).Alike (s'.countTables k) := by
  refine ⟨h.options, ?_⟩
  rw [Session.countTables, Session.countTables, h.options, h.counters]

theorem countTables_add (s : Session α) (j k : Nat) :
    (s.countTables j).countTables k = s.countTables (j + k) := by
  rw [countTables, countTables, countTables, List.replicate_add]
  simp only [Counters.after, List.foldl_append]

/-- More tables counted behind some that are. -/
theorem Alike.count {s s' s'' : Session α} {j k : Nat}
    (h : (s.countTables j).Alike s') (h' : (s'.countTables k).Alike s'') :
    (s.countTables (j + k)).Alike s'' := by
  rw [← countTables_add]
  exact (h.countTables k).trans h'

end Session

open Session

/-- A render that reads only what sessions that are alike have in common. -/
structure Secluded (run : Session α → Except Failure β × Session α) :
    Prop where
  answer : ∀ {s s' : Session α}, s.Alike s' → (run s).1 = (run s').1
  behind : ∀ {s s' : Session α}, s.Alike s' → (run s).2.Alike (run s').2

namespace Secluded

variable {run : Session α → Except Failure β × Session α}

/-- A step that cannot fail, does not count and reads only the options. -/
theorem of_total {f : Options α → β} {g : Session α → Session α}
    (keeps : ∀ s : Session α, s.Alike (g s)) :
    Secluded fun s => (.ok (f s.options), g s) where
  answer h := congrArg (fun o => Except.ok (f o)) h.options
  behind h := (keeps _).symm.trans (h.trans (keeps _))

theorem pure (b : β) : Secluded fun s : Session α => (.ok b, s) :=
  .of_total (f := fun _ => b) .refl

theorem inTurn {next : β → Session α → Except Failure γ × Session α}
    (h : Secluded run) (hnext : ∀ b, Secluded (next b)) :
    Secluded (inTurn run next) := by
  have both : ∀ {s s' : Session α}, s.Alike s' →
      (Tabulation.inTurn run next s).1 = (Tabulation.inTurn run next s').1 ∧
        (Tabulation.inTurn run next s).2.Alike
          (Tabulation.inTurn run next s').2 := by
    intro s s' hs
    have hanswer := h.answer hs
    have hbehind := h.behind hs
    rw [Tabulation.inTurn, Tabulation.inTurn]
    generalize run s = x at hanswer hbehind
    generalize run s' = y at hanswer hbehind
    obtain ⟨answer, u⟩ := x
    obtain ⟨answer', u'⟩ := y
    simp only [] at hanswer hbehind
    subst hanswer
    cases answer with
    | error e => exact ⟨rfl, hbehind⟩
    | ok b => exact ⟨(hnext b).answer hbehind, (hnext b).behind hbehind⟩
  exact ⟨fun hs => (both hs).1, fun hs => (both hs).2⟩

theorem inRow {run : Table α → Session α → Except Failure β × Session α}
    (h : ∀ t, Secluded (run t)) (join : β → γ → γ) (empty : γ)
    (ts : List (Table α)) : Secluded (inRow run join empty ts) := by
  induction ts with
  | nil => exact .pure empty
  | cons t ts ih =>
      exact (h t).inTurn fun first => ih.inTurn fun more =>
        .pure (join first more)

end Secluded

section Compile

variable [Scalar α]

omit [Scalar α] in
theorem registerNotes_alike (notePrefix : String) (notes : List Note)
    (s : Session α) : s.Alike (registerNotes notePrefix notes s) := by
  induction notes generalizing s with
  | nil => exact .refl s
  | cons note notes ih =>
      have hnote : s.Alike (s.registerNote notePrefix
          (noteTarget s.options.noteSymbols note.label)).2 := ⟨rfl, rfl⟩
      exact hnote.trans (ih _)

/-- A table is counted once, however its layout ends. -/
theorem compile_counts (t : Table α) (s : Session α) :
    (s.countTables 1).Alike (compile t s).2 := by
  have henter : (s.countTables 1).Alike
      (enterTable t.attributes.label s).2 := ⟨rfl, rfl⟩
  have hwarn : ∀ (u : Session α) ws, u.Alike (u.warn ws) :=
    fun _ _ => ⟨rfl, rfl⟩
  rcases compile_cases t s with ⟨e, ws, h⟩ | ⟨layout, ws, h⟩
  · rw [h]
    exact henter.trans (hwarn _ _)
  · rw [h]
    exact (henter.trans (hwarn _ _)).trans (registerNotes_alike _ _ _)

end Compile

end Tabulation
