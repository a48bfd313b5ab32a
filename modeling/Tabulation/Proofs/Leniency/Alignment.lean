import Tabulation.Proofs.Grammar.Faults
import Tabulation.Proofs.Layout.Columns
import Tabulation.Proofs.Leniency.Layout

/-!
# What a bad alignment costs

A lenient reading of an alignment replaces one column for one definition that
cannot be used, and all of them only for a text that is no list of definitions,
where there is nothing to go by. The one thing that stops it is a definition
with a fault that is not recoverable. A text that cannot be read never has such
a fault, so it is enough to follow the definitions one by one; what fits their
columns to the table then looks at each position by itself.
-/

namespace Tabulation.Column

variable {α : Type} [Scalar α]

namespace Definition

/-- A definition that not even a lenient reading goes on with. -/
def Fatal (d : Definition α) : Prop :=
  ∃ e, Specifier.ofDefinition d = .error e ∧ e.isRecoverable = false

/-- The column that a lenient reading makes of a definition. -/
def lenientColumn (d : Definition α) : Specifier α :=
  match Specifier.ofDefinition d with
  | .ok c => c
  | .error _ => .plainLeft

end Definition

/-- The definitions that a lenient reading goes by. -/
def lenientDefinitions (alignment : String) : List (Definition α) :=
  match parseDefinitions (expandNames alignment) with
  | .ok ds => ds
  | .error _ => []

theorem recoverEach_fatal {d : Definition α} (h : d.Fatal)
    (ds : List (Definition α)) : ∃ e, recoverEach true (d :: ds) = .error e := by
  obtain ⟨e, he, hfatal⟩ := h
  refine ⟨e, ?_⟩
  rw [recoverEach, he]
  simp only [hfatal, Bool.and_false, Bool.false_eq_true, if_false]

theorem recoverEach_usable {d : Definition α} (h : ¬ d.Fatal)
    (ds : List (Definition α)) :
    ∃ replaced, recoverEach true (d :: ds) =
      (recoverEach true ds).map fun p =>
        (d.lenientColumn :: p.1, replaced ++ p.2) := by
  rw [recoverEach, Definition.lenientColumn]
  cases hd : Specifier.ofDefinition d with
  | ok c => exact ⟨[], rfl⟩
  | error e =>
      have he : e.isRecoverable = true :=
        Bool.of_not_eq_false fun hfatal => h ⟨e, hd, hfatal⟩
      simp only [he, Bool.and_true, if_true]
      exact ⟨[_], rfl⟩

/-- Each definition has its own column, unless one of them is fatal. -/
theorem recoverEach_lenient (ds : List (Definition α)) :
    (∃ d ∈ ds, d.Fatal) ∧ (∃ e, recoverEach true ds = .error e) ∨
      (∀ d ∈ ds, ¬ d.Fatal) ∧ ∃ replaced, recoverEach true ds =
        .ok (ds.map Definition.lenientColumn, replaced) := by
  induction ds with
  | nil => exact .inr ⟨nofun, [], rfl⟩
  | cons d ds ih =>
      by_cases hd : d.Fatal
      · exact .inl ⟨⟨d, List.mem_cons_self, hd⟩, recoverEach_fatal hd ds⟩
      · obtain ⟨replaced, hstep⟩ := recoverEach_usable hd ds
        rw [hstep]
        rcases ih with ⟨⟨f, hf, hfatal⟩, e, he⟩ | ⟨hds, others, hothers⟩
        · rw [he]
          exact .inl ⟨⟨f, List.mem_cons_of_mem d hf, hfatal⟩, e, rfl⟩
        · rw [hothers]
          exact .inr ⟨List.forall_mem_cons.mpr ⟨hd, hds⟩,
            replaced ++ others, rfl⟩

omit [Scalar α] in
theorem getElem?_fitTo {count i : Nat} (h : i < count)
    (columns : List (Specifier α)) :
    (fitTo count columns)[i]? = some (columns[i]?.getD .plainLeft) := by
  rw [fitTo]
  by_cases hi : i < columns.length
  · rw [List.getElem?_append_left (by rw [List.length_take]; omega),
      List.getElem?_take_of_lt h, List.getElem?_eq_getElem hi]
    rfl
  · rw [List.getElem?_append_right (by rw [List.length_take]; omega),
      List.getElem?_replicate_of_lt (by rw [List.length_take]; omega),
      List.getElem?_eq_none (by omega)]
    rfl

theorem mem_lenientDefinitions {alignment : String} {d : Definition α} :
    d ∈ lenientDefinitions alignment ↔
      ∃ ds, parseDefinitions (expandNames alignment) = .ok ds ∧ d ∈ ds := by
  rw [lenientDefinitions]
  constructor
  · intro hd
    split at hd
    · next ds hds => exact ⟨ds, hds, hd⟩
    · cases hd
  · intro h
    obtain ⟨ds, hds, hd⟩ := h
    rw [hds]
    exact hd

theorem readAlignment_lenient (alignment : String) :
    ∃ unread, readAlignment (α := α) alignment true =
      .ok (lenientDefinitions alignment, unread) := by
  rw [readAlignment, lenientDefinitions]
  cases hparse : parseDefinitions (α := α) (expandNames alignment) with
  | ok ds => exact ⟨[], rfl⟩
  | error e =>
      simp only [parseDefinitions_recoverable hparse, Bool.and_true, if_true]
      exact ⟨[_], rfl⟩

/-- The columns of the definitions fitted to the table, unless one of them is
fatal. -/
theorem tableColumns_lenient {alignment : String} (count : Nat)
    (hblank : (Text.trim alignment).isEmpty = false) :
    (∃ d ∈ lenientDefinitions (α := α) alignment, d.Fatal) ∧
        (∃ e, tableColumns (α := α) alignment count true = .error e) ∨
      (∀ d ∈ lenientDefinitions (α := α) alignment, ¬ d.Fatal) ∧
        ∃ warnings, tableColumns (α := α) alignment count true =
          .ok (fitTo count ((lenientDefinitions alignment).map
            Definition.lenientColumn), warnings) := by
  obtain ⟨unread, hread⟩ := readAlignment_lenient (α := α) alignment
  rw [tableColumns]
  simp only [hblank, Bool.false_eq_true, if_false, hread]
  rcases recoverEach_lenient (lenientDefinitions (α := α) alignment) with
    ⟨hfatal, e, he⟩ | ⟨husable, replaced, hcolumns⟩
  · refine .inl ⟨hfatal, e, ?_⟩
    show (recoverEach true _ >>= _) = _
    rw [he]
    rfl
  · refine .inr ⟨husable, ?_⟩
    show ∃ warnings, (recoverEach true _ >>= _) = _
    rw [hcolumns]
    show ∃ warnings, ite _ _ _ = _
    split
    · exact ⟨_, rfl⟩
    · exact ⟨_, rfl⟩

/-- A text that cannot be read never makes a lenient resolution fail. -/
theorem tableColumns_error_iff {alignment : String} {count : Nat}
    (hblank : (Text.trim alignment).isEmpty = false) :
    (∃ e, tableColumns (α := α) alignment count true = .error e) ↔
      ∃ ds : List (Definition α),
        parseDefinitions (expandNames alignment) = .ok ds ∧
          ∃ d ∈ ds, d.Fatal := by
  have hlenient := tableColumns_lenient (α := α) count hblank
  constructor
  · intro herror
    obtain ⟨e, he⟩ := herror
    rcases hlenient with ⟨⟨d, hd, hfatal⟩, _⟩ | ⟨_, warnings, hok⟩
    · obtain ⟨ds, hds, hd⟩ := mem_lenientDefinitions.mp hd
      exact ⟨ds, hds, d, hd, hfatal⟩
    · rw [he] at hok
      cases hok
  · intro hdefined
    obtain ⟨ds, hds, d, hd, hfatal⟩ := hdefined
    rcases hlenient with ⟨_, herror⟩ | ⟨husable, _⟩
    · exact herror
    · exact absurd hfatal
        (husable d (mem_lenientDefinitions.mpr ⟨ds, hds, hd⟩))

theorem tableColumns_columns {alignment : String} {count : Nat}
    (hblank : (Text.trim alignment).isEmpty = false)
    {columns : List (Specifier α)} {warnings : List Warning}
    (h : tableColumns alignment count true = .ok (columns, warnings)) :
    columns = fitTo count
      ((lenientDefinitions alignment).map Definition.lenientColumn) := by
  rcases tableColumns_lenient (α := α) count hblank with
    ⟨_, e, he⟩ | ⟨_, _, hfitted⟩
  · rw [he] at h
    cases h
  · rw [h] at hfitted
    exact (Prod.mk.inj (Except.ok.inj hfitted)).1

/-- A strict resolution can only answer what a lenient one does. -/
theorem tableColumns_strict_iff {alignment : String} {count : Nat}
    {columns : List (Specifier α)} {warnings : List Warning}
    (h : tableColumns alignment count true = .ok (columns, warnings))
    (answer : List (Specifier α) × List Warning) :
    tableColumns alignment count false = .ok answer ↔
      answer = (columns, warnings) ∧ warnings = [] := by
  rw [(tableColumns_lockstep alignment count).ok_iff, h]
  constructor
  · intro hanswer
    obtain ⟨heq, hsilent⟩ := hanswer
    cases heq
    exact ⟨rfl, hsilent⟩
  · intro hanswer
    obtain ⟨rfl, hsilent⟩ := hanswer
    exact ⟨rfl, hsilent⟩

/-- A lenient resolution fails exactly for a fatal definition. Otherwise there
are as many columns as asked for, each one made of the definition at its place
alone, and there are no warnings exactly if a strict resolution succeeds, with
the same columns. -/
theorem tableColumns_degrades (alignment : String) (count : Nat)
    (hblank : (Text.trim alignment).isEmpty = false) :
    ((∃ e, tableColumns (α := α) alignment count true = .error e) ↔
      ∃ ds : List (Definition α),
        parseDefinitions (expandNames alignment) = .ok ds ∧
          ∃ d ∈ ds, d.Fatal) ∧
    ∀ (columns : List (Specifier α)) (warnings : List Warning),
      tableColumns alignment count true = .ok (columns, warnings) →
      columns.length = count ∧
      (∀ ds, parseDefinitions (expandNames alignment) = .ok ds →
        ∀ i < count, columns[i]? =
          some ((ds[i]?.map Definition.lenientColumn).getD .plainLeft)) ∧
      (∀ e, parseDefinitions (α := α) (expandNames alignment) = .error e →
        columns = List.replicate count .plainLeft) ∧
      (warnings = [] ↔
        ∃ answer, tableColumns (α := α) alignment count false = .ok answer) ∧
      ∀ answer, tableColumns (α := α) alignment count false = .ok answer →
        answer = (columns, warnings) := by
  refine ⟨tableColumns_error_iff hblank, fun columns warnings hok => ?_⟩
  have hcolumns := tableColumns_columns hblank hok
  have hstrict := tableColumns_strict_iff hok
  refine ⟨tableColumns_length hok, fun ds hds i hi => ?_, fun e he => ?_,
    ⟨fun hsilent => ⟨_, (hstrict _).mpr ⟨rfl, hsilent⟩⟩, fun hanswer => ?_⟩,
    fun answer hanswer => ((hstrict answer).mp hanswer).1⟩
  · rw [hcolumns, getElem?_fitTo hi, List.getElem?_map, lenientDefinitions,
      hds]
  · rw [hcolumns, lenientDefinitions, he]
    show fitTo count [] = _
    rw [fitTo, List.take_nil, List.nil_append]
    rfl
  · obtain ⟨answer, hanswer⟩ := hanswer
    exact ((hstrict answer).mp hanswer).2

/-- An unknown column and a missing one are replaced with warnings, but there
is no paragraph column without a width. -/
theorem tableColumns_degrades_unknown :
    (Text.trim "c,q").isEmpty = false ∧ (Text.trim "p,l").isEmpty = false ∧
      (∃ (columns : List (Specifier Float)) (warnings : List Warning),
        tableColumns "c,q" 3 true = .ok (columns, warnings) ∧
          columns.length = 3 ∧ warnings ≠ []) ∧
      ∃ ds : List (Definition Float),
        parseDefinitions (expandNames "p,l") = .ok ds ∧
          ∃ d ∈ ds, d.Fatal := by
  have hunknown : (Text.trim "c,q").isEmpty = false := by decide +kernel
  have hwidth : (Text.trim "p,l").isEmpty = false := by decide +kernel
  have hlenient : (tableColumns (α := Float) "c,q" 3 true).isOk = true := by
    decide +kernel
  have hstrict : (tableColumns (α := Float) "c,q" 3 false).isOk = false := by
    decide +kernel
  have hfatal : (tableColumns (α := Float) "p,l" 2 true).isOk = false := by
    decide +kernel
  refine ⟨hunknown, hwidth, ?_, ?_⟩
  · cases hok : tableColumns (α := Float) "c,q" 3 true with
    | error e => rw [hok] at hlenient; cases hlenient
    | ok answer =>
        obtain ⟨columns, warnings⟩ := answer
        obtain ⟨hlength, _, _, hsilent, _⟩ :=
          (tableColumns_degrades "c,q" 3 hunknown).2 columns warnings hok
        refine ⟨columns, warnings, rfl, hlength, fun heq => ?_⟩
        obtain ⟨answer, hanswer⟩ := hsilent.mp heq
        rw [hanswer] at hstrict
        cases hstrict
  · cases herror : tableColumns (α := Float) "p,l" 2 true with
    | ok answer => rw [herror] at hfatal; cases hfatal
    | error e => exact (tableColumns_degrades "p,l" 2 hwidth).1.mp ⟨e, herror⟩

end Tabulation.Column
