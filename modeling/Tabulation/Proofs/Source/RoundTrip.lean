import Tabulation.Column.Equality
import Tabulation.Proofs.Source.Reading

/-!
# Round trip

The source text of the specifiers that a text defines defines the same ones.
Where all names of alignments are replaced before a text is read, source texts
are left alone, because no name of an alignment begins with a letter alone or
with a letter in front of a bracket.
-/

namespace Tabulation.Column

open Decimal

/-! ## Equality -/

def Node.Same : Node → Prop
  | .value v => v.same v = true
  | .specifier c => c.same c = true
  | .specifiers cs => sameList cs cs = true

theorem isNaN_eq_false {x : Float}
    (h : IsNumeral (Scalar.pointedText x).toList) : x.isNaN = false := by
  rw [← Bool.not_eq_true]
  intro hnan
  have htext : Scalar.text x = "NaN" := by
    show shortestText x = _
    rw [shortestText, if_pos hnan]
  have hfinite : Scalar.isFinite x = false := by
    rw [← Bool.not_eq_true]
    intro hfinite
    have hnot := (isNaN_of_isFinite hfinite).1
    rw [hnan] at hnot
    cases hnot
  have hpointed : Scalar.pointedText x = "NaN" := by
    rw [Scalar.pointedText]
    simp only [htext, hfinite, Bool.not_false, Bool.or_true, if_true]
  rw [hpointed] at h
  have hall := h.all_isNumeric
  exact absurd hall (by decide)

theorem Width.same_self {w : Width Float} (h : w.Plain) :
    (w == w) = true := by
  show w.same w = true
  cases w with
  | fraction x =>
      rw [same]
      exact beq_self (isNaN_of_isFinite h).1
  | length x unit =>
      rw [same, beq_self (isNaN_of_isFinite h.1).1]
      exact decide_eq_true rfl

theorem Kind.same_self {k : Kind Float} (hk : k.Proper)
    (hwidths : ∀ w ∈ (Specifier.plain k).widths, w.Plain)
    (hvalues : ∀ v ∈ k.values, v.same v = true) : k.same k = true := by
  cases k with
  | simple align =>
      rw [same]
      exact decide_eq_true rfl
  | paragraph p =>
      have hwidth := Width.same_self (hwidths p.width List.mem_cons_self)
      have hfraction := beq_self
        (isNaN_of_isFinite (isFinite_of_range hk.nonneg hk.fraction)).1
      rw [same]
      show p.same p = true
      rw [Paragraph.same, hwidth, hfraction, hk.whole]
      simp
  | numeric n =>
      obtain ⟨format, zero, width, alignment, plus, weight⟩ := n
      have hwidth : (width == width) = true := by
        cases width with
        | none => rfl
        | some w => exact Width.same_self (hwidths w List.mem_cons_self)
      rw [same, Numeric.same, hvalues format (by simp [values]),
        hvalues zero (by simp [values]), hvalues alignment (by simp [values]),
        hvalues plus (by simp [values]), hvalues weight (by simp [values]),
        hwidth]
      rfl
  | autoWidth t =>
      rw [same]
      exact decide_eq_true rfl

/-- What can be written equals itself, if its widths are plain. -/
theorem Writable.same {n : Node} (h : Writable n)
    (hplain : ∀ c ∈ n.within, c.Plain) : n.Same := by
  induction h with
  | nothing => rw [Node.Same, Value.same]
  | bool =>
      rw [Node.Same, Value.same]
      exact decide_eq_true rfl
  | int =>
      rw [Node.Same, Value.same]
      exact decide_eq_true rfl
  | number hn =>
      rw [Node.Same, Value.same]
      exact beq_self (isNaN_eq_false hn)
  | text =>
      rw [Node.Same, Value.same]
      exact decide_eq_true rfl
  | column _ ih =>
      rw [Node.within, Value.within] at hplain
      rw [Node.Same, Value.same]
      exact ih hplain
  | columns _ _ ih =>
      rw [Node.within, Value.within] at hplain
      rw [Node.Same, Value.same]
      exact ih hplain
  | @specifier c _ hkind _ _ _ ihvalues ihoverride =>
      rw [Node.within, c.within_eq] at hplain
      have hsame := Kind.same_self hkind
        (hplain c List.mem_cons_self).widths (by
          intro v hv
          refine ihvalues v hv ?_
          intro d hd
          exact hplain d (List.mem_cons_of_mem _ (List.mem_append_left _
            (Kind.within_of_mem hv d hd))))
      have hover := ihoverride (by
        intro d hd
        rw [Node.within, Override.value_within] at hd
        exact hplain d (List.mem_cons_of_mem _
          (List.mem_append_right _ hd)))
      obtain ⟨kind, override, noSpaceAfter, spaceAfter, noLeft, noRight⟩ := c
      have hoverride : override.same override = true := by
        cases override with
        | itself => rw [Override.same]
        | single d =>
            rw [Node.Same, Override.value, Value.same] at hover
            rw [Override.same]
            exact hover
        | indexed ds =>
            rw [Node.Same, Override.value, Value.same] at hover
            rw [Override.same]
            exact hover
      rw [Node.Same, Specifier.same, hsame, hoverride]
      simp
  | nil => rw [Node.Same, sameList]
  | @cons c cs _ _ ihc ihcs =>
      rw [Node.within, withinList] at hplain
      have hc : c.same c = true :=
        ihc (fun d hd => hplain d (List.mem_append_left _ hd))
      have hcs : sameList cs cs = true :=
        ihcs (fun d hd => hplain d (List.mem_append_right _ hd))
      rw [Node.Same, sameList, hc, hcs]
      rfl

/-! ## Names of alignments -/

/-- A name is longer than one letter and has a letter behind the first one. -/
theorem namedAlignment?_letters {name letter : String}
    (h : namedAlignment? name = some letter) :
    ∃ c d rest, name.toList = c :: d :: rest ∧ d ≠ '[' := by
  rw [namedAlignment?.eq_def] at h
  split at h
  · exact ⟨_, _, _, rfl, by decide⟩
  · exact ⟨_, _, _, rfl, by decide⟩
  · exact ⟨_, _, _, rfl, by decide⟩
  · exact ⟨_, _, _, rfl, by decide⟩
  · exact ⟨_, _, _, rfl, by decide⟩
  · exact ⟨_, _, _, rfl, by decide⟩
  · exact ⟨_, _, _, rfl, by decide⟩
  · cases h

/-- The blanks at its end are all that trimming takes from a text that begins
with no blank. -/
theorem trim_begins {c : Char} {cs : List Char}
    (h : Text.isBlank c = false) :
    (Text.trim (String.ofList (c :: cs))).toList <+: c :: cs := by
  have hdrop : (c :: cs).dropWhile Text.isBlank = c :: cs := by
    refine dropWhile_isBlank ?_
    intro d hd
    cases hd
    exact h
  rw [Text.trim, String.toList_ofList, String.toList_ofList, hdrop,
    Text.trimRight, ← List.reverse_suffix, List.reverse_reverse]
  exact List.dropWhile_suffix _

theorem pieces_head {rest : List Char}
    (h : ∀ d ∈ rest.head?, d = ',' ∨ d = '[') :
    ∃ piece more, Text.pieces ',' rest = piece :: more ∧
      (piece = [] ∨ ∃ q, piece = '[' :: q) := by
  cases rest with
  | nil => exact ⟨[], [], rfl, .inl rfl⟩
  | cons d rest =>
      rcases h d rfl with rfl | rfl
      · exact ⟨[], _, if_pos rfl, .inl rfl⟩
      · rw [Text.pieces, if_neg (by decide)]
        split
        · exact ⟨_, _, rfl, .inr ⟨_, rfl⟩⟩
        · exact ⟨_, _, rfl, .inr ⟨_, rfl⟩⟩

/-- Where the first piece of a text is a bare identifier, or one in front of a
bracket, it is no name. -/
theorem expandNames_eq_self {text : String} {c : Char} {rest : List Char}
    (hc : c.isAlpha = true) (htext : text.toList = c :: rest)
    (hrest : ∀ d ∈ rest.head?, d = ',' ∨ d = '[') :
    expandNames text = text := by
  have hcomma : c ≠ ',' := by
    intro heq
    rw [heq] at hc
    cases hc
  obtain ⟨piece, more, hpieces, hpiece⟩ := pieces_head hrest
  have hsplit : Text.split ',' text =
      String.ofList (c :: piece) :: more.map String.ofList := by
    rw [Text.split, htext, Text.pieces, if_neg hcomma, hpieces]
    rfl
  have hnone : namedAlignment? (Text.trim (String.ofList (c :: piece))) =
      none := by
    cases hname : namedAlignment? (Text.trim (String.ofList (c :: piece))) with
    | none => rfl
    | some letter =>
        obtain ⟨x, d, us, hlist, hd⟩ := namedAlignment?_letters hname
        have hprefix := @trim_begins c piece (not_isBlank_of_isAlpha hc)
        rw [hlist] at hprefix
        obtain ⟨vs, hvs⟩ := hprefix
        rcases hpiece with rfl | ⟨q, rfl⟩
        · cases hvs
        · cases hvs
          exact absurd rfl hd
  rw [expandNames]
  simp only [hsplit, List.map_cons, List.all_cons, hnone]
  rfl

theorem source_toList (c : Specifier Float) :
    ∃ rest, c.source.toList = c.kind.identifier :: rest ∧
      ∀ d ∈ rest.head?, d = '[' := by
  have hlist : c.kind.identifier.toString.toList = [c.kind.identifier] :=
    String.toList_singleton _
  rw [c.source_eq, bracketed, String.toList_append, hlist]
  refine ⟨_, rfl, ?_⟩
  intro d hd
  split at hd
  · cases hd
  · rw [String.toList_append, String.toList_append] at hd
    cases hd
    rfl

/-- Source texts are left as they are. -/
theorem expandNames_source (cs : List (Specifier Float)) :
    expandNames (String.intercalate "," (sourceList cs)) =
      String.intercalate "," (sourceList cs) := by
  cases cs with
  | nil => rfl
  | cons c cs =>
      obtain ⟨rest, hc, hrest⟩ := source_toList c
      have halpha := c.kind.identifier_isAlpha
      cases cs with
      | nil =>
          rw [sourceList, sourceList, String.intercalate_singleton]
          exact expandNames_eq_self halpha hc fun d hd => .inr (hrest d hd)
      | cons c' cs =>
          rw [sourceList, sourceList, String.intercalate_cons_cons]
          generalize String.intercalate "," _ = more
          have htext : (c.source ++ "," ++ more).toList =
              c.kind.identifier :: (rest ++ ',' :: more.toList) := by
            rw [String.toList_append, String.toList_append, hc,
              List.append_assoc]
            rfl
          refine expandNames_eq_self halpha htext ?_
          intro d hd
          cases rest with
          | nil =>
              cases hd
              exact .inl rfl
          | cons => exact .inr (hrest d hd)

/-! ## Round trip -/

theorem sourceList_eq_map (cs : List (Specifier Float)) :
    sourceList cs = cs.map Specifier.source := by
  induction cs with
  | nil => rw [sourceList]; rfl
  | cons c cs ih => rw [sourceList, ih]; rfl

theorem parseDefinitions_tokenize {α : Type} [Scalar α] {text : String}
    {ds : List (Definition α)} (h : parseDefinitions text = .ok ds) :
    ∃ ts, tokenize text = .ok ts := by
  rw [parseDefinitions, readAll] at h
  obtain ⟨ts, hts, _⟩ := Except.bind_eq_ok.mp h
  exact ⟨ts, hts⟩

/-- The specifiers that a text defines can be written. -/
theorem parseSpecifiers_writable {text : String} {cs : List (Specifier Float)}
    (h : parseSpecifiers text = .ok cs) : Writable (.specifiers cs) := by
  rw [parseSpecifiers] at h
  obtain ⟨ds, hds, hcs⟩ := Except.bind_eq_ok.mp h
  obtain ⟨ts, hts⟩ := parseDefinitions_tokenize hds
  rcases (parseDefinitions_eq_ok hts).mp hds with ⟨_, rfl⟩ | hderives
  · rw [specifiersOf] at hcs
    cases hcs
    exact .nil
  · exact (hderives.writes (tokensFrom_number hts)).2 cs hcs

/-- Specifiers that can be written are what their source text defines. -/
theorem Writable.parse {cs : List (Specifier Float)}
    (h : Writable (.specifiers cs)) (hplain : ∀ c ∈ withinList cs, c.Plain) :
    parseSpecifiers (String.intercalate "," (sourceList cs)) = .ok cs := by
  have hparse : ∃ ds, parseDefinitions (String.intercalate ","
      (sourceList cs)) = .ok ds ∧ specifiersOf ds = .ok cs := by
    by_cases hnil : cs = []
    · subst hnil
      have hts : tokenize (String.intercalate ","
          (sourceList ([] : List (Specifier Float)))) = .ok [] := by
        show tokensFrom 0 [] = _
        rw [tokensFrom]
      exact ⟨[], (parseDefinitions_eq_ok hts).mpr (.inl ⟨rfl, rfl⟩),
        by rw [specifiersOf]⟩
    · obtain ⟨ls, hls, hspaced, hread⟩ :=
        h.reads (by intro heq; cases heq; exact hnil rfl) hplain
      obtain ⟨ts, hts, hlexemes⟩ := tokensFrom_spell hspaced 0
      rw [← hls] at hts
      obtain ⟨ds, hderives, hspecifiers⟩ := hread ts hlexemes
      exact ⟨ds, (parseDefinitions_eq_ok hts).mpr (.inr hderives), hspecifiers⟩
  obtain ⟨ds, hds, hcs⟩ := hparse
  rw [parseSpecifiers, expandNames_source, hds]
  exact hcs

/-- Joined with commas, the source texts of the specifiers that a text defines
define equal ones, if all widths in them are plain. Of the finite numbers in
them it is assumed that each is read back from its text. -/
theorem parseSpecifiers_source {text : String} {cs : List (Specifier Float)}
    (h : parseSpecifiers text = .ok cs)
    (hwidths : ∀ c ∈ withinList cs, ∀ w ∈ c.widths, w.Plain)
    (hread : ∀ c ∈ withinList cs, ∀ x ∈ c.numbers, x.isFinite = true →
      float? (shortestText x) = some x) :
    ∃ ds, parseSpecifiers (String.intercalate ","
      (cs.map Specifier.source)) = .ok ds ∧ sameList cs ds = true := by
  have hplain : ∀ c ∈ withinList cs, c.Plain := fun c hc =>
    ⟨hwidths c hc, hread c hc⟩
  have hwritable := parseSpecifiers_writable h
  refine ⟨cs, ?_, hwritable.same hplain⟩
  rw [← sourceList_eq_map]
  exact hwritable.parse hplain

/-- A paragraph column with a group of columns below it. -/
def groupText : String :=
  "p[2.5cm,indent_fraction=0.15,multicolumn_definitions=" ++
    "[l,S[table_column_width=0.3]],space_after='1em']"

theorem parseSpecifiers_source_group :
    ∃ cs : List (Specifier Float), parseSpecifiers groupText = .ok cs ∧
      ∃ ds, parseSpecifiers (String.intercalate ","
        (cs.map Specifier.source)) = .ok ds ∧ sameList cs ds = true := by
  have hcheck : ((parseSpecifiers groupText).toOption.any
      fun cs : List (Specifier Float) => decide
        ((∀ c ∈ withinList cs, ∀ w ∈ c.widths, w.Plain) ∧
          ∀ c ∈ withinList cs, ∀ x ∈ c.numbers,
            float? (shortestText x) = some x)) = true := by
    decide +kernel
  cases hparse : parseSpecifiers (α := Float) groupText with
  | error e =>
      rw [hparse] at hcheck
      cases hcheck
  | ok cs =>
      rw [hparse] at hcheck
      obtain ⟨hwidths, hread⟩ := of_decide_eq_true hcheck
      exact ⟨cs, rfl, parseSpecifiers_source hparse hwidths
        fun c hc x hx _ => hread c hc x hx⟩

end Tabulation.Column
