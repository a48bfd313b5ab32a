import Tabulation.Proofs.Latex.Pieces

/-!
# Escaped text can be told apart

A text is escaped character by character, so an escaped text is cut into the
escapes of its characters, and what can be said about a place in it is said
about one escape. No escape begins another one, wherever the text goes on, so
there is one way to cut: the text can be had back from what was made of it. A
special character is left in an escaped text only where the escape of some
character has it, which is behind the backslash that opens the escape or in the
empty group that closes a macro.
-/

namespace Tabulation.Latex

/-- The characters that a backslash in front of them turns into text. -/
def backslashed : List Char :=
  ['&', '%', '$', '#', '_', '\x7b', '\x7d']

/-- The characters that a macro stands for, with its name. -/
def macros : List (Char × String) :=
  [('\\', "textbackslash"), ('~', "textasciitilde"), ('^', "textasciicircum")]

/-- How one character is escaped. -/
inductive Escapes : Char → List Char → Prop where
  | itself {c : Char} (h : c ∉ specials) : Escapes c [c]
  | marked {c : Char} (h : c ∈ backslashed) : Escapes c ['\\', c]
  | named {c : Char} {name : String} (h : (c, name) ∈ macros) :
      Escapes c ('\\' :: (name.toList ++ ['\x7b', '\x7d']))

theorem escapeChar_escapes (c : Char) : Escapes c (escapeChar c) := by
  by_cases h : c ∈ specials
  · simp only [specials, List.mem_cons, List.not_mem_nil, or_false] at h
    rcases h with rfl | rfl | rfl | rfl | rfl | rfl | rfl | rfl | rfl | rfl
    · exact @Escapes.named _ "textbackslash" (by decide)
    · exact .marked (by decide)
    · exact .marked (by decide)
    · exact .marked (by decide)
    · exact .marked (by decide)
    · exact .marked (by decide)
    · exact .marked (by decide)
    · exact .marked (by decide)
    · exact @Escapes.named _ "textasciitilde" (by decide)
    · exact @Escapes.named _ "textasciicircum" (by decide)
  · rw [escapeChar_plain h]
    exact .itself h

theorem macros_letters : ∀ m ∈ macros, m.2.toList.all Char.isAlpha = true := by
  decide

/-! ## One way to cut -/

theorem named_append_inj {c d : Char} {name name' : String} {s t : List Char}
    (hc : (c, name) ∈ macros) (hd : (d, name') ∈ macros)
    (h : name.toList ++ '\x7b' :: s = name'.toList ++ '\x7b' :: t) :
    c = d ∧ s = t := by
  have hapart : ∀ m ∈ macros, ∀ m' ∈ macros,
      m.2.toList = m'.2.toList → m.1 = m'.1 := by
    decide
  have hletters := List.all_eq_true.mp (macros_letters _ hc)
  have hletters' := List.all_eq_true.mp (macros_letters _ hd)
  have htake := congrArg (List.takeWhile Char.isAlpha) h
  rw [List.takeWhile_append_of_pos hletters,
    List.takeWhile_append_of_pos hletters',
    List.takeWhile_cons_of_neg (by decide),
    List.takeWhile_cons_of_neg (by decide), List.append_nil,
    List.append_nil] at htake
  rw [htake] at h
  exact ⟨hapart _ hc _ hd htake, (List.cons.inj (List.append_cancel_left h)).2⟩

/-- No escape begins another one, whatever follows. -/
theorem Escapes.append_inj {c d : Char} {cs ds s t : List Char}
    (hc : Escapes c cs) (hd : Escapes d ds) (h : cs ++ s = ds ++ t) :
    c = d ∧ s = t := by
  have hname : ∀ m ∈ macros, m.2.toList.head? = some 't' := by decide
  cases hc with
  | itself hc =>
      cases hd with
      | itself => exact List.cons.inj h
      | marked => exact absurd ((List.cons.inj h).1 ▸ by decide) hc
      | named => exact absurd ((List.cons.inj h).1 ▸ by decide) hc
  | marked hc =>
      cases hd with
      | itself hd => exact absurd ((List.cons.inj h).1 ▸ by decide) hd
      | marked => exact List.cons.inj (List.cons.inj h).2
      | named hd =>
          obtain ⟨rest, hrest⟩ := List.head?_eq_some_iff.mp (hname _ hd)
          rw [hrest] at h
          cases h
          exact absurd hc (by decide)
  | named hc =>
      cases hd with
      | itself hd => exact absurd ((List.cons.inj h).1 ▸ by decide) hd
      | marked hd =>
          obtain ⟨rest, hrest⟩ := List.head?_eq_some_iff.mp (hname _ hc)
          rw [hrest] at h
          cases h
          exact absurd hd (by decide)
      | named hd =>
          rw [List.cons_append, List.cons_append, List.append_assoc,
            List.append_assoc] at h
          have htail := (List.cons.inj h).2
          obtain ⟨heq, hrest⟩ := named_append_inj hc hd htail
          exact ⟨heq, (List.cons.inj hrest).2⟩

theorem flatMap_escapeChar_inj {cs ds : List Char}
    (h : cs.flatMap escapeChar = ds.flatMap escapeChar) : cs = ds := by
  have hne : ∀ c rest, escapeChar c ++ rest ≠ [] := by
    intro c rest hnil
    have hlength := one_le_length_escapeChar c
    rw [(List.append_eq_nil_iff.mp hnil).1] at hlength
    exact absurd hlength (by decide)
  induction cs generalizing ds with
  | nil =>
      cases ds with
      | nil => rfl
      | cons d ds => exact absurd h.symm (hne d _)
  | cons c cs ih =>
      cases ds with
      | nil => exact absurd h (hne c _)
      | cons d ds =>
          rw [List.flatMap_cons, List.flatMap_cons] at h
          obtain ⟨rfl, hrest⟩ :=
            (escapeChar_escapes c).append_inj (escapeChar_escapes d) h
          rw [ih hrest]

theorem toList_escape (s : String) :
    (escape s).toList = s.toList.flatMap escapeChar := by
  rw [escape, String.toList_ofList]

theorem escape_append (s t : String) :
    escape (s ++ t) = escape s ++ escape t := by
  rw [← String.toList_inj, String.toList_append, toList_escape, toList_escape,
    toList_escape, String.toList_append, List.flatMap_append]

theorem escape_inj {s t : String} : escape s = escape t ↔ s = t := by
  refine ⟨fun h => ?_, congrArg escape⟩
  rw [← String.toList_inj, toList_escape, toList_escape] at h
  exact String.toList_inj.mp (flatMap_escapeChar_inj h)

/-! ## Places in an escaped text -/

/-- A character of an escaped text is one of the escape of a character, between
the escapes of what stands in front of that and behind it. -/
theorem flatMap_escapeChar_split {cs before after : List Char} {c : Char}
    (h : cs.flatMap escapeChar = before ++ c :: after) :
    ∃ a d b p q, cs = a ++ d :: b ∧ escapeChar d = p ++ c :: q ∧
      before = a.flatMap escapeChar ++ p ∧
      after = q ++ b.flatMap escapeChar := by
  induction cs generalizing before with
  | nil =>
      have hne := List.append_ne_nil_of_right_ne_nil before
        (List.cons_ne_nil c after)
      exact absurd h.symm hne
  | cons d cs ih =>
      have hnext : ∀ rest, cs.flatMap escapeChar = rest ++ c :: after →
          before = escapeChar d ++ rest →
          ∃ a e b p q, d :: cs = a ++ e :: b ∧ escapeChar e = p ++ c :: q ∧
            before = a.flatMap escapeChar ++ p ∧
            after = q ++ b.flatMap escapeChar := by
        intro rest hrest hbefore
        obtain ⟨a, e, b, p, q, rfl, he, rfl, hafter⟩ := ih hrest
        refine ⟨d :: a, e, b, p, q, rfl, he, ?_, hafter⟩
        rw [hbefore, List.flatMap_cons, List.append_assoc]
      rw [List.flatMap_cons] at h
      rcases List.append_eq_append_iff.mp h with
        ⟨rest, hbefore, hrest⟩ | ⟨tail, hd, htail⟩
      · exact hnext rest hrest hbefore
      · cases tail with
        | nil =>
            rw [List.append_nil] at hd
            exact hnext [] htail.symm (by rw [hd, List.append_nil])
        | cons e tail =>
            cases htail
            exact ⟨[], d, cs, before, tail, rfl, hd, rfl, rfl⟩

/-- A character of an escaped text that a backslash of its own turns into
text. -/
def BehindBackslash (s before : String) (c : Char) (after : String) : Prop :=
  ∃ a b, s = a ++ c.toString ++ b ∧ before = escape a ++ "\\" ∧
    after = escape b

/-- A brace of an escaped text that belongs to the empty group behind the name
of a macro. -/
def ClosesMacro (s before : String) (c : Char) (after : String) : Prop :=
  ∃ a d b name, (d, name) ∈ macros ∧ s = a ++ d.toString ++ b ∧
    (c = '\x7b' ∧ before = escape a ++ ("\\" ++ name) ∧
        after = "\x7d" ++ escape b ∨
      c = '\x7d' ∧ before = escape a ++ ("\\" ++ name ++ "\x7b") ∧
        after = escape b)

/-- Where an escape has a character other than its backslash. -/
theorem Escapes.split {d c : Char} {p q : List Char}
    (h : Escapes d (p ++ c :: q)) (hc : c ∈ specials) (hne : c ≠ '\\') :
    d = c ∧ c ∈ backslashed ∧ p = ['\\'] ∧ q = [] ∨
    ∃ name, (d, name) ∈ macros ∧
      (c = '\x7b' ∧ p = '\\' :: name.toList ∧ q = ['\x7d'] ∨
        c = '\x7d' ∧ p = '\\' :: (name.toList ++ ['\x7b']) ∧ q = []) := by
  generalize hcs : p ++ c :: q = cs at h
  cases h with
  | itself hd =>
      have hmem : c ∈ [d] :=
        hcs ▸ List.mem_append_right p List.mem_cons_self
      rw [List.mem_singleton.mp hmem] at hc
      exact absurd hc hd
  | marked hd =>
      cases p with
      | nil => exact absurd (List.cons.inj hcs).1 hne
      | cons e p =>
          obtain ⟨rfl, htail⟩ := List.cons.inj hcs
          rcases List.append_eq_singleton_iff.mp htail with
            ⟨rfl, hlast⟩ | ⟨_, hnil⟩
          · cases hlast
            exact .inl ⟨rfl, hd, rfl, rfl⟩
          · cases hnil
  | @named name hd =>
      have hletter : specials.all (!·.isAlpha) = true := by decide +kernel
      have hname : c ∉ '\\' :: name.toList := by
        rintro (_ | ⟨_, hmem⟩)
        · exact hne rfl
        · have halpha := List.all_eq_true.mp (macros_letters _ hd) c hmem
          have hnot := List.all_eq_true.mp hletter c hc
          rw [halpha] at hnot
          cases hnot
      refine .inr ⟨name, hd, ?_⟩
      have hmem : c ∈ ['\x7b', '\x7d'] := by
        have hall : c ∈ p ++ c :: q :=
          List.mem_append_right p List.mem_cons_self
        rw [hcs, ← List.cons_append] at hall
        exact (List.mem_append.mp hall).resolve_left hname
      rcases List.mem_cons.mp hmem with rfl | hlast
      · have hbehind : '\x7b' ∉ ['\x7d'] := by decide
        obtain ⟨hp, -, hq⟩ :=
          (List.append_cons_inj_of_notMem hname hbehind).mp hcs.symm
        exact .inl ⟨rfl, hp.symm, hq.symm⟩
      · cases List.mem_singleton.mp hlast
        have hname' : '\x7d' ∉ '\\' :: (name.toList ++ ['\x7b']) := by
          rw [← List.cons_append, List.mem_append, not_or]
          exact ⟨hname, by decide⟩
        have hcs' : '\\' :: (name.toList ++ ['\x7b']) ++ '\x7d' :: [] =
            p ++ '\x7d' :: q := by
          rw [hcs, List.cons_append, List.append_assoc]
          rfl
        obtain ⟨hp, -, hq⟩ :=
          (List.append_cons_inj_of_notMem hname' List.not_mem_nil).mp hcs'
        exact .inr ⟨rfl, hp.symm, hq.symm⟩

theorem toList_between (a : String) (c : Char) (b : String) :
    (a ++ c.toString ++ b).toList = a.toList ++ c :: b.toList := by
  rw [String.toList_append, String.toList_append, List.append_assoc]
  exact congrArg (a.toList ++ ·) (congrArg (· ++ b.toList)
    (String.toList_singleton c))

/-- What has a special character, other than a backslash, in an escaped
text. -/
theorem escape_split {s before after : String} {c : Char}
    (h : escape s = before ++ c.toString ++ after) (hc : c ∈ specials)
    (hne : c ≠ '\\') :
    c ∈ backslashed ∧ BehindBackslash s before c after ∨
      ClosesMacro s before c after := by
  rw [← String.toList_inj, toList_escape, toList_between] at h
  obtain ⟨a, d, b, p, q, hs, hd, hbefore, hafter⟩ := flatMap_escapeChar_split h
  have htext : s = String.ofList a ++ d.toString ++ String.ofList b := by
    rw [← String.toList_inj, toList_between, String.toList_ofList,
      String.toList_ofList, hs]
  have hfront : ∀ t : String, p = t.toList →
      before = escape (String.ofList a) ++ t := by
    intro t ht
    rw [← String.toList_inj, String.toList_append, toList_escape,
      String.toList_ofList, hbefore, ht]
  have hback : ∀ t : String, q = t.toList →
      after = t ++ escape (String.ofList b) := by
    intro t ht
    rw [← String.toList_inj, String.toList_append, toList_escape,
      String.toList_ofList, hafter, ht]
  have hback' : q = [] → after = escape (String.ofList b) := by
    intro hq
    rw [hback "" hq, String.empty_append]
  have hescapes := escapeChar_escapes d
  rw [hd] at hescapes
  rcases hescapes.split hc hne with
    ⟨rfl, hmark, hp, hq⟩ | ⟨name, hname, hgroup⟩
  · exact .inl ⟨hmark, _, _, htext, hfront "\\" hp, hback' hq⟩
  · refine .inr ⟨_, d, _, name, hname, htext, ?_⟩
    rcases hgroup with ⟨rfl, hp, hq⟩ | ⟨rfl, hp, hq⟩
    · refine .inl ⟨rfl, hfront _ ?_, hback "\x7d" hq⟩
      rw [hp, String.toList_append]
      rfl
    · refine .inr ⟨rfl, hfront _ ?_, hback' hq⟩
      rw [hp, String.toList_append, String.toList_append]
      rfl

theorem ClosesMacro.brace {s before after : String} {c : Char}
    (h : ClosesMacro s before c after) : c = '\x7b' ∨ c = '\x7d' := by
  obtain ⟨_, _, _, _, _, _, hgroup⟩ := h
  exact hgroup.imp And.left And.left

theorem not_mem_escape {c : Char} (hc : c ∈ specials) (hne : c ≠ '\\')
    (hmark : c ∉ backslashed) (hbrace : ¬(c = '\x7b' ∨ c = '\x7d'))
    (s : String) : c ∉ (escape s).toList := by
  intro hmem
  obtain ⟨before, after, htext⟩ := List.append_of_mem hmem
  have hplace : escape s = String.ofList before ++ c.toString ++
      String.ofList after := by
    rw [← String.toList_inj, toList_between, String.toList_ofList,
      String.toList_ofList, htext]
  rcases escape_split hplace hc hne with ⟨hmem, _⟩ | hcloses
  · exact hmark hmem
  · exact hbrace hcloses.brace

/-- Escaping a text escapes its parts, and texts with the same escaped text are
the same. Of the special characters, an escaped text has no tilde and no caret.
An ampersand and the like has the backslash of its escape in front of it, and so
has a brace, unless it is one of the group that closes a macro. -/
theorem escape_safe (s t : String) :
    escape (s ++ t) = escape s ++ escape t ∧
    (escape s = escape t ↔ s = t) ∧
    ('~' ∉ (escape s).toList ∧ '^' ∉ (escape s).toList) ∧
    (∀ before c after, escape s = before ++ c.toString ++ after →
      c ∈ ['&', '%', '$', '#', '_'] → BehindBackslash s before c after) ∧
    ∀ before c after, escape s = before ++ c.toString ++ after →
      c ∈ ['\x7b', '\x7d'] →
        BehindBackslash s before c after ∨ ClosesMacro s before c after := by
  have hmarks : ∀ c, c ∈ ['&', '%', '$', '#', '_'] → c ∈ specials := by
    intro c hc
    simp only [List.mem_cons, List.not_mem_nil, or_false] at hc
    rcases hc with rfl | rfl | rfl | rfl | rfl <;> decide
  have hbraces : ∀ c, c ∈ ['\x7b', '\x7d'] → c ∈ specials := by
    intro c hc
    simp only [List.mem_cons, List.not_mem_nil, or_false] at hc
    rcases hc with rfl | rfl <;> decide
  refine ⟨escape_append s t, escape_inj, ⟨?_, ?_⟩, ?_, ?_⟩
  · exact not_mem_escape (by decide) (by decide) (by decide) (by decide) s
  · exact not_mem_escape (by decide) (by decide) (by decide) (by decide) s
  · intro before c after h hc
    have hne := ne_of_mem_of_not_mem hc (b := '\\') (by decide)
    rcases escape_split h (hmarks c hc) hne with ⟨_, hback⟩ | hcloses
    · exact hback
    · rcases hcloses.brace with rfl | rfl
      · exact absurd hc (by decide)
      · exact absurd hc (by decide)
  · intro before c after h hc
    have hne := ne_of_mem_of_not_mem hc (b := '\\') (by decide)
    exact (escape_split h (hbraces c hc) hne).imp_left And.right

end Tabulation.Latex
