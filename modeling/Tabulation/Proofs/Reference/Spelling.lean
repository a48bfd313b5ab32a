import Mathlib
import Tabulation.Proofs.Markup.Values
import Tabulation.Proofs.Source.Options
import Tabulation.Table.Layout

/-!
# Which notes share a target

A target is the term of a note with everything spelled out that is neither a
letter nor a digit, and nothing stands between what is spelled. So a term can
imitate another one: where that has a dagger, it has the letters of `dagger`.
Two terms are told apart at the first place where they differ, and the targets
are the same exactly if one of the two imitates the other there. Most names
cannot be imitated, since they have a hyphen, and a hyphen is spelled with
letters.
-/

namespace Tabulation

open Text

/-- A character that is spelled by its number. -/
def Numbered (c : Char) : Prop :=
  isAlphanumeric c = false ∧ characterName? c = none

/-- The digits of a number, four of them at least. -/
def hexCode (n : Nat) : List Char :=
  List.replicate (4 - (Nat.toDigits 16 n).length) '0' ++ Nat.toDigits 16 n

/-- How a character is spelled, by what it is. -/
inductive SpelledAs (c : Char) : List Char → Prop where
  | plain (hplain : isAlphanumeric c = true) : SpelledAs c [c]
  | name {name : String} (hother : isAlphanumeric c = false)
      (hname : characterName? c = some name) : SpelledAs c name.toList
  | number (hnumber : Numbered c) : SpelledAs c ('u' :: hexCode c.toNat)

/-- The characters that stand for one in a target. -/
def spelling (c : Char) : List Char := (spell c).toList

theorem spelling_spelledAs (c : Char) : SpelledAs c (spelling c) := by
  rw [spelling, spell]
  split
  · next hplain =>
      rw [Char.toString_eq_singleton, String.toList_singleton]
      exact .plain hplain
  · next hother =>
      rw [Bool.not_eq_true] at hother
      split
      · next hname => exact .name hother hname
      · next hname =>
          rw [String.toList_append, String.toList_ofList,
            String.toList_ofList]
          exact .number ⟨hother, hname⟩

theorem spelling_of_plain {c : Char} (h : isAlphanumeric c = true) :
    spelling c = [c] := by
  rw [spelling, spell, if_pos h, Char.toString_eq_singleton,
    String.toList_singleton]

theorem spelling_of_name {c : Char} {name : String}
    (hother : isAlphanumeric c = false) (hname : characterName? c = some name) :
    spelling c = name.toList := by
  rw [spelling, spell, hother, if_neg Bool.false_ne_true, hname]

/-- Letters and digits stand for themselves. -/
theorem flatMap_spelling_plain {cs : List Char}
    (h : ∀ x ∈ cs, isAlphanumeric x = true) : cs.flatMap spelling = cs := by
  induction cs with
  | nil => rfl
  | cons c cs ih =>
      obtain ⟨hc, hrest⟩ := List.forall_mem_cons.mp h
      rw [List.flatMap_cons, spelling_of_plain hc, ih hrest]
      rfl

theorem spelled_toList (label : String) :
    (spelled label).toList = (trim label).toList.flatMap spelling := by
  rw [spelled, String.toList_join, List.flatMap_map]
  rfl

/-! ## Numbers -/

theorem mem_toDigits {n : Nat} {c : Char} (h : c ∈ Nat.toDigits 16 n) :
    ∃ d < 16, c = Nat.digitChar d := by
  induction n using Nat.strongRecOn with
  | ind n ih =>
      by_cases hn : n < 16
      · rw [Nat.toDigits_of_lt_base hn, List.mem_singleton] at h
        exact ⟨n, hn, h⟩
      · rw [Nat.toDigits_of_base_le (by decide) (Nat.le_of_not_lt hn),
          List.mem_append, List.mem_singleton] at h
        rcases h with h | h
        · exact ih (n / 16) (by omega) h
        · exact ⟨n % 16, Nat.mod_lt n (by decide), h⟩

theorem mem_hexCode {n : Nat} {c : Char} (h : c ∈ hexCode n) :
    ∃ d < 16, c = Nat.digitChar d := by
  rcases List.mem_append.mp h with h | h
  · exact ⟨0, by decide, List.eq_of_mem_replicate h⟩
  · exact mem_toDigits h

theorem four_le_length_hexCode (n : Nat) : 4 ≤ (hexCode n).length := by
  rw [hexCode, List.length_append, List.length_replicate]
  omega

/-- The number that hexadecimal digits spell. -/
def hexValue (cs : List Char) : Nat :=
  cs.foldl (fun n c => 16 * n + (Xml.hexDigit? c).getD 0) 0

theorem hexDigit?_digitChar :
    ∀ d < 16, Xml.hexDigit? (Nat.digitChar d) = some d := by decide

theorem hexValue_toDigits (n : Nat) : hexValue (Nat.toDigits 16 n) = n := by
  induction n using Nat.strongRecOn with
  | ind n ih =>
      by_cases hn : n < 16
      · rw [Nat.toDigits_of_lt_base hn, hexValue, List.foldl_cons,
          List.foldl_nil, hexDigit?_digitChar n hn, Option.getD_some]
        omega
      · have hlast := hexDigit?_digitChar (n % 16) (Nat.mod_lt n (by decide))
        have hfront := ih (n / 16) (by omega)
        rw [hexValue] at hfront
        rw [Nat.toDigits_of_base_le (by decide) (Nat.le_of_not_lt hn),
          hexValue, List.foldl_append, List.foldl_cons, List.foldl_nil, hfront,
          hlast, Option.getD_some]
        omega

theorem hexValue_zeros (k : Nat) (cs : List Char) :
    hexValue (List.replicate k '0' ++ cs) = hexValue cs := by
  induction k with
  | zero => rfl
  | succ k ih => exact ih

theorem hexCode_inj {m n : Nat} (h : hexCode m = hexCode n) : m = n := by
  have hvalue := congrArg hexValue h
  rwa [hexCode, hexCode, hexValue_zeros, hexValue_zeros, hexValue_toDigits,
    hexValue_toDigits] at hvalue

/-! ## Names -/

/-- The characters that have a name. -/
def characterNames : List (Char × String) :=
  "*†‡§‖¶◊#\\-+.:_ ".toList.filterMap fun c => (characterName? c).map (c, ·)

theorem mem_characterNames {c : Char} {name : String}
    (h : characterName? c = some name) : (c, name) ∈ characterNames := by
  unfold characterName? at h
  split at h
  all_goals cases h
  all_goals decide

/-- No name begins another one. -/
theorem characterNames_apart : ∀ p ∈ characterNames, ∀ q ∈ characterNames,
    p.2.toList <+: q.2.toList → p = q := by
  decide +kernel

theorem characterNames_head : ∀ p ∈ characterNames,
    p.2.toList.head?.any fun x => x != 'u' := by
  decide

theorem characterNames_plain : ∀ p ∈ characterNames,
    p.2.toList.all fun x => isAlphanumeric x || x == '-' := by
  decide

/-- What can be missing of a name when its letters in front are there, up to the
first hyphen: `ouble-dagger`, `uble-dagger`, …, `-dagger`. -/
def restsUpToHyphen : List Char → List (List Char)
  | [] => []
  | c :: cs => (c :: cs) :: if c = '-' then [] else restsUpToHyphen cs

def nameRests : List (List Char) :=
  characterNames.flatMap fun p => restsUpToHyphen p.2.toList.tail

theorem nameRests_tail : ∀ w ∈ nameRests,
    w.head?.any fun x => x == '-' ||
      isAlphanumeric x && (w.tail == [] || nameRests.contains w.tail) := by
  decide +kernel

/-- No name begins what is missing of one, and where that begins a name, a part
with a hyphen is missing of that one in turn. -/
theorem nameRests_apart : ∀ w ∈ nameRests, ∀ p ∈ characterNames,
    ¬p.2.toList <+: w ∧
      (w <+: p.2.toList →
        p.2.toList.drop w.length ∈ nameRests ∧
          '-' ∈ p.2.toList.drop w.length) := by
  decide +kernel

theorem nameRests_number : ∀ w ∈ nameRests, 'u' ∈ w.head? →
    (w.tail.take 4).any fun x => Xml.hexDigit? x == none := by
  decide +kernel

theorem nameRests_begin : ∀ p ∈ characterNames,
    p.2.toList.tail ∈ nameRests := by
  decide

/-! ## What a text is spelled with -/

section

variable {s t : List Char} {c d : Char}

/-- Everything is spelled with letters, digits and hyphens. -/
theorem SpelledAs.plain_or_hyphen {cs : List Char} (h : SpelledAs c cs) :
    ∀ x ∈ cs, isAlphanumeric x = true ∨ x = '-' := by
  intro x hx
  cases h with
  | plain hplain => exact .inl (List.mem_singleton.mp hx ▸ hplain)
  | name _ hname =>
      have hall := characterNames_plain _ (mem_characterNames hname)
      have hchar := List.all_eq_true.mp hall x hx
      rwa [Bool.or_eq_true, beq_iff_eq] at hchar
  | number =>
      have hdigits : ∀ d < 16, isAlphanumeric (Nat.digitChar d) = true := by
        decide
      rcases List.mem_cons.mp hx with rfl | hx
      · exact .inl rfl
      · obtain ⟨d, hd, rfl⟩ := mem_hexCode hx
        exact .inl (hdigits d hd)

/-- No name begins as a number does. -/
theorem name_begins {name : String} (hname : characterName? c = some name) :
    ∃ x rest, name.toList = x :: rest ∧ x ≠ 'u' := by
  have hhead := characterNames_head _ (mem_characterNames hname)
  cases hcs : name.toList with
  | nil =>
      rw [hcs] at hhead
      cases hhead
  | cons x rest =>
      rw [hcs, List.head?_cons, Option.any_some, bne_iff_ne] at hhead
      exact ⟨x, rest, rfl, hhead⟩

theorem SpelledAs.ne_nil {cs : List Char} (h : SpelledAs c cs) : cs ≠ [] := by
  cases h with
  | plain => exact List.cons_ne_nil _ _
  | name _ hname =>
      obtain ⟨x, rest, hcs, -⟩ := name_begins hname
      rw [hcs]
      exact List.cons_ne_nil _ _
  | number => exact List.cons_ne_nil _ _

/-- What is missing of a name has letters, or a hyphen first. -/
theorem nameRests_cons {x : Char} {w : List Char} (h : x :: w ∈ nameRests) :
    x = '-' ∨ isAlphanumeric x = true ∧ (w = [] ∨ w ∈ nameRests) := by
  have htail := nameRests_tail _ h
  rwa [List.head?_cons, Option.any_some, List.tail_cons, Bool.or_eq_true,
    beq_iff_eq, Bool.and_eq_true, Bool.or_eq_true, beq_iff_eq,
    List.contains_iff_mem] at htail

/-- A number is not spelled where something is missing of a name: none has four
hexadecimal digits behind the letter u. -/
theorem nameRests_ne_number {w rest rest' : List Char} {n : Nat}
    (hw : w ∈ nameRests) : w ++ rest ≠ 'u' :: hexCode n ++ rest' := by
  intro h
  cases w with
  | nil => cases nameRests_tail _ hw
  | cons x w =>
      obtain ⟨rfl, htext⟩ : x = 'u' ∧ w ++ rest = hexCode n ++ rest' :=
        List.cons_eq_cons.mp h
      obtain ⟨y, hy, hnone⟩ := List.any_eq_true.mp (nameRests_number _ hw rfl)
      have hcode : y ∈ (hexCode n).take 4 := by
        have hfront : y ∈ (w ++ rest).take 4 :=
          ((List.prefix_append w rest).take 4).subset hy
        rwa [htext, List.take_append_of_le_length
          (four_le_length_hexCode n)] at hfront
      obtain ⟨d, hd, rfl⟩ := mem_hexCode (List.mem_of_mem_take hcode)
      rw [hexDigit?_digitChar d hd] at hnone
      cases hnone

/-- Where what is missing of a name is spelled, its letters stand: it has no
hyphen, and nothing else is spelled with them. -/
theorem nameRests_spelled {w : List Char} (hw : w ∈ nameRests)
    (h : w ++ s.flatMap spelling = t.flatMap spelling) :
    w <+: t ∧ ∀ x ∈ w, isAlphanumeric x = true := by
  induction hn : (t.flatMap spelling).length using Nat.strongRecOn
    generalizing w s t with
  | ind n ih =>
      subst hn
      cases w with
      | nil => cases nameRests_tail _ hw
      | cons x w =>
          cases t with
          | nil => cases h
          | cons c t =>
              rw [List.flatMap_cons] at h ih
              have hc := spelling_spelledAs c
              generalize spelling c = cs at h hc ih
              cases hc with
              | plain hplain =>
                  obtain ⟨rfl, htext⟩ : x = c ∧
                      w ++ s.flatMap spelling = t.flatMap spelling :=
                    List.cons_eq_cons.mp h
                  rcases nameRests_cons hw with rfl | ⟨-, rfl | hrest⟩
                  · cases hplain
                  · refine ⟨List.cons_prefix_cons.mpr
                      ⟨rfl, List.nil_prefix⟩, ?_⟩
                    rw [List.forall_mem_singleton]
                    exact hplain
                  · have hlt : (t.flatMap spelling).length <
                        ([x] ++ t.flatMap spelling).length :=
                      Nat.lt_succ_self _
                    obtain ⟨hfront, hall⟩ := ih _ hlt hrest htext rfl
                    exact ⟨List.cons_prefix_cons.mpr ⟨rfl, hfront⟩,
                      List.forall_mem_cons.mpr ⟨hplain, hall⟩⟩
              | @name name hother hname =>
                  have hmem := mem_characterNames hname
                  obtain ⟨hnot, hbegins⟩ := nameRests_apart _ hw _ hmem
                  rcases List.append_eq_append_iff.mp h with
                    ⟨rest, hrest, hs⟩ | ⟨rest, hrest, -⟩
                  · obtain ⟨hrests, hhyphen⟩ := hbegins ⟨rest, hrest.symm⟩
                    rw [hrest, List.drop_left] at hrests hhyphen
                    have hlt : (s.flatMap spelling).length <
                        (name.toList ++ t.flatMap spelling).length := by
                      rw [hrest, List.append_assoc, ← hs, List.length_append]
                      exact Nat.lt_add_of_pos_left (Nat.succ_pos _)
                    obtain ⟨-, hall⟩ := ih _ hlt hrests hs.symm rfl
                    cases hall '-' hhyphen
                  · exact absurd ⟨rest, hrest.symm⟩ hnot
              | number hnumber => exact absurd h (nameRests_ne_number hw)

end

/-! ## Imitation -/

/-- A text that is spelled as another one is, although it has something else in
the place of the first character there. Either that is the letters of a name, and
what follows is spelled alike, or it is spelled with a number: then the text has
the letter u there, or a character with fewer digits in its own number. -/
inductive Imitates : List Char → List Char → Prop where
  | name {s t rest : List Char} {c : Char} {name : String}
      (hother : isAlphanumeric c = false) (hname : characterName? c = some name)
      (hletters : ∀ x ∈ name.toList, isAlphanumeric x = true)
      (ht : t = name.toList ++ rest)
      (h : rest.flatMap spelling = s.flatMap spelling) : Imitates t (c :: s)
  | number {s t : List Char} {c d : Char} (hc : Numbered c)
      (hd : d = 'u' ∨ Numbered d)
      (hless : (spelling d).length < (spelling c).length)
      (h : (d :: t).flatMap spelling = (c :: s).flatMap spelling) :
      Imitates (d :: t) (c :: s)

theorem Imitates.flatMap_eq {s t : List Char} (h : Imitates t s) :
    t.flatMap spelling = s.flatMap spelling := by
  cases h with
  | name hother hname hletters ht h =>
      rw [ht, List.flatMap_append, flatMap_spelling_plain hletters, h,
        List.flatMap_cons, spelling_of_name hother hname]
  | number _ _ _ h => exact h

section

variable {s t : List Char} {c d : Char}

theorem Imitates.of_name {name : String} (hplain : isAlphanumeric d = true)
    (hother : isAlphanumeric c = false) (hname : characterName? c = some name)
    (h : d :: t.flatMap spelling = name.toList ++ s.flatMap spelling) :
    Imitates (d :: t) (c :: s) := by
  have hrest := nameRests_begin _ (mem_characterNames hname)
  obtain ⟨x, rest, hcs, -⟩ := name_begins hname
  rw [hcs, List.tail_cons] at hrest
  rw [hcs] at h
  obtain ⟨rfl, htext⟩ : d = x ∧
      t.flatMap spelling = rest ++ s.flatMap spelling := List.cons_eq_cons.mp h
  obtain ⟨⟨behind, rfl⟩, hall⟩ := nameRests_spelled hrest htext.symm
  rw [List.flatMap_append, flatMap_spelling_plain hall,
    List.append_cancel_left_eq] at htext
  refine .name hother hname ?_ ?_ htext
  · rw [hcs]
    exact List.forall_mem_cons.mpr ⟨hplain, hall⟩
  · rw [hcs]
    rfl

theorem name_ne_number {name : String} {n : Nat} {rest rest' : List Char}
    (hname : characterName? c = some name) :
    name.toList ++ rest ≠ 'u' :: hexCode n ++ rest' := by
  intro h
  obtain ⟨x, _, hcs, hne⟩ := name_begins hname
  rw [hcs] at h
  exact hne (List.cons_eq_cons.mp h).1

theorem length_spelling_lt {n : Nat} (hd : spelling d = [d])
    (hc : spelling c = 'u' :: hexCode n) :
    (spelling d).length < (spelling c).length := by
  have hlength := four_le_length_hexCode n
  rw [hd, hc, List.length_singleton, List.length_cons]
  omega

/-- Where two texts that are spelled alike part, one imitates the other. -/
theorem imitates_of_flatMap_eq (hne : c ≠ d)
    (h : (c :: s).flatMap spelling = (d :: t).flatMap spelling) :
    Imitates (c :: s) (d :: t) ∨ Imitates (d :: t) (c :: s) := by
  have hsides : spelling c ++ s.flatMap spelling =
      spelling d ++ t.flatMap spelling := by
    rwa [List.flatMap_cons, List.flatMap_cons] at h
  have hc := spelling_spelledAs c
  have hd := spelling_spelledAs d
  generalize hcs : spelling c = cs at hc hsides
  generalize hds : spelling d = ds at hd hsides
  cases hc with
  | plain hcplain =>
      cases hd with
      | plain => exact absurd (List.cons_eq_cons.mp hsides).1 hne
      | name hother hname =>
          exact .inl (.of_name hcplain hother hname hsides)
      | number hnumber =>
          have hu : c = 'u' := (List.cons_eq_cons.mp hsides).1
          have hless := length_spelling_lt hcs hds
          exact .inl (.number hnumber (.inl hu) hless h)
  | name hcother hcname =>
      cases hd with
      | plain hdplain =>
          exact .inr (.of_name hdplain hcother hcname hsides.symm)
      | name _ hdname =>
          have hcmem := mem_characterNames hcname
          have hdmem := mem_characterNames hdname
          rcases List.prefix_or_prefix_of_prefix ⟨_, hsides⟩ ⟨_, rfl⟩ with
            hfront | hfront
          · exact absurd (congrArg Prod.fst
              (characterNames_apart _ hcmem _ hdmem hfront)) hne
          · exact absurd (congrArg Prod.fst
              (characterNames_apart _ hdmem _ hcmem hfront)).symm hne
      | number => exact absurd hsides (name_ne_number hcname)
  | number hcnumber =>
      cases hd with
      | plain hdplain =>
          have hu : d = 'u' := (List.cons_eq_cons.mp hsides).1.symm
          have hless := length_spelling_lt hds hcs
          exact .inr (.number hcnumber (.inl hu) hless h.symm)
      | name _ hdname => exact absurd hsides.symm (name_ne_number hdname)
      | number hdnumber =>
          rcases Nat.lt_trichotomy (spelling c).length (spelling d).length with
            hless | hequal | hless
          · exact .inl (.number hdnumber (.inr hcnumber) hless h)
          · rw [hcs, hds] at hequal
            have hcodes := List.append_inj_left hsides hequal
            have hnumbers := hexCode_inj (List.cons_eq_cons.mp hcodes).2
            exact absurd (Char.toNat_inj.mp hnumbers) hne
          · exact .inr (.number hcnumber (.inr hdnumber) hless h.symm)

end

/-- Two terms that go on behind a common beginning so that one imitates the
other. -/
def Mistakable (left right : String) : Prop :=
  ∃ begin s t, left.toList = begin ++ s ∧ right.toList = begin ++ t ∧
    (Imitates s t ∨ Imitates t s)

theorem Mistakable.flatMap_eq {left right : String}
    (h : Mistakable left right) :
    left.toList.flatMap spelling = right.toList.flatMap spelling := by
  obtain ⟨begin, s, t, hs, ht, hsides⟩ := h
  rw [hs, ht, List.flatMap_append, List.flatMap_append]
  rcases hsides with himitates | himitates
  · rw [himitates.flatMap_eq]
  · rw [himitates.flatMap_eq]

theorem mistakable_of_flatMap_eq {left right : List Char} (hne : left ≠ right)
    (h : left.flatMap spelling = right.flatMap spelling) :
    ∃ begin s t, left = begin ++ s ∧ right = begin ++ t ∧
      (Imitates s t ∨ Imitates t s) := by
  have hnonempty : ∀ (c : Char) (cs : List Char),
      (c :: cs).flatMap spelling ≠ [] := by
    intro c cs hnil
    rw [List.flatMap_cons, List.append_eq_nil_iff] at hnil
    exact (spelling_spelledAs c).ne_nil hnil.1
  induction left generalizing right with
  | nil =>
      cases right with
      | nil => exact absurd rfl hne
      | cons d t => exact absurd h.symm (hnonempty d t)
  | cons c s ih =>
      cases right with
      | nil => exact absurd h (hnonempty c s)
      | cons d t =>
          by_cases hcd : c = d
          · subst hcd
            rw [List.flatMap_cons, List.flatMap_cons,
              List.append_cancel_left_eq] at h
            obtain ⟨begin, s', t', hs, ht, hsides⟩ :=
              ih (fun heq => hne (heq ▸ rfl)) h
            exact ⟨c :: begin, s', t', congrArg (c :: ·) hs,
              congrArg (c :: ·) ht, hsides⟩
          · exact ⟨[], _, _, rfl, rfl, imitates_of_flatMap_eq hcd h⟩

/-! ## Terms -/

theorem not_isBlank_symbol (style : NoteSymbols) :
    style.symbols.all fun symbol => symbol.toList.all fun c => !isBlank c := by
  cases style
  all_goals decide

theorem noteNumber?_isDigits {label digits : String}
    (h : noteNumber? label = some digits) :
    Decimal.isDigits digits.toList = true := by
  rw [noteNumber?] at h
  split at h
  · split at h
    · next hdigits =>
        cases h
        rwa [String.toList_ofList]
    · cases h
  · cases h

/-- A term has no blanks at its ends, as its label without them has none. -/
theorem trim_noteTerm (style : NoteSymbols) (label : String) :
    trim (noteTerm style label) = noteTerm style label := by
  rw [noteTerm]
  split
  · exact Markup.trim_trim label
  · next digits hdigits =>
      apply Column.trim_eq_self
      cases hsymbol : (Decimal.nat64? digits).bind style.symbol? with
      | none =>
          have hall := (Column.isDigits_iff.mp (noteNumber?_isDigits hdigits)).2
          intro c hc
          have hrange := Column.toNat_of_isDigit (List.all_eq_true.mp hall c hc)
          exact Column.not_isBlank (by omega) (by omega)
      | some symbol =>
          obtain ⟨n, -, hn⟩ := Option.bind_eq_some_iff.mp hsymbol
          cases n with
          | zero => cases hn
          | succ n =>
              have hall := List.all_eq_true.mp (not_isBlank_symbol style) symbol
                (List.mem_of_getElem? hn)
              intro c hc
              have hnot := List.all_eq_true.mp hall c hc
              rwa [Bool.not_eq_true'] at hnot

theorem noteTarget_toList (style : NoteSymbols) (label : String) :
    (noteTarget style label).toList =
      (noteTerm style label).toList.flatMap spelling := by
  rw [noteTarget, spelled_toList, trim_noteTerm]

theorem noteTarget_plain_or_hyphen (style : NoteSymbols) (label : String) :
    ∀ x ∈ (noteTarget style label).toList,
      isAlphanumeric x = true ∨ x = '-' := by
  intro x hx
  rw [noteTarget_toList] at hx
  obtain ⟨c, _, hx⟩ := List.mem_flatMap.mp hx
  exact (spelling_spelledAs c).plain_or_hyphen x hx

theorem noteTarget_congr {left right : String} (style : NoteSymbols)
    (h : trim left = trim right) :
    noteTarget style left = noteTarget style right := by
  simp only [noteTarget, noteTerm, h]

theorem noteLabel_inj {α : Type} {layout : Layout α} {style : NoteSymbols}
    {left right : String}
    (h : layout.noteLabel style left = layout.noteLabel style right) :
    noteTarget style left = noteTarget style right := by
  have htext := congrArg String.toList h
  simp only [Layout.noteLabel, String.toList_append] at htext
  exact String.toList_inj.mp (List.append_cancel_left htext)

/-- Notes with different terms have different targets, in references and in a
table, exactly unless one of the terms imitates the other. -/
theorem noteTarget_ne_of_noteTerm_ne {style : NoteSymbols} {left right : String}
    (hne : noteTerm style left ≠ noteTerm style right) :
    (noteTarget style left ≠ noteTarget style right ↔
      ¬Mistakable (noteTerm style left) (noteTerm style right)) ∧
    ∀ {α : Type} (layout : Layout α),
      layout.noteLabel style left ≠ layout.noteLabel style right ↔
        ¬Mistakable (noteTerm style left) (noteTerm style right) := by
  have htargets : noteTarget style left = noteTarget style right ↔
      Mistakable (noteTerm style left) (noteTerm style right) := by
    rw [← String.toList_inj, noteTarget_toList, noteTarget_toList]
    have hlists := fun h => hne (String.toList_inj.mp h)
    exact ⟨mistakable_of_flatMap_eq hlists, Mistakable.flatMap_eq⟩
  refine ⟨not_congr htargets, fun layout => not_congr ?_⟩
  rw [← htargets]
  refine ⟨noteLabel_inj, fun h => ?_⟩
  rw [Layout.noteLabel, Layout.noteLabel, h]

/-- The second symbol and a text that has only a part of its name. -/
theorem noteTarget_ne_dag :
    noteTarget .lion "*2" ≠ noteTarget .lion "dag" ∧
      ∀ {α : Type} (layout : Layout α),
        layout.noteLabel .lion "*2" ≠ layout.noteLabel .lion "dag" := by
  have hne : noteTerm .lion "*2" ≠ noteTerm .lion "dag" := by decide
  have hclear : ¬Mistakable (noteTerm .lion "*2") (noteTerm .lion "dag") := by
    intro h
    have heq := h.flatMap_eq
    revert heq
    decide +kernel
  have h := noteTarget_ne_of_noteTerm_ne hne
  exact ⟨h.1.mpr hclear, fun layout => (h.2 layout).mpr hclear⟩

/-- The second symbol and a text that is its name. -/
theorem noteTarget_dagger :
    noteTerm .lion "*2" ≠ noteTerm .lion "dagger" ∧
      noteTarget .lion "*2" = noteTarget .lion "dagger" := by
  decide +kernel

end Tabulation
