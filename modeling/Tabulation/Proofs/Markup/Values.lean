import Mathlib.Data.List.DropRight
import Tabulation.Markup.Reader
import Tabulation.Proofs.Layout.Columns
import Tabulation.Proofs.Layout.Placement
import Tabulation.Proofs.Options.Entries

/-!
# What attributes give

The attributes of a tag have different names. So what they make of a cell or of
a row can be read off each of them by itself, whatever their order is: the
counts of a cell are those that its tag names, or one, and no value gets through
that is out of the range which its attribute has.
-/

namespace Tabulation

open Xml (Tag)

/-! ## Names of attributes -/

namespace Xml

theorem attributesFrom_nodup {length : Nat} {seen : Entries Nat}
    {cs : List Char} {es : Entries String}
    (h : attributesFrom length seen cs = .ok es) :
    es.keys.Nodup ∧ ∀ key ∈ es.keys, seen.get? key = none := by
  fun_induction attributesFrom length seen cs generalizing es with
  | case1 =>
      cases h
      exact ⟨List.nodup_nil, nofun⟩
  | case2 => cases h
  | case3 => cases h
  | case4 => cases h
  | case5 => cases h
  | case6 seen _ _ _ _ _ _ _ key _ hunseen =>
      rename_i ih
      obtain ⟨es, hes, rfl⟩ := Except.map_eq_ok.mp h
      obtain ⟨hnodup, hfresh⟩ := ih hes
      have hnew : key ∉ Entries.keys es := by
        intro hkey
        have hnone := hfresh key hkey
        rw [Entries.get?_insert_self] at hnone
        cases hnone
      refine ⟨List.nodup_cons.mpr ⟨hnew, hnodup⟩,
        List.forall_mem_cons.mpr ⟨hunseen, fun other hother => ?_⟩⟩
      have hne : other ≠ key := fun heq => hnew (heq ▸ hother)
      have hnone := hfresh other hother
      rwa [Entries.get?_insert_of_ne hne] at hnone

theorem Tag.attributes_nodup {tag : Tag} {es : Entries String}
    (h : tag.attributes = .ok es) : es.keys.Nodup :=
  (attributesFrom_nodup h).1

end Xml

namespace Markup

open Text

/-! ## Values -/

theorem countOf_eq_ok {key value : String} {n : Nat} :
    countOf key value = .ok n ↔
      1 ≤ n ∧ Decimal.nat64? (trim value) = some n := by
  rw [countOf]
  split
  · next m hm =>
      rw [hm, Except.ok.injEq, Option.some.injEq]
      refine ⟨?_, fun h => h.2⟩
      rintro rfl
      exact ⟨Nat.le_add_left 1 m, rfl⟩
  · next hother =>
      refine iff_of_false nofun ?_
      rintro ⟨hpos, hn⟩
      obtain ⟨m, rfl⟩ := Nat.exists_eq_add_of_le' hpos
      exact hother m hn

theorem headingOf_le {value : String} {n : Nat} (h : headingOf value = .ok n) :
    n ≤ 2 := by
  rw [headingOf] at h
  split at h
  · cases h
    decide
  · split at h
    · cases h
      decide
    · split at h
      · split at h
        · next hle =>
            cases h
            exact hle
        · cases h
      · cases h

theorem rangeOf_pos {key part : String} {range : Nat × Nat}
    (h : rangeOf key part = .ok range) : 1 ≤ range.1 ∧ 1 ≤ range.2 := by
  rw [rangeOf] at h
  split at h
  all_goals
    obtain ⟨first, hfirst, h⟩ := Except.bind_eq_ok.mp h
    obtain ⟨last, hlast, h⟩ := Except.bind_eq_ok.mp h
    cases h
    exact ⟨(countOf_eq_ok.mp hfirst).1, (countOf_eq_ok.mp hlast).1⟩

theorem rangesOf_pos {key value : String} {ranges : List (Nat × Nat)}
    (h : rangesOf key value = .ok ranges) :
    ∀ range ∈ ranges, 1 ≤ range.1 ∧ 1 ≤ range.2 := by
  intro range hrange
  obtain ⟨i, hi⟩ := List.getElem?_of_mem hrange
  obtain ⟨_, _, hread⟩ := forall₂_at (mapM_gives h).flip hi
  exact rangeOf_pos hread

/-- Trimming takes the blanks from both ends, and there are none left. -/
theorem trim_trim (s : String) : trim (trim s) = trim s := by
  have hhead := List.dropWhile_idempotent isBlank s.toList
  rw [trim, trim, String.toList_ofList]
  generalize s.toList.dropWhile isBlank = cs at hhead
  have hfront : (trimRight cs).dropWhile isBlank = trimRight cs := by
    obtain ⟨behind, hcs⟩ := List.rdropWhile_prefix isBlank cs
    change trimRight cs ++ behind = cs at hcs
    rw [List.dropWhile_eq_self_iff] at hhead ⊢
    intro hpos
    have hblank := hhead (by rw [← hcs, List.length_append]; omega)
    rwa [List.getElem_of_eq hcs.symm, List.getElem_append_left hpos] at hblank
  rw [hfront]
  exact congrArg String.ofList (List.rdropWhile_idempotent isBlank cs)

theorem nonBlank?_eq_some {value label : String}
    (h : nonBlank? value = some label) : label ≠ "" ∧ trim label = label := by
  rw [nonBlank?] at h
  obtain ⟨hne, h⟩ := Option.ite_none_left_eq_some.mp h
  cases h
  exact ⟨fun hempty => hne (by rw [hempty]; rfl), trim_trim value⟩

/-! ## Cells -/

/-- The count that the attribute of a name gives, or another one if it is
missing. -/
def given (key : String) (es : Entries String) (default : Nat) : Nat :=
  match es.get? key with
  | some value => (Decimal.nat64? (trim value)).getD 0
  | none => default

/-- What one attribute can do to a cell. -/
theorem setCell_cases {c c' : RepeatedCell} {key value : String}
    (h : setCell c key value = .ok c') :
    (key = "col_span" ∧ ∃ span, countOf key value = .ok span ∧
      c' = { c with cell := { c.cell with span } }) ∨
    (∃ heading, heading ≤ 2 ∧
      c' = { c with cell := { c.cell with heading } }) ∨
    (∃ vertical, c' = { c with cell := { c.cell with vertical } }) ∨
    (key = "repeat" ∧ ∃ times, countOf key value = .ok times ∧
      c' = { c with times }) ∨
    c' = c := by
  rw [setCell.eq_def] at h
  split at h
  · obtain ⟨span, hspan, rfl⟩ := Except.map_eq_ok.mp h
    exact .inl ⟨rfl, span, hspan, rfl⟩
  · obtain ⟨heading, hheading, rfl⟩ := Except.map_eq_ok.mp h
    exact .inr (.inl ⟨heading, headingOf_le hheading, rfl⟩)
  · obtain ⟨vertical, _, rfl⟩ := Except.map_eq_ok.mp h
    exact .inr (.inr (.inl ⟨vertical, rfl⟩))
  · obtain ⟨times, htimes, rfl⟩ := Except.map_eq_ok.mp h
    exact .inr (.inr (.inr (.inl ⟨rfl, times, htimes, rfl⟩)))
  · cases h
    exact .inr (.inr (.inr (.inr rfl)))

/-- A count of a cell that the attribute of one name sets, and no other. -/
structure Sets (key : String) (count : RepeatedCell → Nat) : Prop where
  counted : ∀ {c c' : RepeatedCell} {value : String},
    setCell c key value = .ok c' → countOf key value = .ok (count c')
  kept : ∀ {c c' : RepeatedCell} {other value : String}, other ≠ key →
    setCell c other value = .ok c' → count c' = count c

theorem sets_repeat : Sets "repeat" RepeatedCell.times where
  counted h := by
    obtain ⟨_, hcount, rfl⟩ := Except.map_eq_ok.mp h
    exact hcount
  kept hne h := by
    rcases setCell_cases h with ⟨_, _, _, rfl⟩ | ⟨_, _, rfl⟩ | ⟨_, rfl⟩ |
      ⟨heq, _⟩ | rfl
    · rfl
    · rfl
    · rfl
    · exact absurd heq hne
    · rfl

theorem sets_span : Sets "col_span" fun c => c.cell.span where
  counted h := by
    obtain ⟨_, hcount, rfl⟩ := Except.map_eq_ok.mp h
    exact hcount
  kept hne h := by
    rcases setCell_cases h with ⟨heq, _⟩ | ⟨_, _, rfl⟩ | ⟨_, rfl⟩ |
      ⟨_, _, _, rfl⟩ | rfl
    · exact absurd heq hne
    · rfl
    · rfl
    · rfl
    · rfl

theorem setCell_heading {c c' : RepeatedCell} {key value : String}
    (hc : c.cell.heading ≤ 2) (h : setCell c key value = .ok c') :
    c'.cell.heading ≤ 2 := by
  rcases setCell_cases h with ⟨_, _, _, rfl⟩ | ⟨_, hle, rfl⟩ | ⟨_, rfl⟩ |
    ⟨_, _, _, rfl⟩ | rfl
  · exact hc
  · exact hle
  · exact hc
  · exact hc
  · exact hc

section

variable {c c' : RepeatedCell} {es : Entries String}

theorem setCellAttributes_heading (hc : c.cell.heading ≤ 2)
    (h : setCellAttributes c es = .ok c') : c'.cell.heading ≤ 2 := by
  induction es generalizing c with
  | nil =>
      rw [setCellAttributes] at h
      cases h
      exact hc
  | cons e es ih =>
      rw [setCellAttributes] at h
      obtain ⟨after, hafter, h⟩ := Except.bind_eq_ok.mp h
      exact ih (setCell_heading hc hafter) h

theorem given_cons_self {key value : String} {n : Nat}
    (hvalue : countOf key value = .ok n) (default : Nat) :
    given key ((key, value) :: es) default = n := by
  rw [given, Entries.get?, if_pos rfl]
  simp only [(countOf_eq_ok.mp hvalue).2, Option.getD_some]

theorem given_cons_of_ne {key name : String} (h : name ≠ key) (value : String)
    (default : Nat) :
    given key ((name, value) :: es) default = given key es default := by
  rw [given, Entries.get?, if_neg h, given]

/-- The attributes of different names set a count to what the one of its name
gives. -/
theorem Sets.given {key : String} {count : RepeatedCell → Nat}
    (hsets : Sets key count) (hkeys : es.keys.Nodup)
    (h : setCellAttributes c es = .ok c') :
    count c' = given key es (count c) ∧ (1 ≤ count c → 1 ≤ count c') := by
  induction es generalizing c with
  | nil =>
      rw [setCellAttributes] at h
      cases h
      exact ⟨rfl, id⟩
  | cons e es ih =>
      obtain ⟨name, value⟩ := e
      obtain ⟨hname, hkeys⟩ := List.nodup_cons.mp hkeys
      rw [setCellAttributes] at h
      obtain ⟨after, hafter, h⟩ := Except.bind_eq_ok.mp h
      obtain ⟨hcount, hpos⟩ := ih hkeys h
      by_cases hkey : name = key
      · subst hkey
        have hvalue := hsets.counted hafter
        rw [Markup.given, Entries.get?_eq_none hname] at hcount
        rw [given_cons_self hvalue]
        exact ⟨hcount, fun _ => hpos (countOf_eq_ok.mp hvalue).1⟩
      · rw [hsets.kept hkey hafter] at hcount hpos
        rw [given_cons_of_ne hkey]
        exact ⟨hcount, hpos⟩

end

/-- A count of the element that begins with a tag. -/
def countIn (key : String) (tag : Tag) : Nat :=
  match tag.attributes with
  | .ok es => given key es 1
  | .error _ => 0

/-- The cells that stand for one element: one cell, as many times as this says,
and over as many columns. -/
def Repeats (tag : Tag) (group : List Cell) : Prop :=
  ∃ c : Cell, group = List.replicate (countIn "repeat" tag) c ∧
    c.span = countIn "col_span" tag ∧ 1 ≤ c.span ∧ c.heading ≤ 2

theorem cellsOf_repeats {tag : Tag} {position : Nat} {es : Entries String}
    {text : String} {cells : List Cell} (htag : tagAttributes tag = .ok es)
    (h : cellsOf position es text = .ok cells) : Repeats tag cells := by
  have hes := Except.mapError_eq_ok.mp htag
  rw [cellsOf] at h
  obtain ⟨c, hc, h⟩ := Except.bind_eq_ok.mp h
  cases h
  have hset := Except.mapError_eq_ok.mp hc
  have hkeys := Xml.Tag.attributes_nodup hes
  obtain ⟨htimes, _⟩ := sets_repeat.given hkeys hset
  obtain ⟨hspan, hpos⟩ := sets_span.given hkeys hset
  refine ⟨c.cell, ?_, ?_, hpos (Nat.le_refl 1),
    setCellAttributes_heading (Nat.zero_le 2) hset⟩
  · rw [countIn, hes, htimes]
  · rw [countIn, hes]
    exact hspan

/-! ## Rows -/

theorem setRow_cases {row row' : Row} {key value : String}
    (h : setRow row key value = .ok row') :
    row'.slots = row.slots ∧ (row'.underlines = row.underlines ∨
      ∀ range ∈ row'.underlines, 1 ≤ range.1 ∧ 1 ≤ range.2) := by
  rw [setRow.eq_def] at h
  split at h
  · obtain ⟨_, hranges, rfl⟩ := Except.map_eq_ok.mp h
    exact ⟨rfl, .inr (rangesOf_pos hranges)⟩
  · obtain ⟨_, _, rfl⟩ := Except.map_eq_ok.mp h
    exact ⟨rfl, .inl rfl⟩
  · obtain ⟨_, _, rfl⟩ := Except.map_eq_ok.mp h
    exact ⟨rfl, .inl rfl⟩
  · obtain ⟨_, _, rfl⟩ := Except.map_eq_ok.mp h
    exact ⟨rfl, .inl rfl⟩
  · cases h
    exact ⟨rfl, .inl rfl⟩

theorem setRowAttributes_keeps {row row' : Row} {es : Entries String}
    (hrow : ∀ range ∈ row.underlines, 1 ≤ range.1 ∧ 1 ≤ range.2)
    (h : setRowAttributes row es = .ok row') :
    row'.slots = row.slots ∧
      ∀ range ∈ row'.underlines, 1 ≤ range.1 ∧ 1 ≤ range.2 := by
  induction es generalizing row with
  | nil =>
      rw [setRowAttributes] at h
      cases h
      exact ⟨rfl, hrow⟩
  | cons e es ih =>
      rw [setRowAttributes] at h
      obtain ⟨after, hafter, h⟩ := Except.bind_eq_ok.mp h
      obtain ⟨hslots, hunderlines⟩ := setRow_cases hafter
      have hpos : ∀ range ∈ after.underlines, 1 ≤ range.1 ∧ 1 ≤ range.2 := by
        rcases hunderlines with heq | hpos
        · rwa [heq]
        · exact hpos
      obtain ⟨hrest, hall⟩ := ih hpos h
      exact ⟨hrest.trans hslots, hall⟩

theorem rowOf_eq_ok {position : Nat} {tag : Tag} {cells : List Cell} {row : Row}
    (h : rowOf position tag cells = .ok row) :
    row.slots = (Row.spanned (cells.map .cell)).slots ∧
      ∀ range ∈ row.underlines, 1 ≤ range.1 ∧ 1 ≤ range.2 := by
  rw [rowOf] at h
  split at h
  · cases h
  · refine setRowAttributes_keeps ?_ (Except.mapError_eq_ok.mp h)
    exact nofun

/-! ## Notes -/

theorem noteLabelOf_eq_ok {position : Nat} {tag : Tag} {label : String}
    (h : noteLabelOf position tag = .ok label) :
    label ≠ "" ∧ trim label = label := by
  rw [noteLabelOf] at h
  split at h
  · cases h
  · split at h
    · next hlabel =>
        cases h
        obtain ⟨_, _, hvalue⟩ := Option.bind_eq_some_iff.mp hlabel
        exact nonBlank?_eq_some hvalue
    · cases h

end Markup

end Tabulation
