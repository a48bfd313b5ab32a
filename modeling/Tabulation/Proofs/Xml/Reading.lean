import Mathlib
import Tabulation.Proofs.Xml.Tree
import Tabulation.Xml.Stream

/-!
# What is written reads back

Markup is written tag by tag, and whether the tags of a text match is for its
reader to say. The reader here keeps the elements that are open on a stack: an
end tag has to close the innermost one, and at the end of the text none may be
open. It gives what it has read as a tree again, in which a text comes as its
characters, because nothing in the markup says where one text ends and another
begins.

A tree with names that are names and no markup put in as it is reads back as
itself. The induction is over the tree, with any text behind what is written
and any reading in front of it.
-/

namespace Tabulation.Xml

open Text

/-! ## Escaped text -/

theorem splitReference_append {body : List Char}
    (h : ∀ c ∈ body, c ≠ ';' ∧ c ≠ '&') (rest : List Char) :
    splitReference (body ++ ';' :: rest) = some (body, rest) := by
  induction body with
  | nil => simp [splitReference]
  | cons c body ih =>
      obtain ⟨hc, hbody⟩ := List.forall_mem_cons.mp h
      rw [List.cons_append, splitReference, if_neg hc.1, if_neg hc.2, ih hbody]
      rfl

/-- The characters that are written as references. -/
def marks : List Char := ['<', '>', '&', '\'', '"']

/-- How a character is written: as it is, or by a reference. -/
inductive Escaped (c : Char) : List Char → Prop where
  | plain (h : c ∉ marks) : Escaped c [c]
  | reference (body : List Char) (h : body.all Char.isAlpha = true)
      (refers : ∀ start stop, reference start stop body = .ok c) :
      Escaped c ('&' :: (body ++ [';']))

theorem escapeChar_escaped (c : Char) : Escaped c (escapeChar c) := by
  rw [escapeChar]
  split
  · next h => exact h ▸ .reference "lt".toList (by decide) fun _ _ => rfl
  split
  · next h => exact h ▸ .reference "gt".toList (by decide) fun _ _ => rfl
  split
  · next h => exact h ▸ .reference "amp".toList (by decide) fun _ _ => rfl
  split
  · next h => exact h ▸ .reference "apos".toList (by decide) fun _ _ => rfl
  split
  · next h => exact h ▸ .reference "quot".toList (by decide) fun _ _ => rfl
  · exact .plain (by simp [marks, *])

theorem splitReference_reference {body : List Char}
    (h : body.all Char.isAlpha = true) (rest : List Char) :
    splitReference (body ++ [';'] ++ rest) = some (body, rest) := by
  rw [List.append_assoc]
  refine splitReference_append (fun d hd => ?_) rest
  have hd := List.all_eq_true.mp h d hd
  constructor <;> rintro rfl <;> revert hd <;> decide

/-- The only mark in what is written for a character begins a reference. -/
theorem Escaped.mark {c d : Char} {cs : List Char} (h : Escaped c cs)
    (hd : d ∈ cs) (hmark : d ∈ marks) : d = '&' := by
  cases h with
  | plain hc =>
      rw [List.mem_singleton.mp hd] at hmark
      exact absurd hmark hc
  | reference body hbody _ =>
      rcases List.mem_cons.mp hd with rfl | hd
      · rfl
      · rcases List.mem_append.mp hd with hd | hd
        · have halpha : marks.all (!·.isAlpha) = true := by decide
          have hnot := List.all_eq_true.mp halpha d hmark
          rw [List.all_eq_true.mp hbody d hd] at hnot
          cases hnot
        · rw [List.mem_singleton.mp hd] at hmark
          exact absurd hmark (by decide)

theorem not_mem_escaped {m : Char} (hmark : m ∈ marks) (hm : m ≠ '&')
    (cs : List Char) : m ∉ cs.flatMap escapeChar := by
  intro hmem
  obtain ⟨c, _, hc⟩ := List.mem_flatMap.mp hmem
  exact hm ((escapeChar_escaped c).mark hc hmark)

theorem unescapeFrom_escaped (length position : Nat) (cs : List Char) :
    unescapeFrom length position (cs.flatMap escapeChar) = .ok cs := by
  induction cs generalizing position with
  | nil => rw [List.flatMap_nil, unescapeFrom]
  | cons c cs ih =>
      rw [List.flatMap_cons]
      have h := escapeChar_escaped c
      generalize escapeChar c = written at h
      cases h with
      | plain hc =>
          rw [List.singleton_append, unescapeFrom, if_neg (by
            rintro rfl
            exact hc (by decide)), ih]
          rfl
      | reference body hbody refers =>
          rw [List.cons_append, unescapeFrom, if_pos rfl]
          split
          · next hsplit =>
              rw [splitReference_reference hbody] at hsplit
              cases hsplit
          · next body' behind hsplit =>
              rw [splitReference_reference hbody] at hsplit
              cases hsplit
              simp only [refers, ih]
              rfl

theorem unescape_escape (s : String) : unescape (escape s) = .ok s := by
  rw [unescape, escape, String.toList_ofList, unescapeFrom_escaped]
  exact congrArg Except.ok (String.ofList_toList)

/-! ## Tags -/

def isNameChar (c : Char) : Bool :=
  c.isAlpha || c = ':' || c = '-'

/-- A name that cannot be mistaken for anything else in a tag. -/
def isName (name : String) : Bool :=
  !name.isEmpty && name.toList.all isNameChar

/-- The names in a tag, its own and those of its attributes, of which none comes
twice. -/
def areNames (name : String) (keys : List String) : Bool :=
  isName name && keys.all isName && decide keys.Nodup

theorem isName_cons {name : String} (h : isName name = true) :
    ∃ c cs, name.toList = c :: cs ∧ ∀ d ∈ c :: cs, isNameChar d = true := by
  rw [isName, Bool.and_eq_true, List.all_eq_true] at h
  cases heq : name.toList with
  | nil =>
      rw [String.toList_eq_nil_iff] at heq
      rw [heq] at h
      exact absurd h.1 (by decide)
  | cons c cs => exact ⟨c, cs, rfl, heq ▸ h.2⟩

theorem isNameChar_not {c : Char} (h : isNameChar c = true) :
    c ∉ ['>', '\'', '"', '/', '=', ' ', '\r', '\n', '\t'] := by
  have hall : ['>', '\'', '"', '/', '=', ' ', '\r', '\n', '\t'].all
      (!isNameChar ·) = true := by decide
  intro hc
  have hnot := List.all_eq_true.mp hall c hc
  rw [h] at hnot
  cases hnot

/-- How an attribute is written. -/
def attributeChars (a : String × String) : List Char :=
  ' ' :: (a.1.toList ++ '=' :: '"' :: (a.2.toList.flatMap escapeChar ++ ['"']))

theorem tagText_toList (name : String) (attributes : Attributes) :
    (tagText name attributes).toList =
      name.toList ++ attributes.flatMap attributeChars := by
  rw [tagText, String.toList_append, String.toList_join, List.flatMap_map]
  congr 1
  refine List.flatMap_congr fun a _ => ?_
  simp [attributeChars, escape]

/-- Characters that do not end the tag they stand in, by the quotes that are
open in front of them and behind them. -/
def Inside (quote : Option Char) (cs : List Char) (quote' : Option Char) :
    Prop :=
  ∀ rest, splitTag quote (cs ++ rest) =
    (splitTag quote' rest).map fun p => (cs ++ p.1, p.2)

namespace Inside

variable {q q' q'' : Option Char} {cs ds : List Char}

theorem nil : Inside q [] q := fun rest => by simp

theorem cons {c : Char} (hc : q = none → c ≠ '>')
    (h : Inside (quoteAfter c q) cs q') : Inside q (c :: cs) q' := by
  intro rest
  rw [List.cons_append, splitTag, if_neg (fun hend => hc hend.1 hend.2), h,
    Option.map_map]
  rfl

theorem append (h : Inside q cs q') (h' : Inside q' ds q'') :
    Inside q (cs ++ ds) q'' := by
  intro rest
  rw [List.append_assoc, h, h', Option.map_map]
  simp [Function.comp_def]

theorem plain (h : ∀ c ∈ cs, c ∉ ['>', '\'', '"']) : Inside none cs none := by
  induction cs with
  | nil => exact .nil
  | cons c cs ih =>
      obtain ⟨hc, hcs⟩ := List.forall_mem_cons.mp h
      simp only [List.mem_cons, List.not_mem_nil, not_or] at hc
      refine .cons (fun _ => hc.1) ?_
      rw [quoteAfter, if_neg (not_or.mpr ⟨hc.2.1, hc.2.2.1⟩)]
      exact ih hcs

theorem quoted (h : '"' ∉ cs) : Inside (some '"') cs (some '"') := by
  induction cs with
  | nil => exact .nil
  | cons c cs ih =>
      rw [List.mem_cons, not_or] at h
      refine .cons (fun hnone => nomatch hnone) ?_
      rw [quoteAfter, if_neg (Ne.symm h.1)]
      exact ih h.2

theorem name {n : String} (h : isName n = true) :
    Inside none n.toList none := by
  obtain ⟨c, cs, heq, hchars⟩ := isName_cons h
  rw [heq]
  refine .plain fun d hd hmem => isNameChar_not (hchars d hd) ?_
  exact List.mem_append_left ['/', '=', ' ', '\r', '\n', '\t'] hmem

theorem keyed {a : String × String} (h : isName a.1 = true) :
    Inside none (attributeChars a) none := by
  refine .cons (fun _ => by decide) (.append (.name h) ?_)
  refine .cons (fun _ => by decide) (.cons (fun _ => by decide) ?_)
  refine .append (.quoted ?_) (.cons (fun hnone => nomatch hnone) .nil)
  exact not_mem_escaped (by decide) (by decide) _

theorem attributes {as : Attributes}
    (h : ∀ a ∈ as, isName a.1 = true) :
    Inside none (as.flatMap attributeChars) none := by
  induction as with
  | nil => exact .nil
  | cons a as ih =>
      obtain ⟨ha, has⟩ := List.forall_mem_cons.mp h
      exact .append (.keyed ha) (ih has)

theorem ends (h : Inside none cs none) (rest : List Char) :
    splitTag none (cs ++ '>' :: rest) = some (cs, rest) := by
  rw [h, splitTag, if_pos ⟨rfl, rfl⟩]
  simp

end Inside

theorem isName_not_space {name : String} (h : isName name = true) {c : Char}
    (hc : c ∈ name.toList) : isSpace c = false := by
  obtain ⟨d, cs, heq, hchars⟩ := isName_cons h
  have hnot := isNameChar_not (hchars c (heq ▸ hc))
  simp only [List.mem_cons, List.not_mem_nil, not_or] at hnot
  simp [isSpace, hnot]

/-- A key ends at its equals sign. -/
theorem splitKey_written {key : String} (h : isName key = true) (length : Nat)
    (rest : List Char) : ∃ c cs, key.toList = c :: cs ∧
      skipSpace (' ' :: (key.toList ++ '=' :: rest)) =
        c :: (cs ++ '=' :: rest) ∧
      splitKey length c (cs ++ '=' :: rest) = .ok (c :: cs, rest) := by
  obtain ⟨c, cs, heq, hchars⟩ := isName_cons h
  have hspace := isName_not_space h (heq ▸ List.mem_cons_self)
  refine ⟨c, cs, heq, ?_, ?_⟩
  · rw [heq, skipSpace, List.dropWhile_cons_of_pos (by decide),
      List.cons_append, List.dropWhile_cons_of_neg (by simp [hspace])]
  · have hkey : ∀ d ∈ cs, (!(decide (d = '=') || isSpace d)) = true := by
      intro d hd
      have hd := List.mem_cons_of_mem c hd
      have hnot := isNameChar_not (hchars d hd)
      simp only [List.mem_cons, List.not_mem_nil, not_or] at hnot
      simp [hnot, isName_not_space h (heq ▸ hd)]
    rw [splitKey]
    simp only [List.takeWhile_append_of_pos hkey,
      List.dropWhile_append_of_pos hkey]
    rw [List.takeWhile_cons_of_neg (by decide),
      List.dropWhile_cons_of_neg (by decide), skipSpace,
      List.dropWhile_cons_of_neg (by decide), List.append_nil]
    rfl

theorem splitQuote_written {cs : List Char} (h : '"' ∉ cs) (rest : List Char) :
    splitQuote '"' (cs ++ '"' :: rest) = some (cs, rest) := by
  induction cs with
  | nil => simp [splitQuote]
  | cons c cs ih =>
      rw [List.mem_cons, not_or] at h
      rw [List.cons_append, splitQuote, if_neg (Ne.symm h.1), ih h.2]
      rfl

/-- One attribute is read and the rest is left. -/
theorem attributesFrom_eq {length : Nat} {seen : Entries Nat}
    {cs rest key after value behind : List Char} {c : Char} {v : String}
    (h : skipSpace cs = c :: rest)
    (hkey : splitKey length c rest = .ok (key, after))
    (hfresh : seen.get? (String.ofList key) = none)
    (hvalue : splitValue length after = .ok (value, behind))
    (hv : unescape (String.ofList value) = .ok v) :
    attributesFrom length seen cs =
      (attributesFrom length (seen.insert (String.ofList key)
        (length - byteLength (c :: rest))) behind).map
          ((String.ofList key, v) :: ·) := by
  rw [attributesFrom]
  split
  · next heq => rw [h] at heq; cases heq
  · next heq =>
      rw [h] at heq
      cases heq
      split
      · next heq => rw [hkey] at heq; cases heq
      · next heq =>
          rw [hkey] at heq
          cases heq
          simp only [hfresh]
          split
          · next heq => rw [hvalue] at heq; cases heq
          · next heq =>
              rw [hvalue] at heq
              cases heq
              simp only [hv]

theorem attributesFrom_written {as : Attributes}
    (hnames : ∀ a ∈ as, isName a.1 = true)
    (hnodup : (as.map Prod.fst).Nodup) (length : Nat) (seen : Entries Nat)
    (hseen : ∀ a ∈ as, a.1 ∉ seen.keys) :
    attributesFrom length seen (as.flatMap attributeChars) = .ok as := by
  induction as generalizing seen with
  | nil =>
      rw [List.flatMap_nil, attributesFrom]
      rfl
  | cons a as ih =>
      obtain ⟨key, value⟩ := a
      obtain ⟨hname, hnames⟩ := List.forall_mem_cons.mp hnames
      obtain ⟨hfresh, hseen⟩ := List.forall_mem_cons.mp hseen
      obtain ⟨hne, hnodup⟩ := List.nodup_cons.mp hnodup
      obtain ⟨c, cs, hkey, hskip, hsplit⟩ := splitKey_written hname length
        ('"' :: (value.toList.flatMap escapeChar ++ '"' ::
          as.flatMap attributeChars))
      have hvalue : splitValue length ('"' ::
          (value.toList.flatMap escapeChar ++ '"' ::
            as.flatMap attributeChars)) =
          .ok (value.toList.flatMap escapeChar,
            as.flatMap attributeChars) := by
        rw [splitValue, skipSpace, List.dropWhile_cons_of_neg (by decide)]
        simp [splitQuote_written (not_mem_escaped
          (show '"' ∈ marks by decide) (by decide) value.toList)]
      have hcs : skipSpace (((key, value) :: as).flatMap attributeChars) =
          c :: (cs ++ '=' :: '"' :: (value.toList.flatMap escapeChar ++ '"' ::
            as.flatMap attributeChars)) := by
        rw [← hskip]
        simp [attributeChars]
      have hofList : String.ofList (c :: cs) = key := by
        rw [← hkey, String.ofList_toList]
      rw [attributesFrom_eq hcs hsplit
        (hofList ▸ Entries.get?_eq_none hfresh) hvalue (unescape_escape value),
        hofList, ih hnames hnodup]
      · rfl
      · intro b hb
        rw [Entries.insert_of_not_mem hfresh, Entries.keys_append,
          List.mem_append, not_or]
        refine ⟨hseen b hb, fun hmem => hne ?_⟩
        exact List.mem_map.mpr ⟨b, hb, List.mem_singleton.mp hmem⟩

/-- A tag that is written is taken apart into its name and its attributes. -/
theorem ofContent_written {name : String} {as : Attributes}
    (hname : isName name = true) (hnames : ∀ a ∈ as, isName a.1 = true)
    (hnodup : (as.map Prod.fst).Nodup) :
    Tag.ofContent (tagText name as).toList =
        ⟨name, as.flatMap attributeChars⟩ ∧
      (Tag.ofContent (tagText name as).toList).attributes = .ok as := by
  have hspaces : ∀ c ∈ name.toList, (!isSpace c) = true := by
    intro c hc
    rw [isName_not_space hname hc]
    rfl
  have hbehind : (as.flatMap attributeChars).takeWhile (!isSpace ·) = [] ∧
      (as.flatMap attributeChars).dropWhile (!isSpace ·) =
        as.flatMap attributeChars := by
    cases as with
    | nil => exact ⟨rfl, rfl⟩
    | cons a as => exact ⟨rfl, rfl⟩
  have htag : Tag.ofContent (tagText name as).toList =
      ⟨name, as.flatMap attributeChars⟩ := by
    rw [tagText_toList, Tag.ofContent, List.takeWhile_append_of_pos hspaces,
      List.dropWhile_append_of_pos hspaces, hbehind.1, hbehind.2,
      List.append_nil, String.ofList_toList]
  refine ⟨htag, ?_⟩
  rw [htag, Tag.attributes]
  exact attributesFrom_written hnames hnodup _ [] fun _ _ hmem => nomatch hmem

/-! ## Trees -/

/-- An element of which the start has been read, with what stands in front of
it backwards. -/
structure Opened where
  name : String
  attributes : Attributes
  before : List Node

/-- What has been read of a text: the elements that are open, the innermost
first, and what is in that one so far, backwards. -/
structure Reading where
  opened : List Opened := []
  done : List Node := []

namespace Reading

def add (r : Reading) (n : Node) : Reading :=
  { r with done := n :: r.done }

def enter (r : Reading) (name : String) (attributes : Attributes) : Reading :=
  { opened := ⟨name, attributes, r.done⟩ :: r.opened, done := [] }

/-- Closes the innermost element, which must have the name of the end tag. -/
def leave (r : Reading) (name : String) : Option Reading :=
  match r.opened with
  | [] => none
  | o :: outer =>
      if o.name = name then
        some ⟨outer, .element o.name o.attributes r.done.reverse :: o.before⟩
      else none

/-- Reads what stands between the brackets of a tag. -/
def tag (r : Reading) (content : List Char) : Option Reading :=
  if content.head? = some '/' then r.leave (String.ofList content.tail)
  else if content.getLast? = some '/' then
    let tag := Tag.ofContent content.dropLast
    tag.attributes.toOption.map fun attributes =>
      r.add (.empty tag.name attributes)
  else
    let tag := Tag.ofContent content
    tag.attributes.toOption.map (r.enter tag.name)

/-- Reads a text to its end, where no element may be open. -/
def finish (r : Reading) (cs : List Char) : Option (List Node) :=
  match cs with
  | [] => if r.opened.isEmpty then some r.done.reverse else none
  | c :: rest =>
      if c = '<' then
        match h : splitTag none rest with
        | none => none
        | some (content, behind) =>
            have := splitTag_length h
            (r.tag content).bind (·.finish behind)
      else if c = '&' then
        match h : splitReference rest with
        | none => none
        | some (body, behind) =>
            have := splitReference_length h
            (reference 0 0 body).toOption.bind fun c =>
              (r.add (.text c.toString)).finish behind
      else (r.add (.text c.toString)).finish rest
termination_by cs.length

end Reading

/-- The tree that a text stands for, if its tags match. -/
def read (text : String) : Option (List Node) :=
  Reading.finish {} text.toList

mutual

/-- A tree with a text for each character. -/
def Node.spelled : Node → List Node
  | .element name attributes children =>
      [.element name attributes (spelled children)]
  | .empty name attributes => [.empty name attributes]
  | .text content => content.toList.map fun c => .text c.toString
  | .raw markup => [.raw markup]

def spelled : List Node → List Node
  | [] => []
  | n :: ns => n.spelled ++ spelled ns

end

mutual

/-- Whether there are only names where names are read and no markup stands
where text may. -/
def Node.legible : Node → Bool
  | .element name attributes children =>
      areNames name (attributes.map Prod.fst) && legible children
  | .empty name attributes => areNames name (attributes.map Prod.fst)
  | .text _ => true
  | .raw _ => false

def legible : List Node → Bool
  | [] => true
  | n :: ns => n.legible && legible ns

end

theorem legible_append (ns ms : List Node) :
    legible (ns ++ ms) = (legible ns && legible ms) := by
  induction ns with
  | nil => rfl
  | cons n ns ih =>
      rw [List.cons_append, legible, ih, legible, Bool.and_assoc]

theorem legible_iff {ns : List Node} :
    legible ns = true ↔ ∀ n ∈ ns, n.legible = true := by
  induction ns with
  | nil => simp [legible]
  | cons n ns ih => rw [legible, Bool.and_eq_true, ih, List.forall_mem_cons]

theorem legible_singleton (n : Node) : legible [n] = n.legible :=
  Bool.and_true _

namespace Reading

def addAll (r : Reading) (ns : List Node) : Reading :=
  { r with done := ns.reverse ++ r.done }

theorem addAll_cons (r : Reading) (n : Node) (ns : List Node) :
    r.addAll (n :: ns) = (r.add n).addAll ns := by
  rw [addAll, addAll, add, List.reverse_cons, List.append_assoc]
  rfl

theorem addAll_append (r : Reading) (ns ms : List Node) :
    r.addAll (ns ++ ms) = (r.addAll ns).addAll ms := by
  rw [addAll, addAll, addAll, List.reverse_append, List.append_assoc]

theorem finish_tag {content : List Char}
    (h : ∀ rest, splitTag none (content ++ '>' :: rest) = some (content, rest))
    (r : Reading) (rest : List Char) :
    r.finish ('<' :: (content ++ '>' :: rest)) =
      (r.tag content).bind (·.finish rest) := by
  rw [finish, if_pos rfl]
  split
  · next heq => rw [h] at heq; cases heq
  · next heq => rw [h] at heq; cases heq; rfl

theorem finish_text (cs : List Char) (r : Reading) (rest : List Char) :
    r.finish (cs.flatMap escapeChar ++ rest) =
      (r.addAll (cs.map fun c => .text c.toString)).finish rest := by
  induction cs generalizing r with
  | nil => rfl
  | cons c cs ih =>
      rw [List.flatMap_cons, List.map_cons, addAll_cons, ← ih,
        List.append_assoc]
      have h := escapeChar_escaped c
      generalize escapeChar c = written at h
      cases h with
      | plain hc =>
          rw [List.singleton_append, finish, if_neg (by
            rintro rfl
            exact hc (by decide)), if_neg (by
            rintro rfl
            exact hc (by decide))]
      | reference body hbody refers =>
          rw [List.cons_append, finish, if_neg (by decide), if_pos rfl]
          split
          · next heq =>
              rw [splitReference_reference hbody] at heq
              cases heq
          · next heq =>
              rw [splitReference_reference hbody] at heq
              cases heq
              simp only [refers]
              rfl

theorem getLast?_attributes {as : Attributes} {c : Char}
    (h : (as.flatMap attributeChars).getLast? = some c) : c = '"' := by
  induction as with
  | nil => cases h
  | cons a as ih =>
      rw [List.flatMap_cons, List.getLast?_append, Option.or_eq_some_iff] at h
      rcases h with h | ⟨_, h⟩
      · exact ih h
      · have hlast : (attributeChars a).getLast? = some '"' := by
          simp [attributeChars, List.getLast?_cons, List.getLast?_append]
        rw [hlast] at h
        exact (Option.some.inj h).symm

/-- A slash neither begins nor ends the name and the attributes of a tag. -/
theorem tagText_slash {name : String} (hname : isName name = true)
    (as : Attributes) : ∃ c cs, (tagText name as).toList = c :: cs ∧
      c ≠ '/' ∧ (tagText name as).toList.getLast? ≠ some '/' := by
  obtain ⟨c, cs, heq, hchars⟩ := isName_cons hname
  have hslash : ∀ d ∈ c :: cs, d ≠ '/' := by
    rintro d hd rfl
    exact isNameChar_not (hchars _ hd) (by decide)
  rw [tagText_toList, heq]
  refine ⟨c, _, rfl, hslash c List.mem_cons_self, ?_⟩
  rw [List.getLast?_append]
  intro h
  rcases Option.or_eq_some_iff.mp h with h | ⟨_, h⟩
  · exact absurd (getLast?_attributes h) (by decide)
  · exact hslash _ (List.mem_of_getLast? h) rfl

theorem areNames_iff {name : String} {as : Attributes} :
    areNames name (as.map Prod.fst) = true ↔ isName name = true ∧
      (∀ a ∈ as, isName a.1 = true) ∧ (as.map Prod.fst).Nodup := by
  simp [areNames, and_assoc]

section Tag

variable {name : String} {as : Attributes}

theorem tag_start (h : areNames name (as.map Prod.fst) = true) (r : Reading) :
    r.tag (tagText name as).toList = some (r.enter name as) := by
  obtain ⟨hname, hnames, hnodup⟩ := areNames_iff.mp h
  obtain ⟨htag, has⟩ := ofContent_written hname hnames hnodup
  obtain ⟨c, cs, heq, hc, hlast⟩ := tagText_slash hname as
  have hhead : (tagText name as).toList.head? ≠ some '/' := by
    rw [heq]
    exact fun h => hc (Option.some.inj h)
  rw [tag, if_neg hhead, if_neg hlast]
  simp only [has]
  rw [htag]
  rfl

theorem tag_empty (h : areNames name (as.map Prod.fst) = true) (r : Reading) :
    r.tag ((tagText name as).toList ++ ['/']) =
      some (r.add (.empty name as)) := by
  obtain ⟨hname, hnames, hnodup⟩ := areNames_iff.mp h
  obtain ⟨htag, has⟩ := ofContent_written hname hnames hnodup
  obtain ⟨c, cs, heq, hc, _⟩ := tagText_slash hname as
  have hhead : ((tagText name as).toList ++ ['/']).head? ≠ some '/' := by
    rw [heq]
    exact fun h => hc (Option.some.inj h)
  rw [tag, if_neg hhead, if_pos List.getLast?_concat, List.dropLast_concat]
  simp only [has]
  rw [htag]
  rfl

theorem tag_end (r : Reading) : r.tag ('/' :: name.toList) = r.leave name := by
  rw [tag, List.head?_cons, if_pos rfl, List.tail_cons, String.ofList_toList]

theorem inside_tagText (h : areNames name (as.map Prod.fst) = true) :
    Inside none (tagText name as).toList none := by
  obtain ⟨hname, hnames, _⟩ := areNames_iff.mp h
  rw [tagText_toList]
  exact .append (.name hname) (.attributes hnames)

end Tag

theorem leave_enter (r : Reading) (name : String) (as : Attributes)
    (ns : List Node) :
    ((r.enter name as).addAll ns).leave name =
      some (r.add (.element name as ns)) := by
  rw [leave, addAll, enter]
  simp [add]

mutual

theorem finish_render (n : Node) (h : n.legible = true) (r : Reading)
    (rest : List Char) :
    r.finish (n.render.toList ++ rest) = (r.addAll n.spelled).finish rest := by
  cases n with
  | element name as children =>
      rw [Node.legible, Bool.and_eq_true] at h
      have hend : Inside none ('/' :: name.toList) none :=
        .cons (fun _ => by decide) (.name (areNames_iff.mp h.1).1)
      have hrender : (Node.element name as children).render.toList ++ rest =
          '<' :: ((tagText name as).toList ++ '>' ::
            ((renderNodes children).toList ++
              '<' :: (('/' :: name.toList) ++ '>' :: rest))) := by
        simp [Node.render]
      -- The children only add to what is read, so the end tag finds its start.
      rw [hrender, finish_tag (inside_tagText h.1).ends, tag_start h.1,
        Option.bind_some, finish_renderNodes children h.2, finish_tag hend.ends,
        tag_end, leave_enter]
      rfl
  | empty name as =>
      have hinside : Inside none ((tagText name as).toList ++ ['/']) none :=
        .append (inside_tagText h) (.cons (fun _ => by decide) .nil)
      have hrender : (Node.empty name as).render.toList ++ rest =
          '<' :: (((tagText name as).toList ++ ['/']) ++ '>' :: rest) := by
        simp [Node.render]
      rw [hrender, finish_tag hinside.ends, tag_empty h]
      rfl
  | text content =>
      rw [Node.render, escape, String.toList_ofList, finish_text]
      rfl
  | raw markup => cases h

theorem finish_renderNodes (ns : List Node) (h : legible ns = true)
    (r : Reading) (rest : List Char) :
    r.finish ((renderNodes ns).toList ++ rest) =
      (r.addAll (spelled ns)).finish rest := by
  cases ns with
  | nil => rfl
  | cons n ns =>
      rw [legible, Bool.and_eq_true] at h
      rw [renderNodes, String.toList_append, List.append_assoc,
        finish_render n h.1, finish_renderNodes ns h.2, ← addAll_append]
      rfl

end

end Reading

/-- A tree that is legible reads back as what it is. -/
theorem read_renderNodes {ns : List Node} (h : legible ns = true) :
    read (renderNodes ns) = some (spelled ns) := by
  have hread := Reading.finish_renderNodes ns h {} []
  rw [List.append_nil] at hread
  rw [read, hread, Reading.finish]
  simp [Reading.addAll]

/-- Tags that cross are not read, nor is an element that stays open. -/
example : (read "<a><b></a></b>").isNone ∧ (read "<a>").isNone := by cbv

/-! ## What is in a tree that was read -/

theorem join_characters (cs : List Char) :
    String.join (cs.map Char.toString) = String.ofList cs := by
  rw [← String.toList_inj, String.toList_join, String.toList_ofList,
    List.flatMap_map]
  simp

mutual

theorem Node.shown_spelled (n : Node) : shown n.spelled = n.shown := by
  cases n with
  | element name as children =>
      rw [Node.spelled, shown, shown, Node.shown, Node.shown,
        String.append_empty, shown_spelled children]
  | empty name as => rfl
  | text content =>
      rw [Node.spelled, shown_eq_join, List.map_map]
      exact (join_characters content.toList).trans String.ofList_toList
  | raw markup => rfl

theorem shown_spelled (ns : List Node) : shown (spelled ns) = shown ns := by
  cases ns with
  | nil => rfl
  | cons n ns =>
      rw [spelled, shown_append, Node.shown_spelled n, shown_spelled ns, shown]

end

def Element.spelled (e : Element) : Element :=
  { e with children := Xml.spelled e.children }

section Spelled

variable (name : String)

mutual

theorem Node.elementsOf_spelled (n : Node) :
    elementsOf name n.spelled = (elementsOf name [n]).map Element.spelled := by
  cases n with
  | element n as children =>
      rw [Node.spelled, elementsOf_element, elementsOf_element,
        elementsOf_spelled children, List.map_append, List.map_append]
      split <;> rfl
  | empty n as =>
      rw [Node.spelled, elementsOf_empty]
      split <;> rfl
  | text content =>
      rw [Node.spelled, elementsOf_map]
      simp
  | raw markup => rfl

theorem elementsOf_spelled (ns : List Node) :
    elementsOf name (spelled ns) =
      (elementsOf name ns).map Element.spelled := by
  cases ns with
  | nil => rfl
  | cons n ns =>
      rw [spelled, elementsOf_append, Node.elementsOf_spelled n,
        elementsOf_spelled ns, ← List.map_append, ← elementsOf_append]
      rfl

end

end Spelled

/-- Elements side by side are not taken apart. -/
theorem name?_spelled {ns : List Node} (h : ∀ n ∈ ns, n.name? ≠ none) :
    (spelled ns).map Node.name? = ns.map Node.name? := by
  induction ns with
  | nil => rfl
  | cons n ns ih =>
      obtain ⟨hn, hns⟩ := List.forall_mem_cons.mp h
      rw [spelled, List.map_append, ih hns, List.map_cons]
      cases n with
      | element name as children => rfl
      | empty name as => rfl
      | text content => exact absurd rfl hn
      | raw markup => exact absurd rfl hn

theorem name?_spelled_ne {ns : List Node} (h : ∀ n ∈ ns, n.name? ≠ none) :
    ∀ n ∈ spelled ns, n.name? ≠ none := by
  intro n hn hnone
  have hmem := List.mem_map_of_mem (f := Node.name?) hn
  rw [name?_spelled h] at hmem
  obtain ⟨m, hm, heq⟩ := List.mem_map.mp hmem
  exact h m hm (heq.trans hnone)

end Tabulation.Xml
