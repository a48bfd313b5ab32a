import Tabulation.Xml.Stream

/-!
# Open elements

A stream is read with a stack of the elements that are open, and each event does
to that stack what it says: a start tag opens an element, an end tag closes the
innermost one, which is the one that it names, and nothing else changes what is
open. What stands on the stack when the text ends was started and never closed.
Every text is read in this way up to its first fault, whatever is left open.
-/

namespace Tabulation.Xml

/-- What an event does to the open elements, the innermost first. -/
inductive Step : List String → Event → List String → Prop where
  | start {opened : List String} (tag : Tag) :
      Step opened (.start tag) (tag.name :: opened)
  | finish {opened : List String} (name : String) :
      Step (name :: opened) (.finish name) opened
  | empty {opened : List String} (tag : Tag) : Step opened (.empty tag) opened
  | text {opened : List String} (escaped : String) :
      Step opened (.text escaped) opened
  | cdata {opened : List String} (content : String) :
      Step opened (.cdata content) opened
  | other {opened : List String} : Step opened .other opened

/-- The elements that a stream leaves open behind some that were open before. -/
inductive Leaves : List String → Stream → List String → Prop where
  | finish {opened : List String} (position : Nat) :
      Leaves opened (.finish position) opened
  | fault {opened : List String} (fault : Fault) :
      Leaves opened (.fault fault) opened
  | next {opened inside left : List String} {event : Event} {position : Nat}
      {rest : Stream} (step : Step opened event inside)
      (behind : Leaves inside rest left) :
      Leaves opened (.next event position rest) left

/-- A text in which every element that is started is closed. -/
def Stream.Closed (s : Stream) : Prop := Leaves [] s []

variable {opened : List String}

section

variable {left : List String} {position : Nat} {rest : Stream}

theorem Leaves.start {tag : Tag} {name : String}
    (h : Leaves opened (.next (.start tag) position rest) left)
    (hname : tag.name = name) : Leaves (name :: opened) rest left := by
  cases h with
  | next step behind =>
      cases step
      rwa [hname] at behind

/-- An end tag closes the innermost element and names it. -/
theorem Leaves.close {name closed : String}
    (h : Leaves (name :: opened) (.next (.finish closed) position rest) left) :
    closed = name ∧ Leaves opened rest left := by
  cases h with
  | next step behind =>
      cases step
      exact ⟨rfl, behind⟩

theorem Step.unique {inside inside' : List String} {event : Event}
    (h : Step opened event inside) (h' : Step opened event inside') :
    inside = inside' := by
  cases h with
  | start => cases h'; rfl
  | finish => cases h'; rfl
  | empty => cases h'; rfl
  | text => cases h'; rfl
  | cdata => cases h'; rfl
  | other => cases h'; rfl

/-- Only a start tag and an end tag change what is open. -/
theorem Step.of_content {event : Event} (hstart : ∀ tag, event ≠ .start tag)
    (hfinish : ∀ closed, event ≠ .finish closed) :
    Step opened event opened := by
  cases event with
  | start tag => exact absurd rfl (hstart tag)
  | finish closed => exact absurd rfl (hfinish closed)
  | empty tag => exact .empty tag
  | text escaped => exact .text escaped
  | cdata content => exact .cdata content
  | other => exact .other

theorem Leaves.content {event : Event}
    (h : Leaves opened (.next event position rest) left)
    (hstep : Step opened event opened) : Leaves opened rest left := by
  cases h with
  | next step behind =>
      rwa [step.unique hstep] at behind

end

/-! ## Reading -/

theorem bangEvent_step {kind : Construct} {content : List Char} {event : Event}
    (h : bangEvent kind content = .ok event) : Step opened event opened := by
  cases kind with
  | comment =>
      rw [bangEvent] at h
      split at h
      · cases h; exact .other
      · cases h
  | cdata =>
      rw [bangEvent] at h
      split at h
      · cases h; exact .cdata _
      · cases h
  | doctype =>
      rw [bangEvent] at h
      split at h
      · split at h
        · cases h
        · cases h; exact .other
      · cases h
  | bang => cases h
  | declaration => cases h
  | element name => cases h

theorem readBang_step {cs : List Char} {m : Markup}
    (h : readBang opened cs = .ok m) : Step opened m.event m.opened := by
  simp only [readBang] at h
  split at h
  · cases h
  · split at h
    · cases h
    · next kind _ _ _ content _ _ =>
        cases hevent : bangEvent kind content with
        | error fault => rw [hevent] at h; cases h
        | ok event =>
            rw [hevent] at h
            cases h
            exact bangEvent_step hevent

theorem readEnd_step {cs : List Char} {m : Markup}
    (h : readEnd opened cs = .ok m) : Step opened m.event m.opened := by
  simp only [readEnd] at h
  split at h
  · cases h
  · split at h
    · next hname =>
        cases h
        rw [hname]
        exact .finish _
    · cases h

theorem readInstruction_step {cs : List Char} {m : Markup}
    (h : readInstruction opened cs = .ok m) : Step opened m.event m.opened := by
  simp only [readInstruction] at h
  split at h
  · cases h; exact .other
  · cases h

theorem tagEvent_step (content : List Char) :
    Step opened (tagEvent opened content).1 (tagEvent opened content).2 := by
  rw [tagEvent]
  split
  · exact .empty _
  · exact .start _

theorem readMarkup_step {c : Char} {cs : List Char} {m : Markup}
    (h : readMarkup opened c cs = .ok m) : Step opened m.event m.opened := by
  simp only [readMarkup] at h
  split at h
  · exact readBang_step h
  split at h
  · exact readEnd_step h
  split at h
  · exact readInstruction_step h
  split at h
  · cases h; exact tagEvent_step _
  · cases h; exact tagEvent_step _

mutual

theorem scan_leaves (opened : List String) (consumed : Nat) (cs : List Char) :
    ∃ left, Leaves opened (scan opened consumed cs) left := by
  rw [scan]
  split
  · exact ⟨opened, .finish _⟩
  · next c rest hs =>
      have := skipSpace_tail_length hs
      split
      · exact scanMarkup_leaves opened _ rest
      · split
        · exact ⟨opened, .next (.text _) (.finish _)⟩
        · next behind hd =>
            have := dropWhile_tail_length hd
            obtain ⟨left, hleft⟩ := scanMarkup_leaves opened
              (consumed + (cs.takeWhile isSpace).length +
                Text.byteLength (c :: rest.takeWhile (· ≠ '<')) + 1) behind
            exact ⟨left, .next (.text _) hleft⟩
termination_by (cs.length, 0)

theorem scanMarkup_leaves (opened : List String) (consumed : Nat)
    (cs : List Char) :
    ∃ left, Leaves opened (scanMarkup opened consumed cs) left := by
  match cs with
  | [] =>
      rw [scanMarkup]
      exact ⟨opened, .finish _⟩
  | c :: rest =>
      rw [scanMarkup]
      split
      · exact ⟨opened, .fault _⟩
      · next m h =>
          have := readMarkup_length h
          obtain ⟨left, hleft⟩ :=
            scan_leaves m.opened (consumed + m.size) m.rest
          exact ⟨left, .next (readMarkup_step h) hleft⟩
termination_by (cs.length, 0)

end

theorem ofText_leaves (text : String) :
    ∃ left, Leaves [] (.ofText text) left := by
  rw [Stream.ofText]
  split
  · exact scan_leaves [] 0 _
  · exact scan_leaves [] 0 _

/-! ## Counting -/

/-- How often an element of a name is started. -/
def Stream.starts (name : String) : Stream → Nat
  | .next (.start tag) _ rest =>
      (if tag.name = name then 1 else 0) + starts name rest
  | .next _ _ rest => starts name rest
  | _ => 0

/-- How often an element of a name is closed. -/
def Stream.ends (name : String) : Stream → Nat
  | .next (.finish closed) _ rest =>
      (if closed = name then 1 else 0) + ends name rest
  | .next _ _ rest => ends name rest
  | _ => 0

/-- Of the elements of a name those are left open that are not closed. -/
theorem Leaves.count_left {s : Stream} {left : List String}
    (h : Leaves opened s left) (name : String) :
    opened.count name + s.starts name = left.count name + s.ends name := by
  induction h with
  | finish => rfl
  | fault => rfl
  | next step _ ih =>
      cases step with
      | start tag =>
          rw [List.count_cons] at ih
          simp only [Stream.starts, Stream.ends, beq_iff_eq] at ih ⊢
          omega
      | finish closed =>
          rw [List.count_cons]
          simp only [Stream.starts, Stream.ends, beq_iff_eq] at ih ⊢
          omega
      | empty => exact ih
      | text => exact ih
      | cdata => exact ih
      | other => exact ih

end Tabulation.Xml
