import Tabulation.Xml.Node

/-!
# What is in a tree

What is said of a tree that is written is said of its elements in the order in
which they begin: which of a name there are, what their tags say and what
stands in them. Of the text in a tree it is said what it comes to when all
markup is left out.
-/

namespace Tabulation.Xml

/-- An element of some name. -/
structure Element where
  attributes : Attributes
  children : List Node

mutual

/-- The elements in a tree with their names. -/
def Node.elements : Node → List (String × Element)
  | .element name attributes children =>
      (name, ⟨attributes, children⟩) :: elements children
  | .empty name attributes => [(name, ⟨attributes, []⟩)]
  | .text _ => []
  | .raw _ => []

def elements : List Node → List (String × Element)
  | [] => []
  | n :: ns => n.elements ++ elements ns

end

/-- The elements of a name. -/
def elementsOf (name : String) (nodes : List Node) : List Element :=
  (elements nodes).filterMap fun e => if e.1 = name then some e.2 else none

section ElementsOf

variable (name : String)

@[simp] theorem elementsOf_nil : elementsOf name [] = [] := rfl

@[simp] theorem elementsOf_element (n : String) (attributes : Attributes)
    (children ns : List Node) :
    elementsOf name (.element n attributes children :: ns) =
      (if n = name then [⟨attributes, children⟩] else []) ++
        elementsOf name children ++ elementsOf name ns := by
  rw [elementsOf, elements, Node.elements, List.cons_append,
    List.filterMap_cons, List.filterMap_append]
  by_cases h : n = name
  · simp only [if_pos h]
    rfl
  · simp only [if_neg h]
    rfl

@[simp] theorem elementsOf_empty (n : String) (attributes : Attributes)
    (ns : List Node) :
    elementsOf name (.empty n attributes :: ns) =
      (if n = name then [⟨attributes, []⟩] else []) ++ elementsOf name ns := by
  have h := elementsOf_element name n attributes [] ns
  rw [elementsOf_nil, List.append_nil] at h
  exact h

@[simp] theorem elementsOf_text (content : String) (ns : List Node) :
    elementsOf name (.text content :: ns) = elementsOf name ns := rfl

@[simp] theorem elementsOf_raw (markup : String) (ns : List Node) :
    elementsOf name (.raw markup :: ns) = elementsOf name ns := rfl

@[simp] theorem elementsOf_append (nodes more : List Node) :
    elementsOf name (nodes ++ more) =
      elementsOf name nodes ++ elementsOf name more := by
  induction nodes with
  | nil => rfl
  | cons n ns ih =>
      rw [List.cons_append]
      cases n <;> simp [ih]

theorem elementsOf_flatMap {β : Type} (f : β → List Node) (xs : List β) :
    elementsOf name (xs.flatMap f) =
      xs.flatMap fun x => elementsOf name (f x) := by
  induction xs with
  | nil => rfl
  | cons x xs ih =>
      rw [List.flatMap_cons, elementsOf_append, ih, List.flatMap_cons]

theorem elementsOf_map {β : Type} (f : β → Node) (xs : List β) :
    elementsOf name (xs.map f) = xs.flatMap fun x => elementsOf name [f x] := by
  rw [← elementsOf_flatMap, List.map_eq_flatMap]

theorem elementsOf_replicate (k : Nat) (n : String) (attributes : Attributes) :
    elementsOf name (List.replicate k (.empty n attributes)) =
      if n = name then List.replicate k ⟨attributes, []⟩ else [] := by
  induction k with
  | zero => split <;> rfl
  | succ k ih =>
      rw [List.replicate_succ, elementsOf_empty, ih]
      split <;> rfl

end ElementsOf

/-- The name of an element. -/
def Node.name? : Node → Option String
  | .element name _ _ => some name
  | .empty name _ => some name
  | .text _ => none
  | .raw _ => none

mutual

/-- The text in a tree without its markup. -/
def Node.shown : Node → String
  | .element _ _ children => shown children
  | .empty _ _ => ""
  | .text content => content
  | .raw _ => ""

def shown : List Node → String
  | [] => ""
  | n :: ns => n.shown ++ shown ns

end

theorem shown_eq_join (ns : List Node) :
    shown ns = String.join (ns.map Node.shown) := by
  induction ns with
  | nil => rfl
  | cons n ns ih => rw [shown, ih, List.map_cons, String.join_cons]

@[simp] theorem shown_append (ns ms : List Node) :
    shown (ns ++ ms) = shown ns ++ shown ms := by
  rw [shown_eq_join, shown_eq_join, shown_eq_join, List.map_append,
    String.join_append]

theorem shown_eq_empty {ns : List Node} (h : ∀ n ∈ ns, n.shown = "") :
    shown ns = "" := by
  induction ns with
  | nil => rfl
  | cons n ns ih =>
      obtain ⟨hn, hns⟩ := List.forall_mem_cons.mp h
      rw [shown, hn, ih hns]
      rfl

end Tabulation.Xml
