import Tabulation.Entries

/-!
# Labels and link targets

A registry remembers which name leads to which target, and every target that was handed out.
Registering a name again changes where it leads; targets are never forgotten.
-/

namespace Tabulation

inductive LabelKind where
  | table
  | note
deriving Repr, DecidableEq

structure Label where
  target : String
  kind : LabelKind
deriving Repr, DecidableEq

structure Labels where
  /-- The labels by name, in the order in which the names were first registered. -/
  entries : Entries Label := []
  targets : List String := []

namespace Labels

def addTarget (ls : Labels) (target : String) : Labels :=
  if ls.targets.contains target then ls else { ls with targets := ls.targets ++ [target] }

def register (ls : Labels) (name target : String) (kind : LabelKind) : Labels :=
  let ls := ls.addTarget target
  { ls with entries := ls.entries.insert name { target, kind } }

def hasLabel (ls : Labels) (name : String) : Bool :=
  (ls.entries.get? name).isSome

def hasTarget (ls : Labels) (target : String) : Bool :=
  ls.targets.contains target

end Labels

/-- The command that sets a label in LaTeX. -/
def labelLatex (target : String) : String :=
  "\\label\x7b" ++ target ++ "\x7d"

end Tabulation
