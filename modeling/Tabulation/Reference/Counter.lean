import Tabulation.Entries

/-!
# Counters

Headings and tables are counted in registers. A register counts at several levels: counting at one
level forgets the deeper ones. A register may count within a scope, the number of another register
cut to some depth; when that number has changed since the last count, counting starts over. Levels
that were skipped read as one, and a register that was never counted reads as zeros.
-/

namespace Tabulation

structure Counter where
  /-- The number of the scope that the counts belong to. -/
  scope : List Nat := []
  /-- The count of each level, the outermost first. -/
  levels : List Nat := []
deriving Repr, DecidableEq

/-- The counters of a document by register. -/
abbrev Counters := Entries Counter

namespace Counter

/-- Counts one element at a level, the outermost being level one. -/
def increment (level : Nat) (levels : List Nat) : List Nat :=
  if levels.length < level then levels ++ List.replicate (level - levels.length) 1
  else (levels.modify (level - 1) (· + 1)).take level

/-- The counter for a scope: the same one if the scope did not change, else a fresh one in which
the next count at the level gives one. -/
def enterScope (c : Counter) (level : Nat) (scope : List Nat) : Counter :=
  if c.scope = scope then c
  else { scope, levels := List.replicate (level - 1) 1 ++ [0] }

/-- The number that a counter shows at a depth, its scope first. -/
def value (c : Counter) (depth : Nat) : List Nat :=
  c.scope ++ c.levels.take depth ++ List.replicate (depth - c.levels.length) 1

end Counter

namespace Counters

def headingRegister : String := "heading"

def tableRegister : String := "table"

/-- The number that a register shows at a depth. -/
def current (cs : Counters) (register : String) (depth : Nat) : List Nat :=
  match cs.get? register with
  | none => List.replicate depth 0
  | some c => c.value depth

/-- Counts one element of a register, within the number of another register if one is given. -/
def count (cs : Counters) (register : String) (level : Nat)
    (relativeTo : Option (String × Nat)) : Counters :=
  let level := max level 1
  let counter := (cs.get? register).getD {}
  let counter := match relativeTo with
    | some (scope, depth) => counter.enterScope level (cs.current scope depth)
    | none => counter
  cs.insert register { counter with levels := Counter.increment level counter.levels }

def enterHeading (cs : Counters) (level : Nat) : Counters :=
  cs.count headingRegister level none

/-- Counts a table within headings of the given depth, or in the whole document if that is zero,
and gives its number. -/
def nextTable (cs : Counters) (within : Nat) : List Nat × Counters :=
  let cs := cs.count tableRegister 1 (if within = 0 then none else some (headingRegister, within))
  (cs.current tableRegister 1, cs)

end Counters

/-- A number written with points between its levels. -/
def dotted (number : List Nat) : String :=
  String.intercalate "." (number.map toString)

end Tabulation
