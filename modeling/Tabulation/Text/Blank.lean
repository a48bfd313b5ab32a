import Tabulation.Text.CodeSet

/-!
# Blank characters

Blank is the Unicode property `White_Space`. Column definitions, alignments and cell text are
split and trimmed at blanks; markup has its own, smaller set of white space and does not use
this one.
-/

namespace Tabulation.Text

/-- The code points with the property `White_Space`. -/
def blankRanges : CodeSet := [
    (0x9, 0xD), (0x20, 0x20), (0x85, 0x85), (0xA0, 0xA0), (0x1680, 0x1680), (0x2000, 0x200A),
    (0x2028, 0x2029), (0x202F, 0x202F), (0x205F, 0x205F), (0x3000, 0x3000)]

def isBlank (c : Char) : Bool :=
  blankRanges.mem c.toNat

theorem blankRanges_sorted : CodeSet.Sorted blankRanges := by decide +kernel

theorem isBlank_iff {c : Char} :
    isBlank c = true ↔ ∃ r ∈ blankRanges, r.1 ≤ c.toNat ∧ c.toNat ≤ r.2 :=
  CodeSet.mem_iff blankRanges_sorted

/-- A list of characters without the blanks at its end. -/
def trimRight (cs : List Char) : List Char :=
  (cs.reverse.dropWhile isBlank).reverse

/-- A text without the blanks at its two ends. -/
def trim (s : String) : String :=
  String.ofList (trimRight (s.toList.dropWhile isBlank))

end Tabulation.Text
