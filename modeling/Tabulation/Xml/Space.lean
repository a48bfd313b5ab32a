/-!
# White space in markup

Markup knows four characters of white space; other blanks are text.
-/

namespace Tabulation.Xml

def isSpace (c : Char) : Bool :=
  c = ' ' || c = '\r' || c = '\n' || c = '\t'

def skipSpace (cs : List Char) : List Char :=
  cs.dropWhile isSpace

def trimSpaceRight (cs : List Char) : List Char :=
  (cs.reverse.dropWhile isSpace).reverse

theorem skipSpace_length (cs : List Char) : (skipSpace cs).length ≤ cs.length :=
  (List.dropWhile_sublist isSpace).length_le

theorem skipSpace_tail_length {cs rest : List Char} {c : Char} (h : skipSpace cs = c :: rest) :
    rest.length < cs.length := by
  have := skipSpace_length cs
  rw [h, List.length_cons] at this
  omega

end Tabulation.Xml
