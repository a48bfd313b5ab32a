/-!
# Positions as byte counts

Every position in a message counts the bytes of the text in UTF-8, so that it can be used by a
tool that holds the text as a file. Texts are scanned as lists of characters, and a position is
the byte length of the part already read.
-/

namespace Tabulation.Text

/-- The length of a text in UTF-8 bytes. -/
def byteLength : List Char → Nat
  | [] => 0
  | c :: cs => c.utf8Size + byteLength cs

@[simp] theorem byteLength_nil : byteLength [] = 0 := rfl

@[simp] theorem byteLength_cons (c : Char) (cs : List Char) :
    byteLength (c :: cs) = c.utf8Size + byteLength cs := rfl

@[simp] theorem byteLength_append (a b : List Char) :
    byteLength (a ++ b) = byteLength a + byteLength b := by
  induction a with
  | nil => simp
  | cons c cs ih => simp [ih, Nat.add_assoc]

end Tabulation.Text
