/-!
# Powers of two and of ten

The two bases between which numbers are converted.
-/

namespace Tabulation.Decimal

def twoTo (n : Nat) : Nat := Nat.pow 2 n

def tenTo (n : Nat) : Nat := Nat.pow 10 n

/-- The first number that is no word of 64 bits. -/
def wordLimit : Nat := twoTo 64

end Tabulation.Decimal
