/-!
# Pieces between separators

A text with `n` separators has `n + 1` pieces, some of them perhaps empty; joined with the
separator they make up the text again.
-/

namespace Tabulation.Text

/-- The pieces of a text between the occurrences of a character. -/
def pieces (separator : Char) : List Char → List (List Char)
  | [] => [[]]
  | c :: cs =>
      if c = separator then [] :: pieces separator cs
      else
        match pieces separator cs with
        | [] => [[c]]
        | piece :: rest => (c :: piece) :: rest

theorem pieces_ne_nil (separator : Char) (cs : List Char) : pieces separator cs ≠ [] := by
  cases cs with
  | nil => simp [pieces]
  | cons c cs =>
      rw [pieces]
      split
      · simp
      · split <;> simp

/-- The pieces of a text as texts. -/
def split (separator : Char) (text : String) : List String :=
  (pieces separator text.toList).map String.ofList

end Tabulation.Text
