import Tabulation.Decimal.Numeral
import Tabulation.Text.Alphanumeric
import Tabulation.Text.Blank
import Tabulation.Text.Quoted

/-!
# Labels of table notes

A label `*N` stands for the symbol with that number in the chosen set, or for the number itself
where the set ends before it; every other label stands for itself. A reference needs a name of
letters, digits and hyphens only, so the characters of a term that are neither letters nor digits
are spelled out.
-/

namespace Tabulation

/-- The sets of symbols for numbered notes. -/
inductive NoteSymbols where
  | chicago
  | lion
  | bringhurst
  | wiley
deriving Repr, DecidableEq

namespace NoteSymbols

def symbols : NoteSymbols → List String
  | .chicago => ["*", "†", "‡", "§", "‖", "\\#"]
  | .lion => ["*", "†", "‡", "§", "◊", "\\#"]
  | .bringhurst => ["*", "†", "‡", "§", "‖", "¶"]
  | .wiley => ["*", "**", "†", "‡", "§", "‖", "¶"]

/-- The symbol with a number, the first one having number one. -/
def symbol? (style : NoteSymbols) : (number : Nat) → Option String
  | 0 => none
  | n + 1 => style.symbols[n]?

end NoteSymbols

/-- The name by which a character is spelled out, if it has one. -/
def characterName? (c : Char) : Option String :=
  match c with
  | '*' => some "asterisk"
  | '†' => some "dagger"
  | '‡' => some "double-dagger"
  | '§' => some "section-sign"
  | '‖' => some "double-vertical-line"
  | '¶' => some "pilcrow-sign"
  | '◊' => some "lozenge"
  | '#' => some "number-sign"
  | '\\' => some "reverse-solidus"
  | '-' => some "hyphen-minus"
  | '+' => some "plus-sign"
  | '.' => some "full-stop"
  | ':' => some "colon"
  | '_' => some "low-line"
  | ' ' => some "space"
  | _ => none

/-- The digits of a label of the form `*N`. -/
def noteNumber? (label : String) : Option String :=
  match label.toList with
  | '*' :: digits => if Decimal.isDigits digits then some (String.ofList digits) else none
  | _ => none

/-- The term shown for a label. -/
def noteTerm (style : NoteSymbols) (label : String) : String :=
  let label := Text.trim label
  match noteNumber? label with
  | none => label
  | some digits => ((Decimal.nat64? digits).bind style.symbol?).getD digits

/-- A character that may stand in a reference as it is, or else its name or number. -/
def spell (c : Char) : String :=
  if Text.isAlphanumeric c then c.toString
  else
    match characterName? c with
    | some name => name
    | none =>
        let digits := Nat.toDigits 16 c.toNat
        "u" ++ String.ofList (List.replicate (4 - digits.length) '0' ++ digits)

/-- A label with everything spelled out that is neither a letter nor a digit. -/
def spelled (label : String) : String :=
  String.join ((Text.trim label).toList.map spell)

/-- The name of a note in references. -/
def noteTarget (style : NoteSymbols) (label : String) : String :=
  spelled (noteTerm style label)

end Tabulation
