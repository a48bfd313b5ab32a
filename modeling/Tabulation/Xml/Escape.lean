import Tabulation.Text.Bytes
import Tabulation.Xml.Fault

/-!
# Escaped text

Five characters are written as references, in text and in attribute values alike. Reading is more
liberal: besides those five names a reference may give the number of any character except zero, in
decimal or in hexadecimal digits. Text without a reference is read as it is.
-/

namespace Tabulation.Xml

open Text

def escapeChar (c : Char) : List Char :=
  if c = '<' then "&lt;".toList
  else if c = '>' then "&gt;".toList
  else if c = '&' then "&amp;".toList
  else if c = '\'' then "&apos;".toList
  else if c = '"' then "&quot;".toList
  else [c]

def escape (s : String) : String :=
  String.ofList (s.toList.flatMap escapeChar)

/-- The character that a name refers to. -/
def namedReference? (name : List Char) : Option Char :=
  if name = "lt".toList then some '<'
  else if name = "gt".toList then some '>'
  else if name = "amp".toList then some '&'
  else if name = "apos".toList then some '\''
  else if name = "quot".toList then some '"'
  else none

/-- The value of a hexadecimal digit. -/
def hexDigit? (c : Char) : Option Nat :=
  if c.isDigit then some (c.toNat - '0'.toNat)
  else if 'a' ≤ c ∧ c ≤ 'f' then some (c.toNat - 'a'.toNat + 10)
  else if 'A' ≤ c ∧ c ≤ 'F' then some (c.toNat - 'A'.toNat + 10)
  else none

/-- A character as its first byte would be shown when every byte stands for a character. -/
def firstByte (c : Char) : Char :=
  match (String.utf8EncodeChar c).head? with
  | some b => Char.ofNat b.toNat
  | none => c

/-- The number that digits of a base spell, or the first character that is no digit. -/
def readDigits (base : Nat) (digit? : Char → Option Nat) (acc : Nat) :
    List Char → Except Char Nat
  | [] => .ok acc
  | c :: cs =>
      match digit? c with
      | some d => readDigits base digit? (base * acc + d) cs
      | none => .error c

/-- The number behind `&#`. -/
def referenceNumber (digits : List Char) : Except ReferenceFault Nat :=
  match digits with
  | 'x' :: hex =>
      if 6 < byteLength hex then .error .longHexadecimal
      else (readDigits 16 hexDigit? 0 hex).mapError fun c => .badHexadecimal (firstByte c)
  | decimal =>
      if 7 < byteLength decimal then .error .longDecimal
      else
        let digit? (c : Char) := if c.isDigit then hexDigit? c else none
        (readDigits 10 digit? 0 decimal).mapError fun c => .badDecimal (firstByte c)

/-- The character of a number that a reference gives. -/
def numbered (start stop code : Nat) : Except ReferenceFault Char :=
  if code = 0 then .error (.null start stop)
  else if h : code.isValidChar then .ok (Char.ofNatAux code h)
  else .error (.notACharacter code)

/-- The character of a reference, given without its two ends, which stand at the positions
`start` and `stop`. -/
def reference (start stop : Nat) (body : List Char) : Except ReferenceFault Char := do
  match body with
  | '#' :: digits => numbered start stop (← referenceNumber digits)
  | name =>
      match namedReference? name with
      | some c => .ok c
      | none => .error (.unknown (start + 1) stop (String.ofList name))

/-- The body of a reference and what follows its semicolon, which must come before another
reference begins. -/
def splitReference : List Char → Option (List Char × List Char)
  | [] => none
  | c :: cs =>
      if c = ';' then some ([], cs)
      else if c = '&' then none
      else (splitReference cs).map fun (body, rest) => (c :: body, rest)

theorem splitReference_length {cs body rest : List Char}
    (h : splitReference cs = some (body, rest)) : rest.length < cs.length := by
  fun_induction splitReference cs generalizing body with
  | case1 => simp at h
  | case2 => simp_all
  | case3 => simp at h
  | case4 c cs _ _ ih =>
      obtain ⟨⟨b, r⟩, hb, he⟩ := Option.map_eq_some_iff.1 h
      simp only [Prod.mk.injEq] at he
      have := ih (he.2 ▸ hb)
      simp only [List.length_cons]
      omega

/-- Replaces references by characters in a text of which the first `position` bytes are read and
that is `length` bytes long as a whole. -/
def unescapeFrom (length position : Nat) (cs : List Char) : Except ReferenceFault (List Char) :=
  match cs with
  | [] => .ok []
  | c :: rest =>
      if c = '&' then
        match h : splitReference rest with
        | none => .error (.unterminated position length)
        | some (body, behind) =>
            have := splitReference_length h
            let stop := position + 1 + byteLength body
            match reference position stop body with
            | .error fault => .error fault
            | .ok c => (unescapeFrom length (stop + 1) behind).map (c :: ·)
      else (unescapeFrom length (position + c.utf8Size) rest).map (c :: ·)
termination_by cs.length

/-- The text that an escaped text stands for. -/
def unescape (s : String) : Except ReferenceFault String :=
  (unescapeFrom s.utf8ByteSize 0 s.toList).map String.ofList

end Tabulation.Xml
