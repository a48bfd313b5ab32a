import Tabulation.Error
import Tabulation.Text.Blank
import Tabulation.Text.Bytes

/-!
# From text to tokens

At each character that is not blank exactly one kind of lexeme can begin: punctuation, a quoted
text, a word, or a number, which becomes a length if letters follow it directly. A lexeme takes
as many characters as it can. The offsets count bytes.
-/

namespace Tabulation.Column

open Text

def isWordStart (c : Char) : Bool :=
  c.isAlpha || c = '_'

def isWordPart (c : Char) : Bool :=
  c.isAlphanum || c = '_' || c = '-'

/-- Whether a digit stands here, perhaps behind a point. -/
def startsUnsigned : List Char → Bool
  | '.' :: d :: _ => d.isDigit
  | d :: _ => d.isDigit
  | [] => false

/-- Whether a number begins here: a digit, perhaps behind a point, perhaps behind a sign. -/
def startsNumber : List Char → Bool
  | [] => false
  | c :: rest => if c = '-' ∨ c = '+' then startsUnsigned rest else startsUnsigned (c :: rest)

/-- A number in front of a text and what follows it: a sign, digits, and a point with more
digits, each of which may be missing. -/
def splitNumber (cs : List Char) : List Char × List Char :=
  let (sign, unsigned) := match cs with
    | c :: r => if c = '-' ∨ c = '+' then ([c], r) else ([], c :: r)
    | [] => ([], [])
  let whole := unsigned.takeWhile Char.isDigit
  let (places, rest) := match unsigned.dropWhile Char.isDigit with
    | '.' :: r => ('.' :: r.takeWhile Char.isDigit, r.dropWhile Char.isDigit)
    | r => ([], r)
  (sign ++ whole ++ places, rest)

/-- The text up to the closing quote, and what follows the quote. A backslash takes the next
character as it is; one at the very end stands for itself. -/
def splitQuoted (quote : Char) : List Char → Option (List Char × List Char)
  | [] => none
  | [c] => if c = quote then some ([], []) else none
  | c :: d :: rest =>
      if c = '\\' then (splitQuoted quote rest).map fun (body, after) => (d :: body, after)
      else if c = quote then some ([], d :: rest)
      else (splitQuoted quote (d :: rest)).map fun (body, after) => (c :: body, after)

/-- The lexeme that begins with the first character, and what follows it. -/
def lexeme (c : Char) (rest : List Char) : Except DefinitionFault (Lexeme × List Char) :=
  if c = '[' then .ok (.openBracket, rest)
  else if c = ']' then .ok (.closeBracket, rest)
  else if c = ',' then .ok (.comma, rest)
  else if c = '=' then .ok (.equals, rest)
  else if c = '\'' ∨ c = '"' then
    match splitQuoted c rest with
    | some (body, after) => .ok (.quoted (String.ofList body), after)
    | none => .error (.unterminated c)
  else if isWordStart c then
    .ok (.word (String.ofList (c :: rest.takeWhile isWordPart)), rest.dropWhile isWordPart)
  else if startsNumber (c :: rest) then
    let (number, after) := splitNumber (c :: rest)
    let unit := after.takeWhile Char.isAlpha
    if unit.isEmpty then .ok (.number (String.ofList number), after)
    else .ok (.length (String.ofList (number ++ unit)), after.dropWhile Char.isAlpha)
  else .error (.unexpectedCharacter c)

theorem length_dropWhile_le {β : Type} (p : β → Bool) (l : List β) :
    (l.dropWhile p).length ≤ l.length :=
  (List.dropWhile_sublist p).length_le

theorem splitQuoted_length {quote : Char} {cs body after : List Char}
    (h : splitQuoted quote cs = some (body, after)) : after.length < cs.length := by
  fun_induction splitQuoted quote cs generalizing body after with
  | case1 => simp at h
  | case2 => simp_all
  | case3 => simp at h
  | case4 d rest ih =>
      obtain ⟨⟨b, a⟩, hb, he⟩ := Option.map_eq_some_iff.1 h
      have := ih hb
      simp only [Prod.mk.injEq] at he
      simp only [List.length_cons, ← he.2]
      omega
  | case5 c d rest => simp_all
  | case6 c d rest _ _ ih =>
      obtain ⟨⟨b, a⟩, hb, he⟩ := Option.map_eq_some_iff.1 h
      have := ih hb
      simp only [Prod.mk.injEq] at he
      simp only [List.length_cons, ← he.2] at this ⊢
      omega

/-- A number is not empty where one begins, so the lexer moves on. -/
theorem splitNumber_length {cs : List Char} (h : startsNumber cs = true) :
    (splitNumber cs).2.length < cs.length := by
  have drop := length_dropWhile_le Char.isDigit
  match cs with
  | [] => simp [startsNumber] at h
  | c :: rest =>
      by_cases hs : c = '-' ∨ c = '+'
      · simp only [splitNumber, hs, if_true]
        split
        next r heq =>
          have h₁ := drop rest
          rw [heq] at h₁
          have h₂ := drop r
          simp only [List.length_cons] at h₁ ⊢
          omega
        next =>
          have := drop rest
          simp only [List.length_cons]
          omega
      · simp only [splitNumber, hs, if_false]
        by_cases hd : c.isDigit = true
        · rw [List.dropWhile_cons_of_pos hd]
          split
          next r heq =>
            have h₁ := drop rest
            rw [heq] at h₁
            have h₂ := drop r
            simp only [List.length_cons] at h₁ ⊢
            omega
          next =>
            have := drop rest
            simp only [List.length_cons]
            omega
        · rw [List.dropWhile_cons_of_neg (by simpa using hd)]
          split
          next r heq =>
            have h₂ := drop r
            simp only [List.cons.injEq] at heq
            simp only [List.length_cons, heq.2]
            omega
          next hne =>
            exfalso
            by_cases hp : c = '.'
            · exact hne rest (by rw [hp])
            · simp only [startsNumber, hs, if_false] at h
              rw [startsUnsigned.eq_def] at h
              split at h
              · next heq => exact hp (List.cons.inj heq).1
              · next heq => exact hd ((List.cons.inj heq).1 ▸ h)
              · next heq => cases heq

theorem lexeme_length {c : Char} {rest after : List Char} {l : Lexeme}
    (h : lexeme c rest = .ok (l, after)) : after.length ≤ rest.length := by
  simp only [lexeme] at h
  repeat' split at h
  all_goals first
    | (simp only [Except.ok.injEq, Prod.mk.injEq] at h; obtain ⟨-, rfl⟩ := h)
    | simp at h
  all_goals first
    | exact Nat.le_refl _
    | exact length_dropWhile_le _ _
    | (next hq => exact Nat.le_of_lt (splitQuoted_length hq))
    | skip
  all_goals
    rename_i hn _
    have short := splitNumber_length hn
    have shorter := length_dropWhile_le Char.isAlpha (splitNumber (c :: rest)).2
    rw [List.length_cons] at short
    omega

/-- The tokens of a text of which the first character stands at the given offset. -/
def tokensFrom (offset : Nat) (cs : List Char) : Except Error (List Token) :=
  match cs with
  | [] => .ok []
  | c :: rest =>
      if isBlank c then tokensFrom (offset + c.utf8Size) rest
      else
        match h : lexeme c rest with
        | .error fault => .error (.definition fault (some offset))
        | .ok (l, after) =>
            have := lexeme_length h
            let next := offset + (byteLength (c :: rest) - byteLength after)
            (tokensFrom next after).map ({ lexeme := l, offset } :: ·)
termination_by cs.length

def tokenize (text : String) : Except Error (List Token) :=
  tokensFrom 0 text.toList

end Tabulation.Column
