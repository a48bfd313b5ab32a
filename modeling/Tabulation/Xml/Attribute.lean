import Tabulation.Entries
import Tabulation.Xml.Escape
import Tabulation.Xml.Space

/-!
# Attributes

What follows the name in a tag is keys with quoted values. A key is anything up to an equals sign
or white space, but it has at least one character; the next key may follow a value directly.
Positions count from the start of the tag's content, its name included.
-/

namespace Tabulation.Xml

open Text

/-- The content of a tag, behind its bracket and without the slash of an empty element. -/
structure Tag where
  name : String
  /-- What follows the name. -/
  rest : List Char
deriving Repr, DecidableEq

/-- The tag of a content; the name ends at the first white space. -/
def Tag.ofContent (content : List Char) : Tag :=
  { name := String.ofList (content.takeWhile (!isSpace ·))
    rest := content.dropWhile (!isSpace ·) }

/-- Splits what begins with a key into the key and what follows the equals sign. Positions are
given from the end: `length` is that of the whole content. -/
def splitKey (length : Nat) (c : Char) (cs : List Char) :
    Except AttributeFault (List Char × List Char) :=
  let ends (d : Char) : Bool := d = '=' || isSpace d
  let key := c :: cs.takeWhile (!ends ·)
  match skipSpace (cs.dropWhile (!ends ·)) with
  | [] => .error (.noEquals length)
  | d :: rest =>
      if d = '=' then .ok (key, rest)
      else .error (.noEquals (length - byteLength (d :: rest)))

/-- The characters in front of and behind the first occurrence of a quote. -/
def splitQuote (quote : Char) : List Char → Option (List Char × List Char)
  | [] => none
  | c :: cs =>
      if c = quote then some ([], cs)
      else (splitQuote quote cs).map fun (value, rest) => (c :: value, rest)

/-- Splits what follows an equals sign into the value and what follows the closing quote. -/
def splitValue (length : Nat) (cs : List Char) :
    Except AttributeFault (List Char × List Char) :=
  match skipSpace cs with
  | [] => .error (.noValue length)
  | q :: rest =>
      if q = '"' ∨ q = '\'' then
        match splitQuote q rest with
        | some split => .ok split
        | none => .error (.unclosed length q)
      else .error (.unquoted (length - byteLength (q :: rest)))

theorem splitKey_length {length : Nat} {c : Char} {cs key rest : List Char}
    (h : splitKey length c cs = .ok (key, rest)) : rest.length < cs.length + 1 := by
  simp only [splitKey] at h
  split at h
  · simp at h
  · next d r heq =>
      split at h
      · simp only [Except.ok.injEq, Prod.mk.injEq] at h
        have h₁ := skipSpace_length (cs.dropWhile fun x => !(decide (x = '=') || isSpace x))
        rw [heq, h.2, List.length_cons] at h₁
        have h₂ := (List.dropWhile_sublist
          (fun x => !(decide (x = '=') || isSpace x)) (l := cs)).length_le
        omega
      · simp at h

theorem splitQuote_length {quote : Char} {cs value rest : List Char}
    (h : splitQuote quote cs = some (value, rest)) : rest.length < cs.length := by
  fun_induction splitQuote quote cs generalizing value with
  | case1 => simp at h
  | case2 => simp_all
  | case3 c cs _ ih =>
      obtain ⟨⟨v, r⟩, hv, he⟩ := Option.map_eq_some_iff.1 h
      simp only [Prod.mk.injEq] at he
      have := ih (he.2 ▸ hv)
      simp only [List.length_cons]
      omega

theorem splitValue_length {length : Nat} {cs value rest : List Char}
    (h : splitValue length cs = .ok (value, rest)) : rest.length < cs.length := by
  have hs := skipSpace_length cs
  simp only [splitValue] at h
  split at h
  · simp at h
  · next q r heq =>
      rw [heq, List.length_cons] at hs
      split at h
      · split at h
        · next hq =>
            simp only [Except.ok.injEq] at h
            have := splitQuote_length (h ▸ hq)
            omega
        · simp at h
      · simp at h

/-- Reads the attributes of a content of the given length. `seen` holds the keys read before and
their positions. -/
def attributesFrom (length : Nat) (seen : Entries Nat) (cs : List Char) :
    Except Fault (Entries String) :=
  match h : skipSpace cs with
  | [] => .ok []
  | c :: rest =>
      match hk : splitKey length c rest with
      | .error fault => .error (.attribute fault)
      | .ok (key, after) =>
          let key := String.ofList key
          let position := length - byteLength (c :: rest)
          match seen.get? key with
          | some previous => .error (.attribute (.duplicate position previous))
          | none =>
              match hv : splitValue length after with
              | .error fault => .error (.attribute fault)
              | .ok (value, behind) =>
                  have : behind.length < cs.length := by
                    have h₁ := skipSpace_length cs
                    have h₂ := splitKey_length hk
                    have h₃ := splitValue_length hv
                    rw [h, List.length_cons] at h₁
                    omega
                  match unescape (String.ofList value) with
                  | .error fault => .error (.reference fault)
                  | .ok value =>
                      (attributesFrom length (seen.insert key position) behind).map
                        ((key, value) :: ·)
termination_by cs.length

/-- The attributes of a tag in order. -/
def Tag.attributes (t : Tag) : Except Fault (Entries String) :=
  attributesFrom (t.name.utf8ByteSize + byteLength t.rest) [] t.rest

end Tabulation.Xml
