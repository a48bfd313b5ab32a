import Tabulation.Content.Inline
import Tabulation.Text.Blank
import Tabulation.Text.Pieces

/-!
# Content from text

Blanks separate words. Three constructs are recognised, each only if it closes: `**strong**`
text, `` `text`{=format} `` for one output format, and note references `[^a]_` or `[^a,b]_`. A
character that opens none of them belongs to a word, so no text is refused and none is lost.
-/

namespace Tabulation.Inline

open Text

/-- What follows the given characters, if the text begins with them. -/
def after? : (start : List Char) → List Char → Option (List Char)
  | [], cs => some cs
  | _ :: _, [] => none
  | p :: ps, c :: cs => if p = c then after? ps cs else none

/-- The parts of a text before and behind the first place where the given characters stand. -/
def breakOn (mark : List Char) : List Char → Option (List Char × List Char)
  | [] => (after? mark []).map ([], ·)
  | c :: cs =>
      match after? mark (c :: cs) with
      | some behind => some ([], behind)
      | none => (breakOn mark cs).map fun (before, behind) => (c :: before, behind)

/-- A construct that opened and closed. -/
inductive Construct where
  | strong (inner : List Char)
  | raw (format text : List Char)
  | notes (labels : List (List Char))

def strong? (cs : List Char) : Option (Construct × List Char) := do
  let opened ← after? ['*', '*'] cs
  let (inner, rest) ← breakOn ['*', '*'] opened
  if inner.all isBlank then none else some (.strong inner, rest)

def raw? (cs : List Char) : Option (Construct × List Char) := do
  let opened ← after? ['\x60'] cs
  let (text, closed) ← breakOn ['\x60'] opened
  let named ← after? ['\x7b', '='] closed
  let (format, rest) ← breakOn ['\x7d'] named
  if format.isEmpty || format.any isBlank then none else some (.raw format text, rest)

def notes? (cs : List Char) : Option (Construct × List Char) := do
  let opened ← after? ['[', '^'] cs
  let (body, closed) ← breakOn [']'] opened
  let rest ← after? ['_'] closed
  if body.isEmpty || body.any (fun c => isBlank c || c = '[') then none
  else some (.notes ((pieces ',' body).filter (!·.isEmpty)), rest)

/-- The construct that opens with the first character and closes somewhere, and what follows
it. -/
def construct? (cs : List Char) : Option (Construct × List Char) :=
  (strong? cs).or ((raw? cs).or (notes? cs))

theorem after?_length {start cs rest : List Char} (h : after? start cs = some rest) :
    rest.length + start.length = cs.length := by
  fun_induction after? start cs with
  | case1 cs => simp_all
  | case2 => simp at h
  | case3 p ps cs ih =>
      have := ih h
      simp only [List.length_cons]
      omega
  | case4 => simp at h

theorem breakOn_length {mark cs before behind : List Char}
    (h : breakOn mark cs = some (before, behind)) :
    before.length + mark.length + behind.length = cs.length := by
  fun_induction breakOn mark cs generalizing before behind with
  | case1 =>
      obtain ⟨r, hr, he⟩ := Option.map_eq_some_iff.1 h
      have := after?_length hr
      simp only [Prod.mk.injEq] at he
      simp only [← he.1, ← he.2, List.length_nil] at this ⊢
      omega
  | case2 c cs r hr =>
      have := after?_length hr
      simp only [Option.some.injEq, Prod.mk.injEq] at h
      simp only [← h.1, ← h.2, List.length_nil]
      omega
  | case3 c cs _ ih =>
      obtain ⟨⟨b, r⟩, hb, he⟩ := Option.map_eq_some_iff.1 h
      have := ih hb
      simp only [Prod.mk.injEq] at he
      simp only [← he.1, ← he.2, List.length_cons]
      omega

/-- The part of a construct that is read as content once more. -/
def Construct.inner : Construct → List Char
  | .strong inner => inner
  | _ => []

/-- A construct is longer than what it holds, and the rest is what it leaves. -/
theorem construct?_length {cs rest : List Char} {k : Construct}
    (h : construct? cs = some (k, rest)) :
    k.inner.length < cs.length ∧ rest.length < cs.length := by
  simp only [construct?, Option.or_eq_some_iff] at h
  rcases h with h | ⟨-, h | ⟨-, h⟩⟩
  · simp only [strong?, Option.bind_eq_bind, Option.bind_eq_some_iff] at h
    obtain ⟨opened, ho, ⟨inner, r⟩, hb, h⟩ := h
    have h₁ := after?_length ho
    have h₂ := breakOn_length hb
    split at h
    · simp at h
    · simp only [Option.some.injEq, Prod.mk.injEq] at h
      simp only [← h.1, ← h.2, Construct.inner, List.length_cons, List.length_nil] at h₁ h₂ ⊢
      omega
  · simp only [raw?, Option.bind_eq_bind, Option.bind_eq_some_iff] at h
    obtain ⟨opened, ho, ⟨text, closed⟩, hb, named, hn, ⟨format, r⟩, hf, h⟩ := h
    have h₁ := after?_length ho
    have h₂ := breakOn_length hb
    have h₃ := after?_length hn
    have h₄ := breakOn_length hf
    split at h
    · simp at h
    · simp only [Option.some.injEq, Prod.mk.injEq] at h
      simp only [← h.1, ← h.2, Construct.inner, List.length_cons, List.length_nil]
        at h₁ h₂ h₃ h₄ ⊢
      omega
  · simp only [notes?, Option.bind_eq_bind, Option.bind_eq_some_iff] at h
    obtain ⟨opened, ho, ⟨body, closed⟩, hb, r, hr, h⟩ := h
    have h₁ := after?_length ho
    have h₂ := breakOn_length hb
    have h₃ := after?_length hr
    split at h
    · simp at h
    · simp only [Option.some.injEq, Prod.mk.injEq] at h
      simp only [← h.1, ← h.2, Construct.inner, List.length_cons, List.length_nil] at h₁ h₂ h₃ ⊢
      omega

/-- Puts a word, given backwards, in front of what follows it. -/
def flush (word : List Char) (following : List Inline) : List Inline :=
  if word.isEmpty then following else .word (String.ofList word.reverse) :: following

/-- The content of a text, with a space for every blank. The word that is being read is kept
backwards. -/
def scan (word : List Char) (cs : List Char) : List Inline :=
  match cs with
  | [] => flush word []
  | c :: rest =>
      if isBlank c then flush word (.space :: scan [] rest)
      else
        match h : construct? (c :: rest) with
        | none => scan (c :: word) rest
        | some (.strong inner, behind) =>
            have := construct?_length h
            flush word (.strong (normalize (scan [] inner)) :: scan [] behind)
        | some (.raw format text, behind) =>
            have := construct?_length h
            flush word (.raw (String.ofList format) (String.ofList text) :: scan [] behind)
        | some (.notes labels, behind) =>
            have := construct?_length h
            flush word (labels.map (fun label => .note (String.ofList label)) ++ scan [] behind)
termination_by cs.length
decreasing_by
  all_goals simp_all [Construct.inner]

/-- The content of a text. -/
def ofText (text : String) : List Inline :=
  normalize (scan [] text.toList)

end Tabulation.Inline
