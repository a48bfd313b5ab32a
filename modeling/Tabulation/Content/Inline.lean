/-!
# Cell content

The content of a cell, a caption or a note is a sequence of words, spaces and a few kinds of
markup, the same for every output. Spaces stand between words only; `normalize` restores that
after something has been taken out.
-/

namespace Tabulation

inductive Inline where
  | word (text : String)
  | space
  | strong (inner : List Inline)
  /-- Text that only one output format takes, and takes as it is. -/
  | raw (format text : String)
  /-- A reference to the note of a label. -/
  | note (label : String)

namespace Inline

def isSpace : Inline → Bool
  | .space => true
  | _ => false

mutual

/-- The text of a piece without its markup. -/
def plain : Inline → String
  | .word text => text
  | .space => " "
  | .strong inner => plainText inner
  | .raw _ _ => ""
  | .note _ => ""

def plainText : List Inline → String
  | [] => ""
  | x :: xs => x.plain ++ plainText xs

end

mutual

/-- Whether a piece shows nothing. -/
def blank : Inline → Bool
  | .word text => text.isEmpty
  | .space => true
  | .strong inner => allBlank inner
  | .raw _ text => text.isEmpty
  | .note _ => false

def allBlank : List Inline → Bool
  | [] => true
  | x :: xs => x.blank && allBlank xs

end

/-- Drops the spaces at the end, those that follow a space, and those at the start if `atStart`
says that a space would stand there. -/
def squeeze (atStart : Bool) : List Inline → List Inline
  | [] => []
  | .space :: xs =>
      if atStart then squeeze true xs
      else
        match squeeze true xs with
        | [] => []
        | ys => .space :: ys
  | x :: xs => x :: squeeze false xs

/-- Drops leading, trailing and doubled spaces. -/
def normalize (xs : List Inline) : List Inline :=
  squeeze true xs

end Inline

end Tabulation
