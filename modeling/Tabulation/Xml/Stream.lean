import Tabulation.Xml.Attribute

/-!
# Markup as a stream of events

Markup is read from left to right into tags, texts and a few things that carry no table. White
space around texts is dropped. End tags must match the innermost open element, but nothing
requires that elements are closed when the text ends; whoever reads the stream has to ask for
that. Each event comes with the position that a complaint about it shows: the bytes read so far,
less one behind a text.
-/

namespace Tabulation.Xml

open Text

inductive Event where
  | start (tag : Tag)
  /-- An element without content, written as one tag. -/
  | empty (tag : Tag)
  | finish (name : String)
  /-- A text with its references as they are written. -/
  | text (escaped : String)
  | cdata (text : String)
  /-- A comment, a declaration or a processing instruction. -/
  | other
deriving Repr, DecidableEq

/-- Events with their positions, up to the end of the text or to the first fault. -/
inductive Stream where
  | finish (position : Nat)
  | fault (fault : Fault)
  | next (event : Event) (position : Nat) (rest : Stream)
deriving Repr, DecidableEq

/-- What was read behind an opening bracket. -/
structure Markup where
  event : Event
  /-- The names of the elements that are open now, the innermost first. -/
  opened : List String
  /-- The bytes that count as read. -/
  size : Nat
  rest : List Char

/-- The quote that is open behind a character. -/
def quoteAfter (c : Char) : Option Char → Option Char
  | none => if c = '\'' ∨ c = '"' then some c else none
  | some q => if c = q then none else some q

/-- The content of an element's tag and what follows it: a `>` between quotes does not end it. -/
def splitTag (quote : Option Char) : List Char → Option (List Char × List Char)
  | [] => none
  | c :: cs =>
      if quote = none ∧ c = '>' then some ([], cs)
      else (splitTag (quoteAfter c quote) cs).map fun (content, rest) => (c :: content, rest)

/-- The characters up to the first `>` at which a construct closes, by what stands in front of
it, which is given backwards. -/
def splitBang (closes : List Char → Bool) (seen : List Char) :
    List Char → Option (List Char × List Char)
  | [] => none
  | c :: cs =>
      if c = '>' && closes seen then some (seen.reverse, cs)
      else splitBang closes (c :: seen) cs

/-- The characters up to the next `>`, the bytes that they take together with it, and what
follows. Without a `>` they are all there are. -/
def upToBracket (cs : List Char) : List Char × Nat × List Char :=
  match splitBang (fun _ => true) [] cs with
  | some (content, rest) => (content, byteLength content + 1, rest)
  | none => (cs, byteLength cs, [])

/-- A comment closes at `-->`, of which the hyphens are not those that open it. -/
def closesComment (seen : List Char) : Bool :=
  ['-', '-'].isPrefixOf seen && 4 ≤ byteLength seen

def closesCData (seen : List Char) : Bool :=
  [']', ']'].isPrefixOf seen

/-- A document type closes where the brackets in it balance. -/
def closesDoctype (seen : List Char) : Bool :=
  seen.count '<' = seen.count '>'

/-- Whether a text begins with the given capital letters and other characters, in letters of
either case. -/
def beginsWith (start text : List Char) : Bool :=
  start.isPrefixOf (text.map Char.toUpper)

/-- The event of a construct that begins with `<!`, from its content behind that. -/
def bangEvent (kind : Construct) (content : List Char) : Except Fault Event :=
  match kind with
  | .comment =>
      if ['-', '-'].isPrefixOf content then .ok .other else .error (.unexpectedEnd .comment)
  | .cdata =>
      if beginsWith "[CDATA[".toList content then
        let inner := content.drop 7
        .ok (.cdata (String.ofList (inner.take (inner.length - 2))))
      else .error (.unexpectedEnd .cdata)
  | .doctype =>
      if beginsWith "DOCTYPE".toList content then
        if (skipSpace (content.drop 7)).isEmpty then .error .emptyDoctype else .ok .other
      else .error (.unexpectedEnd .doctype)
  | kind => .error (.unexpectedEnd kind)

/-- Reads what follows `<!`. -/
def readBang (opened : List String) (cs : List Char) : Except Fault Markup :=
  let construct : Except Fault (Construct × (List Char → Bool)) := match cs with
    | [] => .error (.unexpectedEnd .bang)
    | c :: _ =>
        if c = '[' then .ok (.cdata, closesCData)
        else if c = '-' then .ok (.comment, closesComment)
        else if c = 'D' ∨ c = 'd' then .ok (.doctype, closesDoctype)
        else .error (.unexpectedBang (firstByte c))
  match construct with
  | .error fault => .error fault
  | .ok (kind, closes) =>
      match splitBang closes [] cs with
      | none => .error (.unexpectedEnd kind)
      | some (content, rest) =>
          (bangEvent kind content).map fun event =>
            { event, opened, size := 1 + byteLength content + 1, rest }

/-- The name in an end tag: what stands in it, without the white space behind it. A tag of white
space alone is its own name. -/
def endName (content : List Char) : String :=
  let trimmed := trimSpaceRight content
  String.ofList (if trimmed.isEmpty then content else trimmed)

/-- Reads what follows `</`. -/
def readEnd (opened : List String) (cs : List Char) : Except Fault Markup :=
  let (content, size, rest) := upToBracket cs
  let name := endName content
  match opened with
  | [] => .error (.mismatch "" (String.ofList content))
  | expected :: outer =>
      if name = expected then
        .ok { event := .finish name, opened := outer, size := 1 + size, rest }
      else .error (.mismatch expected name)

/-- Reads what follows `<?`. -/
def readInstruction (opened : List String) (cs : List Char) : Except Fault Markup :=
  let (content, size, rest) := upToBracket cs
  if 1 < content.length ∧ content.getLast? = some '?' then
    .ok { event := .other, opened, size := 1 + size, rest }
  else .error (.unexpectedEnd .declaration)

/-- The event of an element's tag and the elements that are open behind it. -/
def tagEvent (opened : List String) (content : List Char) : Event × List String :=
  if content.getLast? = some '/' then (.empty (Tag.ofContent content.dropLast), opened)
  else
    let tag := Tag.ofContent content
    (.start tag, tag.name :: opened)

/-- Reads what follows `<`, if that is not the end of the text. A tag that does not close takes
the rest of the text, of which nothing counts as read. -/
def readMarkup (opened : List String) (c : Char) (cs : List Char) : Except Fault Markup :=
  if c = '!' then readBang opened cs
  else if c = '/' then readEnd opened cs
  else if c = '?' then readInstruction opened cs
  else
    match splitTag none (c :: cs) with
    | some (content, rest) =>
        let tag := tagEvent opened content
        .ok { event := tag.1, opened := tag.2, size := byteLength content + 1, rest }
    | none =>
        let tag := tagEvent opened (c :: cs)
        .ok { event := tag.1, opened := tag.2, size := 0, rest := [] }

theorem splitTag_length {quote : Option Char} {cs content rest : List Char}
    (h : splitTag quote cs = some (content, rest)) : rest.length < cs.length := by
  fun_induction splitTag quote cs generalizing content with
  | case1 => simp at h
  | case2 => simp_all
  | case3 quote c cs _ ih =>
      obtain ⟨⟨b, r⟩, hb, he⟩ := Option.map_eq_some_iff.1 h
      simp only [Prod.mk.injEq] at he
      have := ih (he.2 ▸ hb)
      simp only [List.length_cons]
      omega

theorem splitBang_length {closes : List Char → Bool} {seen cs content rest : List Char}
    (h : splitBang closes seen cs = some (content, rest)) : rest.length < cs.length := by
  fun_induction splitBang closes seen cs with
  | case1 => simp at h
  | case2 => simp_all
  | case3 seen c cs _ ih =>
      have := ih h
      simp only [List.length_cons]
      omega

theorem upToBracket_length (cs : List Char) : (upToBracket cs).2.2.length ≤ cs.length := by
  simp only [upToBracket]
  split
  · next hs => exact Nat.le_of_lt (splitBang_length hs)
  · simp

/-- Markup takes at least the character behind its bracket, or all of them. -/
theorem readMarkup_length {opened : List String} {c : Char} {cs : List Char} {m : Markup}
    (h : readMarkup opened c cs = .ok m) : m.rest.length ≤ cs.length := by
  simp only [readMarkup] at h
  split at h
  · simp only [readBang] at h
    split at h
    · simp at h
    · split at h
      · simp at h
      · next hs =>
          have := splitBang_length hs
          cases hb : bangEvent _ _ with
          | error => rw [hb] at h; simp [Except.map] at h
          | ok =>
              rw [hb] at h
              simp only [Except.map, Except.ok.injEq] at h
              rw [← h]
              exact Nat.le_of_lt this
  split at h
  · have := upToBracket_length cs
    simp only [readEnd] at h
    split at h
    · simp at h
    · split at h
      · simp only [Except.ok.injEq] at h
        rw [← h]
        exact this
      · simp at h
  split at h
  · have := upToBracket_length cs
    simp only [readInstruction] at h
    split at h
    · simp only [Except.ok.injEq] at h
      rw [← h]
      exact this
    · simp at h
  split at h
  · next hs =>
      have := splitTag_length hs
      simp only [Except.ok.injEq] at h
      rw [← h]
      simp only [List.length_cons] at this ⊢
      omega
  · simp only [Except.ok.injEq] at h
    rw [← h]
    simp

theorem dropWhile_tail_length {p : Char → Bool} {cs behind : List Char} {c : Char}
    (h : cs.dropWhile p = c :: behind) : behind.length < cs.length := by
  have := (List.dropWhile_sublist p (l := cs)).length_le
  rw [h, List.length_cons] at this
  omega

mutual

/-- The events of a text of which some bytes have been read, outside of any tag. -/
def scan (opened : List String) (consumed : Nat) (cs : List Char) : Stream :=
  let consumed := consumed + (cs.takeWhile isSpace).length
  match hs : skipSpace cs with
  | [] => .finish consumed
  | c :: rest =>
      have := skipSpace_tail_length hs
      if c = '<' then scanMarkup opened (consumed + 1) rest
      else
        let text := c :: rest.takeWhile (· ≠ '<')
        let consumed := consumed + byteLength text
        let escaped := String.ofList (trimSpaceRight text)
        match hd : rest.dropWhile (· ≠ '<') with
        | [] => .next (.text escaped) (consumed - 1) (.finish consumed)
        | _ :: behind =>
            have := dropWhile_tail_length hd
            .next (.text escaped) consumed (scanMarkup opened (consumed + 1) behind)
termination_by (cs.length, 0)

/-- The events of a text of which an opening bracket was read last. -/
def scanMarkup (opened : List String) (consumed : Nat) (cs : List Char) : Stream :=
  match cs with
  | [] => .finish consumed
  | c :: rest =>
      match h : readMarkup opened c rest with
      | .error fault => .fault fault
      | .ok m =>
          have := readMarkup_length h
          .next m.event (consumed + m.size) (scan m.opened (consumed + m.size) m.rest)
termination_by (cs.length, 0)

end

/-- The events of a text; a mark of the byte order in front of it does not count. -/
def Stream.ofText (text : String) : Stream :=
  match text.toList with
  | '\uFEFF' :: cs => scan [] 0 cs
  | cs => scan [] 0 cs

end Tabulation.Xml
