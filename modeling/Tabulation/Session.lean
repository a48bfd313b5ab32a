import Tabulation.Error
import Tabulation.Reference.Counter
import Tabulation.Reference.Label
import Tabulation.Reference.Note
import Tabulation.Table.Widths

/-!
# Options and the state of a render

A session is what the tables of one document share: the options, the counters, the labels, the
styles collected for the document and the warnings. Tables are rendered once each and in the order
of the document, because every table counts.
-/

namespace Tabulation

structure Options (α : Type) where
  /-- Replace what cannot be used and go on. -/
  lenient : Bool := true
  /-- The part of the text width that a table takes unless it says otherwise. -/
  totalWidth : α
  /-- The level of the headings within which tables are numbered; zero numbers them through. -/
  numberWithin : Nat := 1
  noteSymbols : NoteSymbols := .lion
  /-- The outline level of the caption sequence in OpenDocument. -/
  outlineLevel : Nat := 1

namespace Options

variable {α : Type} [Scalar α]

def default : Options α := { totalWidth := 0.8 }

def strictPreset : Options α := { (default : Options α) with lenient := false }

/-- Lenient, and tables as wide as the text. -/
def lenientPreset : Options α := { (default : Options α) with totalWidth := 1.0 }

/-- Refuses options with which every table would fail. -/
def validate (o : Options α) : Except Error Unit :=
  if isTotalWidth o.totalWidth then .ok ()
  else .error (.width (Scalar.text o.totalWidth) .total)

end Options

structure Session (α : Type) where
  options : Options α
  counters : Counters := []
  labels : Labels := {}
  /-- The styles that rendered tables refer to. -/
  styles : List String := []
  warnings : List Warning := []

namespace Session

variable {α : Type}

def enterHeading (s : Session α) (level : Nat) : Session α :=
  { s with counters := s.counters.enterHeading level }

/-- Counts a table and gives its number. -/
def nextTableNumber (s : Session α) : String × Session α :=
  let (number, counters) := s.counters.nextTable s.options.numberWithin
  (dotted number, { s with counters })

/-- Registers the name of a table and gives its link target. -/
def registerTable (s : Session α) (name : String) : String × Session α :=
  let target := "tab:" ++ name
  (target, { s with labels := s.labels.register name target .table })

/-- Registers a note under the prefix of its table and gives its link target. -/
def registerNote (s : Session α) (notes note : String) : String × Session α :=
  let target := notes ++ ":" ++ note
  (target, { s with labels := s.labels.register target target .note })

def addTarget (s : Session α) (target : String) : Session α :=
  { s with labels := s.labels.addTarget target }

def warn (s : Session α) (warnings : List Warning) : Session α :=
  { s with warnings := s.warnings ++ warnings }

def addStyle (s : Session α) (style : String) : Session α :=
  { s with styles := s.styles ++ [style] }

end Session

end Tabulation
