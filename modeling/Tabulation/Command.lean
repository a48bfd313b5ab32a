import Tabulation.Document

/-!
# The command line

The command reads one document, from a file or from standard input, and writes it in one format,
to a file or to standard output. Here the command line is taken apart and the run is described;
reading and writing are left to the caller, so everything that is decided is decided in pure
functions. Each option and the input file may be given once. Values may follow an option or be
attached to it, flags of one letter may be joined, and behind `--` everything is an input file.
-/

namespace Tabulation.Command

structure Invocation where
  input : Option String := none
  output : Option String := none
  format : Format := .latex
  strict : Bool := false
  totalWidth : Float := 0.8
  numberWithin : Nat := 1
  noteSymbols : NoteSymbols := .lion
  quiet : Bool := false

/-- What a command line asks for. -/
inductive Request where
  | run (invocation : Invocation)
  | version
  | help
  | usageError

inductive Key where
  | output
  | format
  | strict
  | totalWidth
  | numberWithin
  | noteSymbols
  | quiet
  | version
  | help
deriving Repr, DecidableEq

def Key.ofLong? (name : String) : Option Key :=
  match name with
  | "output" => some .output
  | "format" => some .format
  | "strict" => some .strict
  | "total-width" => some .totalWidth
  | "number-within" => some .numberWithin
  | "note-symbols" => some .noteSymbols
  | "quiet" => some .quiet
  | "version" => some .version
  | "help" => some .help
  | _ => none

def Key.ofShort? (letter : Char) : Option Key :=
  match letter with
  | 'o' => some .output
  | 'f' => some .format
  | 'q' => some .quiet
  | 'V' => some .version
  | 'h' => some .help
  | _ => none

def Key.takesValue : Key → Bool
  | .output => true
  | .format => true
  | .totalWidth => true
  | .numberWithin => true
  | .noteSymbols => true
  | _ => false

/-- One thing that a command line says. -/
inductive Item where
  | flag (key : Key)
  | option (key : Key) (value : String)
  | input (path : String)
  | malformed

/-- Whether an argument cannot be the value of the option in front of it. -/
def looksLikeOption (argument : String) : Bool :=
  match argument.toList with
  | '-' :: _ :: _ => true
  | _ => false

/-- An option whose value, if it needs one, is the next argument. -/
def withNext (key : Key) (next : List String) : Item × List String :=
  match next with
  | value :: rest => if looksLikeOption value then (.malformed, rest) else (.option key value, rest)
  | [] => (.malformed, [])

/-- The items of joined one-letter flags, of which the last may take a value: what is left of the
argument, or the next one. -/
def shortItems : List Char → List String → List Item × List String
  | [], next => ([], next)
  | c :: cs, next =>
      match Key.ofShort? c with
      | none => ([.malformed], next)
      | some key =>
          if key.takesValue then
            match cs with
            | [] =>
                let (item, rest) := withNext key next
                ([item], rest)
            | '=' :: value => ([.option key (String.ofList value)], next)
            | value => ([.option key (String.ofList value)], next)
          else
            let (items, rest) := shortItems cs next
            (.flag key :: items, rest)

/-- The item of a long option, given without its hyphens. -/
def longItem (body : List Char) (next : List String) : Item × List String :=
  let name := String.ofList (body.takeWhile (· ≠ '='))
  match Key.ofLong? name, body.dropWhile (· ≠ '=') with
  | none, _ => (.malformed, next)
  | some key, _ :: value =>
      if key.takesValue then (.option key (String.ofList value), next) else (.malformed, next)
  | some key, [] => if key.takesValue then withNext key next else (.flag key, next)

theorem withNext_length (key : Key) (next : List String) :
    (withNext key next).2.length ≤ next.length := by
  simp only [withNext]
  split
  · split <;> simp
  · simp

theorem shortItems_length (cs : List Char) (next : List String) :
    (shortItems cs next).2.length ≤ next.length := by
  fun_induction shortItems cs next with
  | case1 => simp
  | case2 => simp
  | case3 c next key _ _ item rest heq =>
      have := withNext_length key next
      rw [heq] at this
      exact this
  | case4 => simp
  | case5 => simp
  | case6 =>
      rename_i heq ih
      rw [heq] at ih
      exact ih

theorem longItem_length (body : List Char) (next : List String) :
    (longItem body next).2.length ≤ next.length := by
  simp only [longItem]
  split
  · simp
  · split <;> simp
  · split
    · exact withNext_length _ _
    · simp

/-- The items of a command line in order. -/
def items (arguments : List String) : List Item :=
  match arguments with
  | [] => []
  | argument :: next =>
      match argument.toList with
      | ['-', '-'] => next.map .input
      | '-' :: '-' :: body =>
          have := longItem_length body next
          (longItem body next).1 :: items (longItem body next).2
      | '-' :: c :: cs =>
          have := shortItems_length (c :: cs) next
          (shortItems (c :: cs) next).1 ++ items (shortItems (c :: cs) next).2
      | _ => .input argument :: items next
termination_by arguments.length

def parseFormat? (value : String) : Option Format :=
  match value with
  | "latex" => some .latex
  | "odt" => some .odt
  | _ => none

def parseSymbols? (value : String) : Option NoteSymbols :=
  match value with
  | "chicago" => some .chicago
  | "lion" => some .lion
  | "bringhurst" => some .bringhurst
  | "wiley" => some .wiley
  | _ => none

/-- Sets an option from its value, unless that is no value of it. -/
def setOption (i : Invocation) (key : Key) (value : String) : Option Invocation :=
  match key with
  | .output => some { i with output := some value }
  | .format => (parseFormat? value).map fun format => { i with format }
  | .totalWidth => (Decimal.float? value).map fun totalWidth => { i with totalWidth }
  | .numberWithin => (Decimal.nat64? value).map fun numberWithin => { i with numberWithin }
  | .noteSymbols => (parseSymbols? value).map fun noteSymbols => { i with noteSymbols }
  | _ => none

def setFlag (i : Invocation) (key : Key) : Option Invocation :=
  match key with
  | .strict => some { i with strict := true }
  | .quiet => some { i with quiet := true }
  | _ => none

/-- Goes through the items in order. `given` are the keys that were given before. -/
def interpret (i : Invocation) (given : List Key) : List Item → Request
  | [] => .run i
  | .flag .version :: _ => .version
  | .flag .help :: _ => .help
  | .malformed :: _ => .usageError
  | .input path :: rest =>
      if i.input.isSome then .usageError
      else interpret { i with input := some path } given rest
  | .flag key :: rest =>
      match setFlag i key with
      | some i => if given.contains key then .usageError else interpret i (key :: given) rest
      | none => .usageError
  | .option key value :: rest =>
      match setOption i key value with
      | some i => if given.contains key then .usageError else interpret i (key :: given) rest
      | none => .usageError

/-- What a command line asks for. -/
def parse (arguments : List String) : Request :=
  interpret {} [] (items arguments)

/-- Why a path could not be read or written. -/
inductive PathFault where
  | missing
  | directory
deriving Repr, DecidableEq

def PathFault.message : PathFault → String
  | .missing =>
      "Os \x7b code: 2, kind: NotFound, message: \"No such file or directory\" \x7d"
  | .directory =>
      "Os \x7b code: 21, kind: IsADirectory, message: \"Is a directory\" \x7d"

/-- A file that a run writes. -/
structure OutputFile where
  path : String
  content : String
  /-- What is said once the file has been written. -/
  notice : String
deriving Repr, DecidableEq

/-- What a run leaves behind. -/
structure Outcome where
  code : Nat
  stdout : String
  stderr : String
  file : Option OutputFile := none
deriving Repr, DecidableEq

def failure (message : String) : Outcome :=
  { code := 1, stdout := "", stderr := "Error: " ++ message ++ "\n" }

/-- The outcome when the file of a run, if it has one, has been written or was refused. -/
def Outcome.afterWriting (o : Outcome) (refused : Option PathFault) : Outcome :=
  match o.file, refused with
  | none, _ => o
  | some file, none => { o with stderr := o.stderr ++ file.notice }
  | some _, some fault =>
      let failed := failure fault.message
      { failed with stderr := o.stderr ++ failed.stderr }

/-- The outcome of a run that ended in an overflow. What is said about that is for the
maintainers, and not part of it. -/
def overflowOutcome : Outcome :=
  { code := 101, stdout := "", stderr := "" }

def versionOutcome : Outcome :=
  { code := 0, stdout := "tabset 0.3.5\n", stderr := "" }

def helpOutcome : Outcome :=
  { code := 0
    stdout := "tabset - render table markup to booktabs LaTeX or OpenDocument\n\n" ++
      "Usage: tabset [OPTIONS] [INPUT_FILE]\n"
    stderr := "" }

def usageOutcome : Outcome :=
  { code := 2, stdout := "", stderr := "Usage: tabset [OPTIONS] [INPUT_FILE]\n" }

/-- The input could not be read. -/
def unreadable (fault : PathFault) : Outcome :=
  failure fault.message

def Invocation.options (i : Invocation) : Options Float :=
  { (Options.default : Options Float) with
    lenient := !i.strict
    totalWidth := i.totalWidth
    numberWithin := i.numberWithin
    noteSymbols := i.noteSymbols }

def warningsText (warnings : List Warning) : String :=
  if warnings.isEmpty then ""
  else
    "\n⚠ " ++ toString warnings.length ++ " warning(s):\n" ++
      String.join (warnings.map fun w => "  " ++ w.message ++ "\n") ++ "\n"

/-- Where the output went. -/
def writtenText (path : String) (warnings : List Warning) : String :=
  if warnings.isEmpty then "✓ Output written to: " ++ path ++ "\n"
  else
    "⚠ Output written to: " ++ path ++ " (" ++ toString warnings.length ++ " warning(s))\n"

/-- The run of an invocation on its input. -/
def Invocation.run (i : Invocation) (input : String) : Outcome :=
  match renderDocument input i.format i.options with
  | .error (.refused e) => failure e.message
  | .error .overflow => overflowOutcome
  | .ok r =>
      let warnings := if i.quiet then "" else warningsText r.warnings
      let output := r.output ++ "\n"
      match i.output with
      | none => { code := 0, stdout := output, stderr := warnings }
      | some path =>
          { code := 0
            stdout := ""
            stderr := warnings
            file := some { path, content := output, notice := writtenText path r.warnings } }

end Tabulation.Command
