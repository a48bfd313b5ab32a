import Tabulation.Command

/-!
# The program

Reads what an invocation names, and writes what its run left.
-/

namespace Tabulation.Command

/-- The fault of a path that an error of the system tells of. -/
def PathFault.ofSystem : IO.Error → PathFault
  | .noFileOrDirectory .. => .missing
  | _ => .directory

/-- Writes the file of an outcome, if it has one; says why that failed if it did. -/
def Outcome.write (o : Outcome) : IO (Option PathFault) := do
  match o.file with
  | none => pure none
  | some file =>
      try
        IO.FS.writeFile file.path file.content
        pure none
      catch e => pure (some (.ofSystem e))

/-- Carries an outcome out and gives its exit code. -/
def Outcome.show (o : Outcome) : IO UInt32 := do
  let o := o.afterWriting (← o.write)
  (← IO.getStderr).putStr o.stderr
  (← IO.getStdout).putStr o.stdout
  return o.code.toUInt32

/-- The input of an invocation, or why it cannot be read. -/
def Invocation.read (i : Invocation) : IO (Except PathFault String) := do
  match i.input with
  | none => Except.ok <$> (← IO.getStdin).readToEnd
  | some path =>
      try
        Except.ok <$> IO.FS.readFile path
      catch e => pure (.error (.ofSystem e))

end Tabulation.Command

open Tabulation in
def main (arguments : List String) : IO UInt32 := do
  match Command.parse arguments with
  | .usageError => Command.usageOutcome.show
  | .version => Command.versionOutcome.show
  | .help => Command.helpOutcome.show
  | .run invocation =>
      match ← invocation.read with
      | .error fault => (Command.unreadable fault).show
      | .ok input => (invocation.run input).show
