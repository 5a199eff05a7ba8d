/-
# The program

Reads the file that the command line names, prints the response to standard output and standard
error, and returns its exit code.
-/
import RegisterMachine.Console.Response

namespace RegisterMachine.Console

/-- The file that a command reads. -/
def Command.path? : Command → Option String
  | .run path .. => some path
  | .level _ path .. => some path
  | .levels => none

/-- What the file at a path holds. -/
def readFile (path : String) : IO (Except SourceError ByteArray) := do
  try
    return .ok (← IO.FS.readBinFile path)
  catch
    | .noFileOrDirectory .. => return .error .missing
    | error => return .error (.unreadable (toString error))

/-- The contents of the file that a command line names, if it names one. -/
def readFiles (commandLine : List String) : IO Files := do
  match Arguments.parse commandLine with
  | .error _ => return fun _ => .error .missing
  | .ok arguments =>
      match arguments.command.path? with
      | none => return fun _ => .error .missing
      | some path =>
          let content ← readFile path
          return fun name => if name = path then content else .error .missing

/-- A record of the journal on one line. -/
def recordLine (record : Record) : String :=
  "[" ++ record.line.severity.name ++ " " ++ record.line.origin ++ "] " ++ record.line.message

end RegisterMachine.Console

open RegisterMachine.Console in
/-- Answers a command line. -/
def main (commandLine : List String) : IO UInt32 := do
  let response := respond (← readFiles commandLine) commandLine
  for record in response.journal do
    IO.eprintln (recordLine record)
  for line in response.printed do
    IO.println line
  for line in response.complaints do
    IO.eprintln line
  return UInt32.ofNat response.exitCode
