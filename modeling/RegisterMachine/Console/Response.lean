/-
# Responses

What the program answers to a command line, given what the files hold: an exit code, the lines that
it prints, the lines in which it complains, and its journal.

* exit code 0 : the program halted, or won the level; 1 : it did not, or there is nothing to run;
  2 : the command line is refused;
* `loadJournal`, `traceJournal` : what is told before a run, and of its steps if it is watched;
* `Command.respond` : the response to a command; `respond` : the response to a command line.
-/
import RegisterMachine.Console.Arguments
import RegisterMachine.Console.Report
import RegisterMachine.Machine.Journal

namespace RegisterMachine.Console

/-! ## Reading files -/

/-- Why a file gives no source text. -/
inductive SourceError
  /-- There is no such file. -/
  | missing
  /-- The file is not encoded in UTF-8. -/
  | notText
  /-- Reading it failed for another reason. -/
  | unreadable (reason : String)
  deriving DecidableEq, Repr

/-- The reason that is given to the user. -/
def SourceError.message : SourceError → String
  | missing => "No such file or directory (os error 2)"
  | notText => "stream did not contain valid UTF-8"
  | unreadable reason => reason

/-- What the files hold, by their paths. -/
abbrev Files := String → Except SourceError ByteArray

/-- The source text in a file. -/
def Files.source (files : Files) (path : String) : Except SourceError String := do
  let bytes ← files path
  match String.fromUTF8? bytes with
  | some source => return source
  | none => .error .notText

/-! ## Answering -/

/-- What the program answers. -/
structure Response where
  exitCode : Nat
  printed : List String
  complaints : List String
  journal : List Record
  deriving DecidableEq, Repr

namespace Response

/-- A response that only complains. -/
def failure (complaints : List String) : Response :=
  { exitCode := 1, printed := [], complaints, journal := [] }

/-- The complaint about a level that does not exist. -/
def noLevel (number : Nat) : Response :=
  failure
    ["Error: there is no level " ++ Text.numeral number ++ ", levels go from 1 to "
      ++ Text.numeral Level.catalog.length]

/-- The complaint about a file without source text. -/
def noSource (path : String) (error : SourceError) : Response :=
  failure ["Error: could not read program " ++ path, "", "Caused by:", "    " ++ error.message]

/-- A response to which something was told before. -/
def after (response : Response) (records : List Record) : Response :=
  { response with journal := records ++ response.journal }

@[simp] theorem exitCode_after (response : Response) (records : List Record) :
    (response.after records).exitCode = response.exitCode := rfl

@[simp] theorem printed_after (response : Response) (records : List Record) :
    (response.after records).printed = response.printed := rfl

@[simp] theorem journal_after (response : Response) (records : List Record) :
    (response.after records).journal = records ++ response.journal := rfl

end Response

/-- What is told of a program that is read from a file. -/
def loadJournal (path source : String) : List Record :=
  let program := Program.parse source
  program.journal ++ [.loaded program.size path]

/-- What the steps of a run tell, if it is watched. The run tells of them again. -/
def traceJournal (program : Program) (m : Machine) (budget : Option UInt64) (trace : Bool) :
    List Record :=
  if trace then (watched program m budget).flatMap fun step => step.journal program else []

/-- The response to a run of a source text. -/
def runResponse (source : String) (a b : Word) (budget : Option UInt64) (trace : Bool) : Response :=
  let program := Program.parse source
  let start := (Machine.fresh.withRegister .ax a).withRegister .bx b
  let final := start.run program budget
  { exitCode := if final.halted && final.fault.isNone then 0 else 1
    printed := traceLines program start budget trace ++ report program final
    complaints := []
    journal := traceJournal program start budget trace ++ start.journal program budget }

/-- The response to an attempt at a level. -/
def levelResponse (level : Level) (source : String) (trace : Bool) : Response :=
  let program := Program.parse source
  let budget := some level.budget
  let final := level.machine.run program budget
  let verdict := level.judge final
  { exitCode := if verdict.isSuccess then 0 else 1
    printed :=
      header level :: traceLines program level.machine budget trace ++ report program final
        ++ [outcome level verdict]
    complaints := []
    journal :=
      traceJournal program level.machine budget trace ++ level.machine.journal program budget }

/-- The response to the question which levels there are. -/
def levelsResponse : Response :=
  { exitCode := 0, printed := Level.catalog.flatMap listed, complaints := [], journal := [] }

/-- The response to a command. The level is looked up before the file is read. -/
def Command.respond (files : Files) : Command → Response
  | .run path a b budget trace =>
      match files.source path with
      | .error error => .noSource path error
      | .ok source => (runResponse source a b budget trace).after (loadJournal path source)
  | .level number path trace =>
      match Level.find? number with
      | none => .noLevel number
      | some task =>
          match files.source path with
          | .error error => .noSource path error
          | .ok source => (levelResponse task source trace).after (loadJournal path source)
  | .levels => levelsResponse

/-- The least severity that a journal shows. -/
def Arguments.severity (arguments : Arguments) : Severity :=
  match arguments.verbosity with
  | 0 => .warn
  | 1 => .info
  | 2 => .debug
  | _ => .trace

/-- The response to a command line. -/
def respond (files : Files) (commandLine : List String) : Response :=
  match Arguments.parse commandLine with
  | .error error => ⟨2, [], ["error: " ++ error.message], []⟩
  | .ok arguments =>
      let response := arguments.command.respond files
      { response with journal := Record.atLeast arguments.severity response.journal }

end RegisterMachine.Console
