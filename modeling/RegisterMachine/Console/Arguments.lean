/-
# Command lines

What the arguments of the program ask for. There are three commands:

* `run PROGRAM [--a N] [--b N] [--budget N] [--trace]` runs a file;
* `level NUMBER PROGRAM [--trace]` plays a level with a file;
* `levels` lists the levels.

`-v` or `--verbose` may stand before the command or after it, and repeated, for a longer journal. A
value follows its option as the next argument or after `=`. An argument that starts with `-` is an
option, except `-` alone, a negative number where one is asked for, and all arguments after `--`.

`Arguments.parse` reads a command line, or says by a `UsageError` why it is refused.
-/
import RegisterMachine.Text.Split
import RegisterMachine.Word

namespace RegisterMachine.Console

/-! ## Commands and options -/

/-- The name of a command. -/
inductive CommandName
  | run
  | level
  | levels
  deriving DecidableEq, Repr

/-- The command with exactly this name. -/
def CommandName.ofName? : String → Option CommandName
  | "run" => some run
  | "level" => some level
  | "levels" => some levels
  | _ => none

/-- An option of a command. -/
inductive Flag
  | a
  | b
  | budget
  | trace
  | verbose
  deriving DecidableEq, Repr

namespace Flag

/-- The name of an option, without its dashes. -/
def name : Flag → String
  | a => "a"
  | b => "b"
  | budget => "budget"
  | trace => "trace"
  | verbose => "verbose"

/-- Whether an option has a value. -/
def takesValue : Flag → Bool
  | a => true
  | b => true
  | budget => true
  | trace => false
  | verbose => false

/-- Whether the value of an option may be a negative number. -/
def takesNegative : Flag → Bool
  | a => true
  | b => true
  | _ => false

/-- Whether an option may be given more than once. -/
def repeats : Flag → Bool
  | verbose => true
  | _ => false

end Flag

/-- The options of a command. -/
def CommandName.flags : CommandName → List Flag
  | run => [.a, .b, .budget, .trace, .verbose]
  | level => [.trace, .verbose]
  | levels => [.verbose]

/-- Why a command line is refused. -/
inductive UsageError
  | missingCommand
  | unknownCommand (name : String)
  | unknownOption (argument : String)
  | missingValue (flag : Flag)
  | unexpectedValue (flag : Flag)
  | repeatedOption (flag : Flag)
  | invalidValue (argument : String)
  | missingArgument
  | extraArgument (argument : String)
  deriving DecidableEq, Repr

/-- The sentence that reports a refusal. -/
def UsageError.message : UsageError → String
  | missingCommand => "a command is missing: run, level or levels"
  | unknownCommand name => "there is no command " ++ name
  | unknownOption argument => "there is no option " ++ argument
  | missingValue flag => "--" ++ flag.name ++ " needs a value"
  | unexpectedValue flag => "--" ++ flag.name ++ " has no value"
  | repeatedOption flag => "--" ++ flag.name ++ " is given twice"
  | invalidValue argument => "the value " ++ argument ++ " does not fit"
  | missingArgument => "an argument is missing"
  | extraArgument argument => "there is one argument too many, " ++ argument

/-! ## Shapes of arguments -/

/-- What an argument looks like. -/
inductive Shape
  /-- Two dashes: no options follow. -/
  | separator
  /-- Two dashes and a name, and perhaps `=` and a value. -/
  | long (name : String) (value : Option String)
  /-- One dash and letters. -/
  | short (letters : List Char)
  /-- Anything else. -/
  | plain
  deriving DecidableEq, Repr

/-- The shape of an argument. -/
def Shape.of (argument : String) : Shape :=
  match argument.toList with
  | ['-', '-'] => separator
  | '-' :: '-' :: text =>
      match Text.cut? '=' text with
      | some (name, value) => long (String.ofList name) (some (String.ofList value))
      | none => long (String.ofList text) none
  | '-' :: letter :: letters => short (letter :: letters)
  | _ => plain

/-- Whether an argument after an option is the value of that option. -/
def Flag.isValue (flag : Flag) (argument : String) : Bool :=
  match Shape.of argument with
  | .plain => true
  | .short letters => flag.takesNegative && letters.all Char.isDigit
  | _ => false

/-! ## The arguments of a command -/

/-- The arguments of a command, sorted into options and others. -/
structure Sorted where
  options : List (Flag × String)
  others : List String
  deriving DecidableEq, Repr

namespace Sorted

/-- One more option in front. An option without a value has the empty one. -/
def withOption (sorted : Sorted) (flag : Flag) (value : String) : Sorted :=
  { sorted with options := (flag, value) :: sorted.options }

/-- One more of the other arguments in front. -/
def withOther (sorted : Sorted) (argument : String) : Sorted :=
  { sorted with others := argument :: sorted.others }

/-- Sorts the arguments of a command. -/
def ofArguments (command : CommandName) : List String → Except UsageError Sorted
  | [] => .ok ⟨[], []⟩
  | argument :: rest =>
      match Shape.of argument with
      | .separator => .ok ⟨[], rest⟩
      | .plain => return (← ofArguments command rest).withOther argument
      | .short letters =>
          if letters.all (· = 'v') then do
            let sorted ← ofArguments command rest
            return letters.foldl (fun sorted _ => sorted.withOption .verbose "") sorted
          else .error (.unknownOption argument)
      | .long name value =>
          match command.flags.find? (·.name = name), value with
          | none, _ => .error (.unknownOption argument)
          | some flag, some value =>
              if flag.takesValue then return (← ofArguments command rest).withOption flag value
              else .error (.unexpectedValue flag)
          | some flag, none =>
              if flag.takesValue then
                match rest with
                | [] => .error (.missingValue flag)
                | value :: rest =>
                    if flag.isValue value then
                      return (← ofArguments command rest).withOption flag value
                    else .error (.missingValue flag)
              else return (← ofArguments command rest).withOption flag ""

/-- How often an option is given. -/
def count (sorted : Sorted) (flag : Flag) : Nat :=
  sorted.options.countP (·.1 = flag)

/-- Refuses an option that is given too often. -/
def checked (sorted : Sorted) : Except UsageError Sorted :=
  match sorted.options.find? fun option => !option.1.repeats && 1 < sorted.count option.1 with
  | some option => .error (.repeatedOption option.1)
  | none => .ok sorted

/-- The value of an option as `read?` understands it, or `absent` if the option is not given. -/
def value {α : Type} (sorted : Sorted) (flag : Flag) (read? : String → Option α) (absent : α) :
    Except UsageError α :=
  match sorted.options.lookup flag with
  | none => .ok absent
  | some text =>
      match read? text with
      | some value => .ok value
      | none => .error (.invalidValue text)

end Sorted

/-! ## Command lines -/

/-- A command and what it needs. -/
inductive Command
  | run (path : String) (a b : Word) (budget : Option UInt64) (trace : Bool)
  | level (number : Nat) (path : String) (trace : Bool)
  | levels
  deriving DecidableEq, Repr

/-- A command, and how long a journal is asked for. -/
structure Arguments where
  verbosity : Nat
  command : Command
  deriving DecidableEq, Repr

/-- Reads a number of cycles. -/
def budget? (text : String) : Option UInt64 :=
  (Text.unsigned? text.toList).bind fun n => if n < UInt64.size then some (UInt64.ofNat n) else none

/-- Reads the number of a level, which has at most 32 bits. -/
def levelNumber? (text : String) : Option Nat :=
  (Text.signed? text.toList).bind fun n => if 0 ≤ n ∧ n < UInt32.size then some n.toNat else none

/-- Reads the name of a file, which is not empty. -/
def filePath (text : String) : Except UsageError String :=
  if text.isEmpty then .error (.invalidValue text) else .ok text

/-- The command with the given name and arguments. -/
def Command.ofSorted (command : CommandName) (sorted : Sorted) : Except UsageError Command :=
  match command, sorted.others with
  | .run, [file] => do
      let a ← sorted.value .a Word.ofNumeral? 0
      let b ← sorted.value .b Word.ofNumeral? 0
      let budget ← sorted.value .budget (fun text => (budget? text).map some) none
      return .run (← filePath file) a b budget (0 < sorted.count .trace)
  | .level, [number, file] =>
      match levelNumber? number with
      | none => .error (.invalidValue number)
      | some number => return .level number (← filePath file) (0 < sorted.count .trace)
  | .levels, [] => .ok .levels
  | .run, _ :: extra :: _ => .error (.extraArgument extra)
  | .level, _ :: _ :: extra :: _ => .error (.extraArgument extra)
  | .levels, extra :: _ => .error (.extraArgument extra)
  | _, _ => .error .missingArgument

namespace Arguments

/-- Asks for a longer journal. -/
def deepen (arguments : Arguments) (amount : Nat) : Arguments :=
  { arguments with verbosity := arguments.verbosity + amount }

/-- What a command line asks for. -/
def parse : List String → Except UsageError Arguments
  | [] => .error .missingCommand
  | argument :: rest =>
      match Shape.of argument with
      | .plain =>
          match CommandName.ofName? argument with
          | none => .error (.unknownCommand argument)
          | some name => do
              let sorted ← (← Sorted.ofArguments name rest).checked
              return ⟨sorted.count .verbose, ← Command.ofSorted name sorted⟩
      | .short letters =>
          if letters.all (· = 'v') then return (← parse rest).deepen letters.length
          else .error (.unknownOption argument)
      | .long "verbose" none => return (← parse rest).deepen 1
      | _ => .error (.unknownOption argument)

end Arguments

end RegisterMachine.Console
