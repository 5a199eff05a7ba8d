/-
# Journals

What there is to tell about a run, in the order in which it happens:

* for each line of the program that holds an instruction, that instruction, and then their number;
* the file from which the program was read, if there is one;
* each instruction with a known opcode, with the machine before it executes;
* at the end, the fault of the machine, or that the run was stopped without one.

`Program.journal` tells of a program, `Machine.journal` of a run, and `Record.line` is a record as it is
written. A coarser journal leaves out the records below a severity.
-/
import RegisterMachine.Machine.Run

namespace RegisterMachine

/-! ## Records -/

/-- How much a record matters, from the least to the most. -/
inductive Severity
  | trace
  | debug
  | info
  | warn
  deriving DecidableEq, Repr

/-- The place of a severity in their order. -/
def Severity.rank : Severity → Nat
  | trace => 0
  | debug => 1
  | info => 2
  | warn => 3

/-- The name of a severity. -/
def Severity.name : Severity → String
  | trace => "TRACE"
  | debug => "DEBUG"
  | info => "INFO"
  | warn => "WARN"

/-- The part of the program that has something to tell. -/
inductive Origin
  | assembler
  | console
  | machine
  | runner
  deriving DecidableEq, Repr

/-- The name of a part of the program. -/
def Origin.name : Origin → String
  | assembler => "chipasm"
  | console => "chipduel"
  | machine => "chipduel::machine"
  | runner => "chipduel::runner"

/-- Something that happened. -/
inductive Record
  /-- A line of the source holds an instruction. -/
  | read (line : Nat) (instruction : Instruction)
  /-- The source holds this many instructions. -/
  | parsed (count : Nat)
  /-- The source with this many instructions stands in a file. -/
  | loaded (count : Nat) (path : String)
  /-- An instruction is about to be executed. -/
  | executing (pc : Nat) (instruction : Instruction) (registers : Registers) (cycles : UInt64)
  /-- The machine has failed. -/
  | failed (pc : Nat) (fault : Fault)
  /-- The run has reached the step limit. -/
  | stopped (pc : Nat)
  deriving DecidableEq, Repr

namespace Record

/-- How much a record matters. -/
def severity : Record → Severity
  | read .. => .trace
  | parsed .. => .debug
  | loaded .. => .info
  | executing .. => .trace
  | failed .. => .debug
  | stopped .. => .warn

/-- Who tells a record. -/
def origin : Record → Origin
  | read .. => .assembler
  | parsed .. => .assembler
  | loaded .. => .console
  | executing .. => .machine
  | failed .. => .machine
  | stopped .. => .runner

/-- The text of a record. -/
def message : Record → String
  | read line instruction => "line " ++ Text.numeral line ++ ": " ++ instruction.text
  | parsed count => "parsed " ++ Text.numeral count ++ " instructions"
  | loaded count path => Text.numeral count ++ " instructions in " ++ path
  | executing pc instruction registers cycles =>
      Text.alignRight 4 (Text.numeral pc) ++ ": " ++ instruction.text ++ " | " ++ registers.text
        ++ " | cycles " ++ Text.numeral cycles.toNat
  | failed pc fault => "machine failed at pc " ++ Text.numeral pc ++ ": " ++ fault.message
  | stopped pc =>
      "run stopped after " ++ Text.numeral stepLimit ++ " steps at pc " ++ Text.numeral pc
        ++ " without halting"

/-- A record as it is written: how much it matters, the name of who tells it, and its text. -/
structure Line where
  severity : Severity
  origin : String
  message : String
  deriving DecidableEq, Repr

/-- A record as it is written. -/
def line (record : Record) : Line :=
  ⟨record.severity, record.origin.name, record.message⟩

/-- The records that matter at least as much as a severity. -/
def atLeast (severity : Severity) (records : List Record) : List Record :=
  records.filter fun record => decide (severity.rank ≤ record.severity.rank)

/-- Every record matters at least as much as the least severity. -/
@[simp] theorem atLeast_trace (records : List Record) : atLeast .trace records = records := by
  simp [atLeast, Severity.rank]

end Record

/-! ## Journals of programs and runs -/

/-- What reading a program tells. -/
def Program.journal (program : Program) : List Record :=
  program.entries.map (fun entry => .read entry.line entry.instruction) ++ [.parsed program.size]

namespace Machine

/-- What a machine tells before its next step: nothing when it does not know the opcode. -/
def upcoming? (m : Machine) (program : Program) : Option Record :=
  match program.get? m.pc with
  | none => none
  | some instruction =>
      match instruction.opcode with
      | some (.known _) => some (.executing m.pc instruction m.registers m.cycles)
      | _ => none

/-- What a machine that has failed tells. -/
def failure? (m : Machine) : Option Record :=
  m.fault.map fun fault => .failed m.pc fault

/-- What a step tells: the operation that it executes, and the fault if it fails. -/
def Transition.journal (step : Transition) (program : Program) : List Record :=
  (step.before.upcoming? program).toList ++ step.after.failure?.toList

/-- What a machine tells at the end of a run: nothing when it has halted. -/
def closing? (m : Machine) : Option Record :=
  match m.fault with
  | some fault => some (.failed m.pc fault)
  | none => if m.halted then none else some (.stopped m.pc)

/-- What a run tells. A terminal machine does not run and has nothing to tell. -/
def journal (m : Machine) (program : Program) (budget : Option UInt64) : List Record :=
  if m.isTerminal then []
  else
    (m.transitions program budget).filterMap (fun transition => transition.before.upcoming? program)
      ++ (m.run program budget).closing?.toList

/-- What a run of a source text tells, the reading of the text included. -/
def journalOfSource (m : Machine) (source : String) (budget : Option UInt64) : List Record :=
  (Program.parse source).journal ++ m.journal (.parse source) budget

end Machine

end RegisterMachine
