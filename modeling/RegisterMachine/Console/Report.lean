/-
# Reports

The lines that the program prints:

* `watched`, `traceLines` : the steps of a run that is watched, and the lines that show them;
* `report` : the machine at the end of a run;
* `header`, `outcome` : a level before a run, and the verdict after it;
* `listed` : a level in the list of levels.
-/
import RegisterMachine.Level.Catalog
import RegisterMachine.Machine.Execution

namespace RegisterMachine.Console

/-! ## Runs -/

/-- A list of words, `[1, 2]`. -/
def wordList (words : List Word) : String :=
  "[" ++ ", ".intercalate (words.map Word.text) ++ "]"

/-- The source line of the instruction at an index, or a dash beyond the last instruction. -/
def lineText (program : Program) (index : Nat) : String :=
  match program.sourceLine? index with
  | some line => Text.numeral line
  | none => "-"

/-- The instruction at an index, or nothing beyond the last one. -/
def instructionText (program : Program) (index : Nat) : String :=
  match program.get? index with
  | some instruction => instruction.text
  | none => ""

/-- A step: the line and the instruction at the index that it executes, and the machine after it. -/
def traceLine (program : Program) (index : Nat) (after : Machine) : String :=
  Text.alignRight 4 (lineText program index) ++ " "
    ++ Text.alignLeft 20 (instructionText program index) ++ " "
    ++ after.text

/-- The steps that lead from one machine to the next, up to the first that goes over the budget. -/
def stepsFrom (budget : Option UInt64) : Machine → List Machine → List Machine.Transition
  | _, [] => []
  | m, next :: rest =>
      ⟨m, next⟩ :: if next.exceeds budget then [] else stepsFrom budget next rest

/-- The steps of a run that is watched: the program is executed apart from the run, which shows nothing
itself. -/
def watched (program : Program) (m : Machine) (budget : Option UInt64) : List Machine.Transition :=
  stepsFrom budget m ((Execution.mk program m).take stepLimit).1

/-- The lines that show the steps of a run, if it is watched. -/
def traceLines (program : Program) (m : Machine) (budget : Option UInt64) (trace : Bool) :
    List String :=
  if trace then
    (watched program m budget).map fun step => traceLine program step.before.pc step.after
  else []

/-- The source line that a fault is blamed on. Running past the end and running out of cycles are
not the fault of a line. -/
def faultLine? (program : Program) (m : Machine) : Fault → Option Nat
  | .endedWithoutHalt => none
  | .budgetExceeded => none
  | _ => program.sourceLine? m.pc

/-- How a run ended. -/
def ending (program : Program) (m : Machine) : String :=
  match m.fault with
  | some fault =>
      match faultLine? program m fault with
      | some line => "error:     " ++ fault.message ++ " (line " ++ Text.numeral line ++ ")"
      | none => "error:     " ++ fault.message
  | none =>
      if m.halted then "halted"
      else "stopped after " ++ Text.numeral stepLimit ++ " steps without halting"

/-- The machine at the end of a run. -/
def report (program : Program) (m : Machine) : List String :=
  ["registers: " ++ m.registers.text,
   "stack:     " ++ m.stack.text,
   "output:    " ++ wordList m.output,
   "cycles:    " ++ Text.numeral m.cycles.toNat,
   ending program m]

/-! ## Levels -/

/-- The line that introduces a level. -/
def header (level : Level) : String :=
  "Level " ++ Text.numeral level.number ++ ": " ++ level.title ++ " (" ++ level.skillName
    ++ ", AX = " ++ Word.text level.inputs.a ++ ", BX = " ++ Word.text level.inputs.b
    ++ ", budget " ++ Text.numeral level.budget.toNat ++ " cycles)"

/-- The points that a program costs which fails or takes too long. -/
def errorPenalty : Nat :=
  10

/-- The points that a wrong output costs. -/
def wrongAnswerPenalty : Nat :=
  5

/-- What a verdict means for the player. -/
def outcome (level : Level) : Verdict → String
  | .success skill =>
      skill.name ++ "! Boss takes " ++ Text.numeral skill.damage ++ " damage!"
  | .wrongAnswer output =>
      "No skill matched. Output: " ++ wordList output ++ penalty wrongAnswerPenalty
  | .runtimeError fault => "Error: " ++ fault.message ++ penalty errorPenalty
  | .budgetExceeded cycles =>
      "Error: budget exceeded, " ++ Text.numeral cycles.toNat ++ " of "
        ++ Text.numeral level.budget.toNat ++ " cycles used" ++ penalty errorPenalty
  | .stalled => "Error: program never halted" ++ penalty errorPenalty
where
  /-- The points lost, at the end of a line. -/
  penalty (points : Nat) : String :=
    " (-" ++ Text.numeral points ++ " HP)"

/-- A level in the list of levels, with its hint below. -/
def listed (level : Level) : List String :=
  (Text.alignRight 2 (Text.numeral level.number) ++ ". " ++ Text.alignLeft 15 level.title ++ " "
    ++ Text.alignLeft 17 level.skillName ++ " AX = " ++ Text.alignLeft 2 (Word.text level.inputs.a)
    ++ " BX = " ++ Text.alignLeft 2 (Word.text level.inputs.b) ++ " budget "
    ++ Text.alignRight 2 (Text.numeral level.budget.toNat))
    :: level.hint.map ("      " ++ ·)

end RegisterMachine.Console
