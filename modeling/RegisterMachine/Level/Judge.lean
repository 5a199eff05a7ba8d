/-
# Levels and verdicts

A level names a skill, gives two words to start with, and a budget of cycles. A program that is run on
these words within the budget gets a verdict.

* `Level.machine` : the machine at the start of a level;
* `Level.judge` : the verdict on a machine at the end of a run;
* `Level.attempt` : the verdict on a source text.
-/
import RegisterMachine.Level.Skill
import RegisterMachine.Machine.Run

namespace RegisterMachine

/-- A task for a program. -/
structure Level where
  number : Nat
  title : String
  skillName : String
  inputs : Inputs
  budget : UInt64
  hint : List String
  deriving DecidableEq, Repr

/-- How an attempt at a level ended. -/
inductive Verdict
  /-- The machine halted, and its output obeys the law of the skill. -/
  | success (skill : Skill)
  /-- The machine halted with another output. -/
  | wrongAnswer (output : List Word)
  /-- The machine failed. -/
  | runtimeError (fault : Fault)
  /-- The machine used more cycles than the level allows. -/
  | budgetExceeded (cycles : UInt64)
  /-- The machine neither halted nor failed. -/
  | stalled
  deriving DecidableEq, Repr

/-- Whether a verdict wins the level. -/
def Verdict.isSuccess : Verdict → Bool
  | success _ => true
  | _ => false

namespace Level

/-- The machine at the start of a level. -/
def machine (level : Level) : Machine :=
  (Machine.fresh.withRegister .ax level.inputs.a).withRegister .bx level.inputs.b

/-- The skill of a level, if there is one with its name. -/
def skill? (level : Level) : Option Skill :=
  Skill.find? level.skillName

/-- The verdict on a machine that neither failed nor is over the budget. -/
def judgeOutput (level : Level) (m : Machine) : Verdict :=
  if m.halted then
    match Skill.match? m.output level.inputs level.skillName with
    | some skill => .success skill
    | none => .wrongAnswer m.output
  else .stalled

/-- The verdict on a machine. A fault decides first, then the cycles, which a run without a budget
does not check, and last the output. -/
def judge (level : Level) (m : Machine) : Verdict :=
  match m.fault with
  | some .budgetExceeded => .budgetExceeded m.cycles
  | some fault => .runtimeError fault
  | none =>
      if m.exceeds (some level.budget) then .budgetExceeded m.cycles else level.judgeOutput m

/-- The verdict on a source text, run within the budget of the level. -/
def attempt (level : Level) (source : String) : Verdict :=
  level.judge (level.machine.runSource source (some level.budget))

@[simp] theorem isTerminal_machine (level : Level) : level.machine.isTerminal = false := rfl

end Level

end RegisterMachine
