/-
# Recording

A run writes its records as it goes, each of them where the thing happens that it tells of: on whichever
copy of the machine is at hand there, and before it is known how the step or the run will end. A record is
written only if it matters enough.

* `Recorded` : a result, and the records that were written on the way to it;
* `Recorded.tell` : writes a record;
* `Recorded.parse` : the program of a source text, with a record for each instruction;
* `Recorded.fail`, `Recorded.execute`, `Recorded.step` : a step of the machine;
* `Recorded.run`, `Recorded.runSource` : a run of a program, and of a source text.

`Machine.journal` says what is written in the end, from the steps of the run and the machine it ends on.
-/
import RegisterMachine.Machine.Journal

namespace RegisterMachine

/-- A result, and the records that were written on the way to it. -/
structure Recorded (α : Type) where
  result : α
  records : List Record
  deriving DecidableEq, Repr

namespace Recorded

/-- Records are written one after the other. -/
instance : Monad Recorded where
  pure value := ⟨value, []⟩
  bind recorded next :=
    ⟨(next recorded.result).result, recorded.records ++ (next recorded.result).records⟩

theorem pure_eq {α : Type} (value : α) : (pure value : Recorded α) = ⟨value, []⟩ := rfl

theorem bind_eq {α β : Type} (recorded : Recorded α) (next : α → Recorded β) :
    recorded >>= next =
      ⟨(next recorded.result).result, recorded.records ++ (next recorded.result).records⟩ := rfl

/-- Writes a record, if it matters at least as much as the given severity. -/
def tell (least : Severity) (record : Record) : Recorded Unit :=
  ⟨(), if least.rank ≤ record.severity.rank then [record] else []⟩

/-! ## Reading -/

/-- Reads numbered lines, and writes each instruction as it is read. -/
def readNumbered (least : Severity) : List (List Char × Nat) → Recorded (List Entry)
  | [] => pure []
  | (line, number) :: lines =>
      match Instruction.ofLine? line with
      | none => readNumbered least lines
      | some instruction => do
          tell least (.read number instruction)
          let entries ← readNumbered least lines
          return ⟨number, instruction⟩ :: entries

/-- Reads a source text, and writes in the end how many instructions there are. -/
def parse (least : Severity) (source : String) : Recorded Program := do
  let entries ← readNumbered least ((Text.lines source.toList).zipIdx 1)
  tell least (.parsed entries.length)
  return ⟨entries⟩

/-! ## Steps -/

/-- Makes a machine fail, and writes so. A machine that failed before stays as it is. -/
def fail (least : Severity) (m : Machine) (fault : Fault) : Recorded Machine :=
  if m.fault.isNone then do
    tell least (.failed m.pc fault)
    return { m with fault := some fault }
  else return m

/-- Executes the next instruction. It is written down before its operands are looked at. -/
def execute (least : Severity) (m : Machine) (program : Program) :
    Recorded (Except Fault Machine) :=
  match program.get? m.pc with
  | none => return .error .endedWithoutHalt
  | some instruction =>
      match instruction.opcode with
      | none => return .ok (m.advance 0)
      | some (.unknown name) => return .error (.unknownInstruction name)
      | some (.known operation) => do
          tell least (.executing m.pc instruction m.registers m.cycles)
          return m.perform program operation instruction.operands

/-- Takes a step. The machine that fails is the one before the step. -/
def step (least : Severity) (m : Machine) (program : Program) : Recorded Machine :=
  if m.isTerminal then return m
  else do
    match ← execute least m program with
    | .ok next => return next
    | .error fault => fail least m fault

/-! ## Runs -/

/-- Ends a run. One that neither halted nor failed was stopped. -/
def finish (least : Severity) (m : Machine) : Recorded Machine :=
  if m.isTerminal then return m
  else do
    tell least (.stopped m.pc)
    return m

/-- Runs for at most the given number of steps. A machine that goes over the budget is made to fail, which
it may have done already. -/
def runFor (least : Severity) (m : Machine) (program : Program) (budget : Option UInt64) :
    Nat → Recorded Machine
  | 0 => finish least m
  | count + 1 =>
      if m.isTerminal then finish least m
      else do
        let next ← step least m program
        if next.exceeds budget then fail least next .budgetExceeded
        else runFor least next program budget count

/-- Runs a program. -/
def run (least : Severity) (m : Machine) (program : Program) (budget : Option UInt64) :
    Recorded Machine :=
  runFor least m program budget stepLimit

/-- Reads a source text and runs it. -/
def runSource (least : Severity) (m : Machine) (source : String) (budget : Option UInt64) :
    Recorded Machine := do
  let program ← parse least source
  run least m program budget

end Recorded

end RegisterMachine
