/-
# Executions

A program and a machine that steps through it on demand, which is what one wants in order to watch a
run.

* `Execution.next?` : the machine after the next step, as long as the machine is not terminal; the
  terminal machine itself is the last one handed out;
* `Execution.take` : the next few of these machines, and the execution after them.
-/
import RegisterMachine.Machine.Step

namespace RegisterMachine

/-- A program that is being executed. -/
structure Execution where
  program : Program
  machine : Machine
  deriving DecidableEq, Repr

namespace Execution

/-- Takes a step, unless the machine is terminal. -/
def next? (execution : Execution) : Option (Machine × Execution) :=
  if execution.machine.isTerminal then none
  else
    let machine := execution.machine.step execution.program
    some (machine, { execution with machine })

/-- Takes at most `count` steps: the machines after each of them, and the execution that is left. -/
def take (execution : Execution) : Nat → List Machine × Execution
  | 0 => ([], execution)
  | count + 1 =>
      match execution.next? with
      | none => ([], execution)
      | some (machine, rest) =>
          let (machines, last) := rest.take count
          (machine :: machines, last)

/-- The first machine to take is the one after a step. -/
theorem take_succ {program : Program} {m : Machine} (h : m.isTerminal = false) (count : Nat) :
    (mk program m).take (count + 1) =
      (m.step program :: ((mk program (m.step program)).take count).1,
        ((mk program (m.step program)).take count).2) := by
  simp [take, next?, h]

/-- Nothing is left to take from a terminal machine. -/
theorem take_of_isTerminal {execution : Execution} (h : execution.machine.isTerminal = true)
    (count : Nat) : execution.take count = ([], execution) := by
  cases count with
  | zero => rfl
  | succ count => simp [take, next?, h]

end Execution

end RegisterMachine
