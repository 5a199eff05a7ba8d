/-
# Runs

A run steps through a program until the machine is terminal, has used more cycles than its budget, or
has taken ten thousand steps.

* `Machine.run` : the machine at the end of a run. The budget is checked after each step, so that the
  step that went over it still shows its effects;
* `Machine.transitions` : the steps of a run, each with the machines before and after it.
-/
import RegisterMachine.Machine.Step

namespace RegisterMachine

/-- The most steps that a run takes. -/
def stepLimit : Nat :=
  10000

namespace Machine

/-- Whether a machine has used more cycles than a budget allows. No budget allows any number. -/
def exceeds (m : Machine) (budget : Option UInt64) : Bool :=
  budget.any fun limit => decide (limit < m.cycles)

@[simp] theorem exceeds_none (m : Machine) : m.exceeds none = false := rfl

/-! ## The end of a run -/

/-- The machine at the end of a run of at most the given number of steps. -/
def runFor (m : Machine) (program : Program) (budget : Option UInt64) : Nat → Machine
  | 0 => m
  | count + 1 =>
      if m.isTerminal then m
      else
        let next := m.step program
        if next.exceeds budget then next.fail .budgetExceeded
        else next.runFor program budget count

/-- The machine at the end of a run. -/
def run (m : Machine) (program : Program) (budget : Option UInt64) : Machine :=
  m.runFor program budget stepLimit

/-- The machine at the end of a run of a source text. -/
def runSource (m : Machine) (source : String) (budget : Option UInt64) : Machine :=
  m.run (.parse source) budget

/-- A terminal machine does not run. -/
theorem run_of_isTerminal {m : Machine} (program : Program) (budget : Option UInt64)
    (h : m.isTerminal = true) : m.run program budget = m := by
  simp [run, stepLimit, runFor, h]

/-! ## The steps of a run -/

/-- A step of a run. -/
structure Transition where
  before : Machine
  after : Machine
  deriving DecidableEq, Repr

/-- The steps of a run of at most the given number of steps. -/
def transitionsFor (m : Machine) (program : Program) (budget : Option UInt64) :
    Nat → List Transition
  | 0 => []
  | count + 1 =>
      if m.isTerminal then []
      else
        let next := m.step program
        ⟨m, next⟩ ::
          if next.exceeds budget then [] else next.transitionsFor program budget count

/-- The steps of a run. -/
def transitions (m : Machine) (program : Program) (budget : Option UInt64) : List Transition :=
  m.transitionsFor program budget stepLimit

end Machine

end RegisterMachine
