/-
# Driving a machine

A machine can be set up, stepped and run by turns, on changing programs and with changing budgets.

* `Action` : what can be done to a machine from outside;
* `Machine.drive` : the machine after a sequence of actions;
* `Execution.machine_take` : to take machines from an execution is to take steps;
* `Machine.act_of_isTerminal` : no action takes a machine back from its end.
-/
import RegisterMachine.Machine.Execution
import RegisterMachine.Proofs.Machine.Runner

namespace RegisterMachine

/-! ## Actions -/

/-- What can be done to a machine from outside. -/
inductive Action
  | setRegister (register : Register) (word : Word)
  | setStack (words : List Word)
  | step (program : Program)
  /-- Takes at most this many machines from an execution, and goes on with the last of them. -/
  | take (program : Program) (count : Nat)
  | run (program : Program) (budget : Option UInt64)
  deriving DecidableEq, Repr

/-- Taking machines from an execution takes as many steps. -/
theorem Execution.machine_take (execution : Execution) (count : Nat) :
    (execution.take count).2.machine = execution.machine.after execution.program count := by
  induction count generalizing execution with
  | zero => rfl
  | succ count ih =>
      cases hterminal : execution.machine.isTerminal with
      | true => rw [take_of_isTerminal hterminal, Machine.after_of_isTerminal _ hterminal]
      | false => rw [take_succ hterminal, Machine.after_succ', ih]

namespace Machine

/-- The machine after an action. -/
def act (m : Machine) : Action → Machine
  | .setRegister register word => m.withRegister register word
  | .setStack words => m.withStack words
  | .step program => m.step program
  | .take program count => ((Execution.mk program m).take count).2.machine
  | .run program budget => m.run program budget

/-- The machine after a sequence of actions. -/
def drive (m : Machine) (actions : List Action) : Machine :=
  actions.foldl act m

@[simp] theorem drive_nil (m : Machine) : m.drive [] = m := rfl

@[simp] theorem drive_cons (m : Machine) (action : Action) (actions : List Action) :
    m.drive (action :: actions) = (m.act action).drive actions := rfl

/-- Actions are done one sequence after the other. -/
theorem drive_append (m : Machine) (before after : List Action) :
    m.drive (before ++ after) = (m.drive before).drive after :=
  List.foldl_append

/-! ## Ends are final -/

/-- No action takes a machine back from its end, or changes how it ended. -/
theorem act_of_isTerminal {m : Machine} (h : m.isTerminal = true) (action : Action) :
    (m.act action).halted = m.halted ∧ (m.act action).fault = m.fault := by
  cases action with
  | setRegister register word => exact ⟨rfl, rfl⟩
  | setStack words => exact ⟨rfl, rfl⟩
  | step program =>
      show (m.step program).halted = m.halted ∧ (m.step program).fault = m.fault
      rw [step_of_isTerminal program h]
      exact ⟨rfl, rfl⟩
  | take program count =>
      have hlast : m.act (.take program count) = m := by
        show ((Execution.mk program m).take count).2.machine = m
        rw [Execution.take_of_isTerminal h]
      rw [hlast]
      exact ⟨rfl, rfl⟩
  | run program budget =>
      show (m.run program budget).halted = m.halted ∧ (m.run program budget).fault = m.fault
      rw [run_of_isTerminal program budget h]
      exact ⟨rfl, rfl⟩

/-- A machine at its end stays as it ended, whatever is done to it. -/
theorem drive_of_isTerminal {m : Machine} (h : m.isTerminal = true) (actions : List Action) :
    (m.drive actions).halted = m.halted ∧ (m.drive actions).fault = m.fault := by
  induction actions generalizing m with
  | nil => exact ⟨rfl, rfl⟩
  | cons action actions ih =>
      obtain ⟨hhalted, hfault⟩ := act_of_isTerminal h action
      have hterminal : (m.act action).isTerminal = true := by
        rw [isTerminal, hhalted, hfault]
        exact h
      obtain ⟨hhalted', hfault'⟩ := ih hterminal
      rw [drive_cons]
      exact ⟨hhalted'.trans hhalted, hfault'.trans hfault⟩

end Machine

end RegisterMachine
