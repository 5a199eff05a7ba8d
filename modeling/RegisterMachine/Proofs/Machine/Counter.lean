/-
# The program counter

The program counter never leaves the program: it points to an instruction, or to the end just after the
last one. A step that fails leaves it where it was, so it points to the instruction at fault, or to the
end if there was no instruction left.

* `Machine.pc_after_le` : the program counter stays in the program or at its end;
* `Machine.execute_of_fault` : the fault after a step is the one of its instruction;
* `Machine.pc_of_endedWithoutHalt`, `Machine.exists_get?_of_fault` : where it points after a failing step.
-/
import RegisterMachine.Proofs.Machine.Atomicity

namespace RegisterMachine

namespace Machine

variable {program : Program} {m : Machine}

/-! ## Staying in the program -/

/-- A step stays below a limit on the program counter and on the size of the program. -/
theorem pc_step_le_of_size_le {limit : Nat} (h : m.pc ≤ limit) (hsize : program.size ≤ limit) :
    (m.step program).pc ≤ limit := by
  refine step_of_moves (P := fun next => next.pc ≤ limit) h ?_
  intro _ next hmoves
  cases hmoves with
  | fails => exact h
  | skips hpc => exact Nat.le_trans hpc hsize
  | halts hpc => exact Nat.le_trans hpc hsize
  | works _ hnext => exact Nat.le_trans hnext hsize

/-- A step leads to an instruction of the program or to its end. -/
theorem pc_step_le (h : m.pc ≤ program.size) : (m.step program).pc ≤ program.size :=
  pc_step_le_of_size_le h le_rfl

/-- So does any number of steps. -/
theorem pc_after_le (h : m.pc ≤ program.size) (count : Nat) :
    (m.after program count).pc ≤ program.size :=
  after_of_step (P := fun last => last.pc ≤ program.size) (fun _ => pc_step_le) h count

/-! ## Failing steps -/

/-- An instruction that succeeds sets no fault. -/
theorem Executes.fault_eq {next : Machine} (h : Executes program m (.ok next)) :
    next.fault = m.fault := by
  cases h with
  | bare => rfl
  | known _ _ hperforms => cases hperforms <;> rfl

/-- The fault after a step is the one of its instruction. -/
theorem execute_of_fault {fault : Fault} (hm : m.isTerminal = false)
    (h : (m.step program).fault = some fault) : m.execute program = .error fault := by
  rcases houtcome : m.execute program with first | next
  · rw [step_of_execute_error hm houtcome, Option.some.injEq] at h
    rw [h]
  · rw [step_of_execute_ok hm houtcome, (executes_iff.2 houtcome).fault_eq,
      (isTerminal_eq_false_iff.1 hm).2] at h
    exact absurd h.symm (Option.some_ne_none fault)

/-- A step that fails stays where it is. -/
theorem pc_step_of_fault {fault : Fault} (hm : m.isTerminal = false)
    (h : (m.step program).fault = some fault) : (m.step program).pc = m.pc := by
  have hback : (m.step program).unfault.pc = m.pc := congrArg pc (unfault_step hm h).1
  exact hback

/-- Without an instruction left, a machine is at the end of the program. -/
theorem pc_of_endedWithoutHalt (hm : m.isTerminal = false) (hpc : m.pc ≤ program.size)
    (h : (m.step program).fault = some .endedWithoutHalt) : m.pc = program.size := by
  rcases (executes_iff.2 (execute_of_fault hm h)).ended_or_ofInstruction with ⟨hend, -⟩ | ⟨-, hfault⟩
  · omega
  · exact absurd rfl hfault.1

/-- A machine that fails in any other way is on an instruction. -/
theorem exists_get?_of_fault {fault : Fault} (hm : m.isTerminal = false)
    (h : (m.step program).fault = some fault) (hne : fault ≠ .endedWithoutHalt) :
    ∃ instruction, program.get? m.pc = some instruction := by
  rcases (executes_iff.2 (execute_of_fault hm h)).ended_or_ofInstruction with ⟨-, rfl⟩ | ⟨hget, -⟩
  · exact absurd rfl hne
  · exact hget

end Machine

end RegisterMachine
