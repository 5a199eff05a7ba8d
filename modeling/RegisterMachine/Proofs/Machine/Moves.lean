/-
# The kinds of steps

All that a step changes, with the details of the operations left out. A step fails, skips a bare
label, halts, or works for one to three cycles; what is said of runs rests on these four kinds.

* `Machine.Moves` : the kinds of steps;
* `Fault.OfInstruction` : the faults that a step can find in the instruction that it executes;
* `Machine.moves_step` : every step of a machine that is not terminal is of one of them;
* `Machine.step_of_moves` : so what all of them keep, a step keeps.
-/
import RegisterMachine.Proofs.Machine.Semantics

namespace RegisterMachine

/-- The faults that an instruction can have: neither that there is none left, nor that a run has taken
too many cycles. -/
def Fault.OfInstruction (fault : Fault) : Prop :=
  fault ≠ .endedWithoutHalt ∧ fault ≠ .budgetExceeded

namespace Machine

variable {program : Program} {m : Machine}

/-! ## Kinds of steps -/

/-- The machines that a step can lead to. -/
inductive Moves (program : Program) (m : Machine) : Machine → Prop
  /-- A failing step leaves all as it was, and is never the end of a budget. -/
  | fails {fault : Fault} (hfault : fault ≠ .budgetExceeded) :
      Moves program m { m with fault := some fault }
  /-- A bare label takes no cycles. -/
  | skips (hpc : m.pc < program.size) : Moves program m { m with pc := m.pc + 1 }
  /-- Halting takes no cycles, and emits a word. -/
  | halts {word : Word} (hpc : m.pc < program.size) :
      Moves program m { m with output := m.output ++ [word], halted := true, pc := m.pc + 1 }
  /-- Every other operation takes cycles, and goes on within the program or to its end. -/
  | works {registers : Registers} {stack : Stack} {pc : Nat} {zero : Bool} {cost : UInt64}
      (hpc : m.pc < program.size) (hnext : pc ≤ program.size) (hlow : 1 ≤ cost)
      (hhigh : cost ≤ 3) :
      Moves program m
        { m with
          registers := registers, stack := stack, pc := pc, zero := zero,
          cycles := m.cycles + cost }

/-! ## Failing instructions -/

theorem Writable.ofInstruction {operation : Operation} {operands : List String} {place : Nat}
    {fault : Fault} (h : Writable operation operands place (.error fault)) :
    fault.OfInstruction := by
  cases h <;> simp [Fault.OfInstruction]

theorem Readable.ofInstruction {registers : Registers} {operation : Operation}
    {operands : List String} {place : Nat} {fault : Fault}
    (h : Readable registers operation operands place (.error fault)) : fault.OfInstruction := by
  cases h <;> simp [Fault.OfInstruction]

theorem Target.ofInstruction {operation : Operation} {operands : List String} {fault : Fault}
    (h : Target program operation operands (.error fault)) : fault.OfInstruction := by
  cases h <;> simp [Fault.OfInstruction]

/-- An operation that fails reports a fault of its own. -/
theorem Performs.ofInstruction {operation : Operation} {operands : List String} {fault : Fault}
    (h : Performs program m operation operands (.error fault)) : fault.OfInstruction := by
  cases h with
  | unwritable _ htarget => exact htarget.ofInstruction
  | unreadable _ _ hsource => exact hsource.ofInstruction
  | leftUnreadable hleft => exact hleft.ofInstruction
  | rightUnreadable _ hright => exact hright.ofInstruction
  | lost _ htarget => exact htarget.ofInstruction
  | unpushable hsource => exact hsource.ofInstruction
  | underflow => simp [Fault.OfInstruction]
  | unpoppable _ htarget => exact htarget.ofInstruction
  | unhaltable hsource => exact hsource.ofInstruction

/-- A failing step has no instruction to execute, or executes one that reports a fault of its own. -/
theorem Executes.ended_or_ofInstruction {fault : Fault} (h : Executes program m (.error fault)) :
    (program.size ≤ m.pc ∧ fault = .endedWithoutHalt) ∨
      ((∃ instruction, program.get? m.pc = some instruction) ∧ fault.OfInstruction) := by
  cases h with
  | ended h => exact Or.inl ⟨h, rfl⟩
  | unknown h => exact Or.inr ⟨⟨_, h⟩, by simp [Fault.OfInstruction]⟩
  | known h _ hperforms => exact Or.inr ⟨⟨_, h⟩, hperforms.ofInstruction⟩

/-- A failing step does not report the end of a budget. -/
theorem Executes.ne_budgetExceeded {fault : Fault} (h : Executes program m (.error fault)) :
    fault ≠ .budgetExceeded := by
  rcases h.ended_or_ofInstruction with ⟨_, rfl⟩ | ⟨_, hfault⟩
  · simp
  · exact hfault.2

/-! ## Successful instructions -/

/-- A jump leads to an instruction of the program. -/
theorem Target.lt_size {operation : Operation} {operands : List String} {index : Nat}
    (h : Target program operation operands (.ok index)) : index < program.size := by
  cases h with
  | found _ hleast => exact (mem_carriers_iff.1 hleast.1).1

/-- A computation takes one to three cycles. -/
theorem Computes.cost_bounds {operation : Operation} {f : Int → Int → Int} {cost : UInt64}
    (h : Computes operation f cost) : 1 ≤ cost ∧ cost ≤ 3 := by
  cases h <;> decide

/-- An operation that succeeds halts, or works for one to three cycles. -/
theorem Performs.moves {operation : Operation} {operands : List String} {next : Machine}
    (h : Performs program m operation operands (.ok next)) (hpc : m.pc < program.size) :
    Moves program m next := by
  cases h with
  | computed hop _ _ _ _ => exact .works hpc hpc hop.cost_bounds.1 hop.cost_bounds.2
  | compared _ _ => exact .works hpc hpc (by decide) (by decide)
  | jumped _ htarget => exact .works hpc (Nat.le_of_lt htarget.lt_size) (by decide) (by decide)
  | passed _ => exact .works hpc hpc (by decide) (by decide)
  | pushed _ => exact .works hpc hpc (by decide) (by decide)
  | popped _ _ _ => exact .works hpc hpc (by decide) (by decide)
  | halted _ => exact .halts hpc

/-- **Every step is of one of the kinds.** -/
theorem moves_step (hm : m.isTerminal = false) : Moves program m (m.step program) := by
  cases houtcome : m.execute program with
  | error fault =>
      rw [step_of_execute_error hm houtcome]
      exact .fails (executes_iff.2 houtcome).ne_budgetExceeded
  | ok next =>
      rw [step_of_execute_ok hm houtcome]
      have hlt : ∀ {instruction : Instruction}, program.get? m.pc = some instruction →
          m.pc < program.size := by
        intro instruction hget
        by_contra hnot
        rw [Program.get?_eq_none_iff.2 (by omega)] at hget
        cases hget
      cases executes_iff.2 houtcome with
      | bare hget _ => exact .skips (hlt hget)
      | known hget _ hperforms => exact hperforms.moves (hlt hget)

/-- What holds of a machine, and of all that its next step can lead to, holds after the step. -/
theorem step_of_moves {P : Machine → Prop} (h : P m)
    (hmoves : m.isTerminal = false → ∀ next, Moves program m next → P next) :
    P (m.step program) := by
  cases hterminal : m.isTerminal with
  | true => rwa [step_of_isTerminal program hterminal]
  | false => exact hmoves hterminal _ (moves_step hterminal)

end Machine

end RegisterMachine
