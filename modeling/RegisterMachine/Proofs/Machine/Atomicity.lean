/-
# Failures change nothing

An instruction that fails leaves no trace but its fault, even one that fails half-way. So a run that ends
with such a fault ends on the machine that it had before its last step. Once a machine has halted or
failed, no step and no run changes it.

* `Machine.unfault` : a machine without its fault;
* `Machine.unfault_step` : a failing step gives back the machine before it;
* `Machine.unfault_run` : a failing run gives back the machine before its last step;
* `Machine.unfault_eq_before_and_isTerminal_fixed` : steps, runs and ends together.
-/
import RegisterMachine.Machine.Execution
import RegisterMachine.Proofs.Machine.Moves
import RegisterMachine.Proofs.Machine.Transitions

namespace RegisterMachine

namespace Machine

variable {program : Program} {m : Machine} {budget : Option UInt64}

/-! ## Failing steps -/

/-- A machine without its fault. -/
def unfault (m : Machine) : Machine :=
  { m with fault := none }

theorem unfault_of_none (h : m.fault = none) : m.unfault = m := by
  cases m
  simp_all [unfault]

/-- A step that fails gives back the machine before it, and a fault other than the end of a budget. -/
theorem unfault_step (hm : m.isTerminal = false) {fault : Fault}
    (h : (m.step program).fault = some fault) :
    (m.step program).unfault = m ∧ fault ≠ .budgetExceeded := by
  have hnone : m.fault = none := (isTerminal_eq_false_iff.1 hm).2
  have hgoes : m.fault ≠ some fault := by
    rw [hnone]
    exact (Option.some_ne_none fault).symm
  have hmoves : Moves program m (m.step program) := moves_step hm
  generalize m.step program = next at h hmoves
  cases hmoves with
  | fails hne =>
      cases h
      exact ⟨unfault_of_none hnone, hne⟩
  | skips => exact absurd h hgoes
  | halts => exact absurd h hgoes
  | works => exact absurd h hgoes

/-- A step never reports the end of a budget. -/
theorem fault_step_ne_budgetExceeded (h : m.fault ≠ some .budgetExceeded) :
    (m.step program).fault ≠ some .budgetExceeded := by
  refine step_of_moves (P := fun next => next.fault ≠ some .budgetExceeded) h ?_
  intro _ next hmoves
  cases hmoves with
  | fails hne => exact fun heq => hne (Option.some.inj heq)
  | skips => exact h
  | halts => exact h
  | works => exact h

/-- Neither do any number of steps. -/
theorem fault_after_ne_budgetExceeded (h : m.fault ≠ some .budgetExceeded) (count : Nat) :
    (m.after program count).fault ≠ some .budgetExceeded :=
  after_of_step (P := fun last => last.fault ≠ some .budgetExceeded)
    (fun _ => fault_step_ne_budgetExceeded) h count

/-! ## Failing runs -/

/-- A run that ends with the fault of an instruction gives back the machine before its last step. -/
theorem unfault_run {fault : Fault} (hm : m.isTerminal = false)
    (h : (m.run program budget).fault = some fault) (hne : fault ≠ .budgetExceeded) :
    ∃ n, (m.transitions program budget).length = n + 1 ∧
      m.run program budget = m.after program (n + 1) ∧
      (m.run program budget).unfault = m.after program n := by
  obtain ⟨n, htakes, hgoes, hrun⟩ := exists_takes_of_fault hm h hne
  refine ⟨n, ?_, hrun, ?_⟩
  · rw [htakes.transitions_eq hm, List.length_map, List.length_range]
  · rw [hrun, after_succ] at h ⊢
    exact (unfault_step hgoes h).1

/-- **A failure changes nothing but the fault, and an end is final.** A step that fails gives back the
machine before it, and so does a run whose last step fails; the fault of an exceeded budget, which no
step reports, is the exception. A machine that has halted or failed stays as it is under every step and
every run, and there is nothing left to execute. -/
theorem unfault_eq_before_and_isTerminal_fixed (m : Machine) (program : Program) :
    (m.isTerminal = false → ∀ fault, (m.step program).fault = some fault →
      (m.step program).unfault = m ∧ fault ≠ .budgetExceeded) ∧
    (m.isTerminal = false → ∀ budget fault, (m.run program budget).fault = some fault →
      fault ≠ .budgetExceeded →
        ∃ n, (m.transitions program budget).length = n + 1 ∧
          m.run program budget = m.after program (n + 1) ∧
          (m.run program budget).unfault = m.after program n) ∧
    (m.isTerminal = true →
      m.step program = m ∧ (∀ budget, m.run program budget = m) ∧
        (Execution.mk program m).next? = none ∧
        ∀ count, (Execution.mk program m).take count = ([], ⟨program, m⟩)) := by
  refine ⟨fun hm fault h => unfault_step hm h, fun hm budget fault h hne => unfault_run hm h hne, ?_⟩
  intro hm
  refine ⟨step_of_isTerminal program hm, fun budget => run_of_isTerminal program budget hm, ?_,
    fun count => Execution.take_of_isTerminal hm count⟩
  rw [Execution.next?, if_pos hm]

/-- To pop a word into a literal fails: the step leaves the word on the stack, and a run that gets there
gives back the machine that has pushed the word. A machine that has halted is not run again, even over
its budget. -/
theorem unfault_pop_into_literal :
    ((fresh.withStack [7]).step (.parse "POP 5")).unfault = fresh.withStack [7] ∧
    (∃ n, (fresh.transitions (.parse "PUSH 7\nPOP 5") none).length = n + 1 ∧
      fresh.run (.parse "PUSH 7\nPOP 5") none = fresh.after (.parse "PUSH 7\nPOP 5") (n + 1) ∧
      (fresh.run (.parse "PUSH 7\nPOP 5") none).unfault =
        fresh.after (.parse "PUSH 7\nPOP 5") n) ∧
    { fresh with halted := true, cycles := 5 }.run (.parse "POP 5") (some 0) =
      { fresh with halted := true, cycles := 5 } :=
  ⟨((unfault_eq_before_and_isTerminal_fixed (fresh.withStack [7]) (.parse "POP 5")).1 rfl
      (.notARegister "5") (by decide +kernel)).1,
    (unfault_eq_before_and_isTerminal_fixed fresh (.parse "PUSH 7\nPOP 5")).2.1 rfl none
      (.notARegister "5") (by decide +kernel) (by decide),
    ((unfault_eq_before_and_isTerminal_fixed { fresh with halted := true, cycles := 5 }
      (.parse "POP 5")).2.2 rfl).2.1 (some 0)⟩

end Machine

end RegisterMachine
