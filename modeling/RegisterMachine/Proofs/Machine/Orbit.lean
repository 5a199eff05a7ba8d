/-
# Drivers without a budget

A program can be stepped through by hand, watched through an execution or run without a budget, and a
driver may do so by turns. Whichever way it goes, the machine that it gets to is the machine after a
number of steps, and only their number matters.

* `Machine.Reaches` : the machines that such drivers get to, with the number of steps;
* `Machine.runFor_none` : a run without a budget takes all its steps;
* `Machine.Reaches.eq_after` : any driver follows the same sequence of machines;
* `Machine.after_eq_of_isTerminal` : which comes to rest at the first terminal machine.
-/
import RegisterMachine.Proofs.Machine.Driving

namespace RegisterMachine

namespace Machine

variable {program : Program} {m : Machine}

/-- The machines that a driver without a budget gets to by a number of steps. -/
inductive Reaches (program : Program) (m : Machine) : Nat → Machine → Prop
  | start : Reaches program m 0 m
  | step {count : Nat} {last : Machine} (h : Reaches program m count last) :
      Reaches program m (count + 1) (last.step program)
  /-- Takes at most this many machines from an execution, and goes on with the last of them. -/
  | take {count : Nat} {last : Machine} (h : Reaches program m count last) (more : Nat) :
      Reaches program m (count + more) ((Execution.mk program last).take more).2.machine
  | run {count : Nat} {last : Machine} (h : Reaches program m count last) :
      Reaches program m (count + stepLimit) (last.run program none)

/-- A run without a budget takes all the steps that it may. -/
theorem runFor_none (m : Machine) (program : Program) (count : Nat) :
    m.runFor program none count = m.after program count := by
  induction count generalizing m with
  | zero => rfl
  | succ count ih =>
      by_cases hterminal : m.isTerminal = true
      · rw [runFor_of_isTerminal hterminal, after_of_isTerminal program hterminal]
      · rw [Bool.not_eq_true] at hterminal
        rw [runFor_succ hterminal, exceeds_none, if_neg Bool.false_ne_true, ih, after_succ']

/-- **Every driver without a budget follows the same machines.** -/
theorem Reaches.eq_after {count : Nat} {last : Machine} (h : Reaches program m count last) :
    last = m.after program count := by
  induction h with
  | start => rfl
  | step _ ih => rw [ih, after_succ]
  | take _ more ih => rw [Execution.machine_take, ih, after_add]
  | run _ ih => rw [Machine.run, runFor_none, ih, after_add]

/-- From a terminal machine on, all machines are the same. -/
theorem after_eq_of_isTerminal {first last : Nat} (h : (m.after program first).isTerminal = true)
    (hle : first ≤ last) : m.after program last = m.after program first := by
  obtain ⟨more, rfl⟩ : ∃ more, last = first + more := ⟨last - first, by omega⟩
  rw [after_add, after_of_isTerminal program h]

/-- A program comes to rest in one machine only. -/
theorem after_unique_of_isTerminal {first second : Nat}
    (hfirst : (m.after program first).isTerminal = true)
    (hsecond : (m.after program second).isTerminal = true) :
    m.after program first = m.after program second := by
  rcases Nat.le_total first second with hle | hle
  · exact (after_eq_of_isTerminal hfirst hle).symm
  · exact after_eq_of_isTerminal hsecond hle

end Machine

end RegisterMachine
