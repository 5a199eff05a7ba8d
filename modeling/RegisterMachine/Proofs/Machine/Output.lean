/-
# What a machine emits

Halting is the one step that emits a word, and no step follows it. So the output of a machine that
starts with none holds one word when the machine has halted, and none before.

* `Machine.Emits` : the output of a machine agrees with whether it has halted;
* `Machine.emits_after` : this holds after any number of steps.
-/
import RegisterMachine.Proofs.Machine.Moves
import RegisterMachine.Proofs.Machine.Runner

namespace RegisterMachine

namespace Machine

variable {program : Program} {m : Machine}

/-- The output holds one word if the machine has halted, and none otherwise. -/
def Emits (m : Machine) : Prop :=
  m.output.length = m.halted.toNat

/-- A machine that has halted has emitted one word. -/
theorem Emits.exists_eq (h : m.Emits) (hhalted : m.halted = true) : ∃ word, m.output = [word] := by
  rw [Emits, hhalted] at h
  exact List.length_eq_one_iff.1 h

/-- A step emits a word exactly when it halts. -/
theorem emits_step (h : m.Emits) : (m.step program).Emits := by
  refine step_of_moves (P := Emits) h ?_
  intro hgoes next hmoves
  cases hmoves with
  | fails => exact h
  | skips => exact h
  | halts =>
      have hhalted : m.halted = false := (isTerminal_eq_false_iff.1 hgoes).1
      rw [Emits, hhalted] at h
      show (m.output ++ [_]).length = true.toNat
      rw [List.length_append, h]
      rfl
  | works => exact h

/-- The output agrees with whether the machine has halted after any number of steps. -/
theorem emits_after (h : m.Emits) (count : Nat) : (m.after program count).Emits :=
  after_of_step (P := Emits) (fun _ => emits_step) h count

end Machine

end RegisterMachine
