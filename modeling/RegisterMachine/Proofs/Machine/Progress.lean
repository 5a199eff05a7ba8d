/-
# No loop is free

A budget bounds a run. A step that works takes a cycle, and only a step over a bare label takes none;
such steps go forward, so no more of them follow each other than the program has instructions.

* `Machine.Goes` : the machines from which a run with a limit on its cycles goes on;
* `Machine.slack` : a bound on the steps that are left to such a machine;
* `Machine.slack_step_lt` : every step lowers it, or the run stops there;
* `Machine.exists_stops_le` : so a run stops after no more steps than this.

Neither the place in the program nor the cycles alone would do as a measure: a jump leads back, and a bare
label takes no cycles.
-/
import RegisterMachine.Proofs.Machine.Endings

namespace RegisterMachine

namespace Machine

variable {program : Program} {m : Machine} {limit : UInt64}

/-! ## The measure -/

/-- A machine in the program or at its end that does not stop a run with this limit on its cycles. -/
structure Goes (program : Program) (limit : UInt64) (m : Machine) : Prop where
  halted : m.halted = false
  fault : m.fault = none
  within : m.cycles ≤ limit
  inside : m.pc ≤ program.size

/-- The instructions that are left behind this one in the program, and all of the program and its end
once more for each cycle that is left. -/
def slack (program : Program) (limit : UInt64) (m : Machine) : Nat :=
  (limit.toNat - m.cycles.toNat) * (program.size + 1) + (program.size - m.pc)

theorem Goes.isTerminal (h : m.Goes program limit) : m.isTerminal = false :=
  isTerminal_eq_false_iff.2 ⟨h.halted, h.fault⟩

/-! ## Steps -/

/-- Cycles do not wrap around below a limit that leaves room for one more step. -/
theorem toNat_cycles_add {cycles cost : UInt64} (hlimit : limit.toNat < UInt64.size - 3)
    (hwithin : cycles ≤ limit) (hcost : cost ≤ 3) :
    (cycles + cost).toNat = cycles.toNat + cost.toNat := by
  have hcycles : cycles.toNat ≤ limit.toNat := UInt64.le_iff_toNat_le.1 hwithin
  have hthree : cost.toNat ≤ 3 := UInt64.le_iff_toNat_le.1 hcost
  have hfits : cycles.toNat + cost.toNat < UInt64.size := by omega
  rw [UInt64.toNat_add, Nat.mod_eq_of_lt hfits]

/-- A cycle less outweighs any jump. -/
theorem mul_add_lt_of_add_le {left used total size ahead behind : Nat} (hused : 1 ≤ used)
    (hleft : left + used ≤ total) (hahead : ahead ≤ size) :
    left * (size + 1) + ahead < total * (size + 1) + behind := by
  have hmono : (left + 1) * (size + 1) ≤ total * (size + 1) :=
    Nat.mul_le_mul_right (size + 1) (by omega)
  have hcycle : (left + 1) * (size + 1) = left * (size + 1) + (size + 1) := Nat.succ_mul _ _
  omega

/-- Every step lowers the measure, or a run with this limit stops there. -/
theorem slack_step_lt (hlimit : limit.toNat < UInt64.size - 3) (h : m.Goes program limit)
    (hgoes : ¬ (m.step program).Stops (some limit)) :
    (m.step program).Goes program limit ∧
      (m.step program).slack program limit < m.slack program limit := by
  have hmoves : Moves program m (m.step program) := moves_step h.isTerminal
  generalize m.step program = next at hgoes hmoves
  obtain ⟨hhalted, hfault, hwithin⟩ := not_stops_some_iff.1 hgoes
  cases hmoves with
  | fails => cases hfault
  | halts => cases hhalted
  | skips hpc =>
      refine ⟨⟨hhalted, hfault, hwithin, hpc⟩, ?_⟩
      show (limit.toNat - m.cycles.toNat) * (program.size + 1) + (program.size - (m.pc + 1)) < _
      unfold slack
      omega
  | @works registers stack pc zero cost hpc hnext hlow hhigh =>
      refine ⟨⟨hhalted, hfault, hwithin, hnext⟩, ?_⟩
      have hone : 1 ≤ cost.toNat := UInt64.le_iff_toNat_le.1 hlow
      have hsum : (m.cycles + cost).toNat = m.cycles.toNat + cost.toNat :=
        toNat_cycles_add hlimit h.within hhigh
      have hle : (m.cycles + cost).toNat ≤ limit.toNat := UInt64.le_iff_toNat_le.1 hwithin
      show (limit.toNat - (m.cycles + cost).toNat) * (program.size + 1) + (program.size - pc) < _
      exact mul_add_lt_of_add_le hone (by omega) (Nat.sub_le _ _)

/-! ## Runs -/

/-- As long as no machine stops, each step is paid for by the measure. -/
theorem add_slack_after_le (hlimit : limit.toNat < UInt64.size - 3) (h : m.Goes program limit)
    {count : Nat} (hgoes : ∀ k, 1 ≤ k → k ≤ count → ¬ (m.after program k).Stops (some limit)) :
    (m.after program count).Goes program limit ∧
      count + (m.after program count).slack program limit ≤ m.slack program limit := by
  induction count with
  | zero => exact ⟨h, by simp⟩
  | succ count ih =>
      obtain ⟨hlast, hsum⟩ := ih fun k hpos hle => hgoes k hpos (by omega)
      have hnot : ¬ (m.after program (count + 1)).Stops (some limit) :=
        hgoes (count + 1) (by omega) le_rfl
      rw [after_succ] at hnot ⊢
      obtain ⟨hnext, hlt⟩ := slack_step_lt hlimit hlast hnot
      exact ⟨hnext, by omega⟩

/-- A run stops after no more steps than the measure has room for. -/
theorem exists_stops_le (hlimit : limit.toNat < UInt64.size - 3) (h : m.Goes program limit) :
    ∃ k, 1 ≤ k ∧ k ≤ (limit.toNat + 1 - m.cycles.toNat) * (program.size + 1) ∧
      (m.after program k).Stops (some limit) := by
  have hcycles : m.cycles.toNat ≤ limit.toNat := UInt64.le_iff_toNat_le.1 h.within
  -- the program once more, for the steps after the last cycle
  have hbound : (limit.toNat + 1 - m.cycles.toNat) * (program.size + 1) =
      (limit.toNat - m.cycles.toNat) * (program.size + 1) + (program.size + 1) := by
    rw [← Nat.succ_mul]
    congr 1
    omega
  by_contra hnone
  have hgoes : ∀ k, 1 ≤ k → k ≤ m.slack program limit + 1 →
      ¬ (m.after program k).Stops (some limit) := by
    intro k hpos hle hstops
    refine hnone ⟨k, hpos, ?_, hstops⟩
    unfold slack at hle
    omega
  have hsum := (add_slack_after_le hlimit h hgoes).2
  omega

end Machine

end RegisterMachine
