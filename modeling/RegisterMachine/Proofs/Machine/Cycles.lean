/-
# Cycles along a run

A step gives no cycles back, and takes three at most. So the cycles that a machine has used grow from
step to step, and by no more than three each time, as long as the counter has room for them.

* `Machine.cycles_step_le` : one step;
* `Machine.cycles_after_le` : any number of steps;
* `Machine.cycles_after_mono` : a later machine has used no fewer cycles than an earlier one.

Near its upper end the counter wraps around, so each statement asks for room for its steps.
-/
import RegisterMachine.Proofs.Machine.Progress

namespace RegisterMachine

namespace Machine

variable {program : Program} {m : Machine}

/-- A step takes three cycles at most, and gives none back. -/
theorem cycles_step_le (program : Program) (hroom : m.cycles.toNat + 3 < UInt64.size) :
    m.cycles.toNat ≤ (m.step program).cycles.toNat ∧
      (m.step program).cycles.toNat ≤ m.cycles.toNat + 3 := by
  have hsame : m.cycles.toNat ≤ m.cycles.toNat ∧ m.cycles.toNat ≤ m.cycles.toNat + 3 :=
    ⟨le_rfl, Nat.le_add_right _ _⟩
  refine step_of_moves (P := fun next =>
    m.cycles.toNat ≤ next.cycles.toNat ∧ next.cycles.toNat ≤ m.cycles.toNat + 3) hsame ?_
  intro _ next hmoves
  cases hmoves with
  | fails | skips | halts => exact hsame
  | @works registers stack pc zero cost _ _ _ hhigh =>
      have hlimit : m.cycles.toNat < UInt64.size - 3 := by omega
      have hsum : (m.cycles + cost).toNat = m.cycles.toNat + cost.toNat :=
        toNat_cycles_add hlimit UInt64.le_rfl hhigh
      have hcost : cost.toNat ≤ 3 := UInt64.le_iff_toNat_le.1 hhigh
      show m.cycles.toNat ≤ (m.cycles + cost).toNat ∧ (m.cycles + cost).toNat ≤ _
      omega

/-- A number of steps takes three cycles each at most, and gives none back. -/
theorem cycles_after_le (program : Program) {count : Nat}
    (hroom : m.cycles.toNat + 3 * count < UInt64.size) :
    m.cycles.toNat ≤ (m.after program count).cycles.toNat ∧
      (m.after program count).cycles.toNat ≤ m.cycles.toNat + 3 * count := by
  induction count with
  | zero => exact ⟨le_rfl, le_rfl⟩
  | succ count ih =>
      obtain ⟨hlow, hhigh⟩ := ih (by omega)
      have hstep := cycles_step_le (m := m.after program count) program (by omega)
      rw [after_succ]
      omega

/-- A later machine has used no fewer cycles than an earlier one. -/
theorem cycles_after_mono (program : Program) {first last : Nat} (hle : first ≤ last)
    (hroom : m.cycles.toNat + 3 * last < UInt64.size) :
    (m.after program first).cycles ≤ (m.after program last).cycles := by
  obtain ⟨more, rfl⟩ : ∃ more, last = first + more := ⟨last - first, by omega⟩
  have hfirst := (cycles_after_le program (by omega : m.cycles.toNat + 3 * first < _)).2
  rw [after_add, UInt64.le_iff_toNat_le]
  exact (cycles_after_le program (by omega)).1

end Machine

end RegisterMachine
