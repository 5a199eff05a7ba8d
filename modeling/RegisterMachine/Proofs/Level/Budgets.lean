/-
# Levels with a larger budget

A verdict that does not blame the budget does not depend on it: whoever wins, fails or is wrong within a
budget does so within any larger one.

* `Level.attempt_of_le_budget` : the verdict on a level with a larger budget;
* `Level.run_and_attempt_of_raises` : runs and verdicts together.
-/
import Mathlib.Algebra.Group.Nat.Defs
import RegisterMachine.Level.Judge
import RegisterMachine.Proofs.Machine.Budgets

namespace RegisterMachine

namespace Level

variable {level : Level} {source : String} {larger : UInt64} {m : Machine}

/-- A machine that is not judged to exceed the budget is judged the same under a larger one. -/
theorem judge_of_le_budget (hle : level.budget ≤ larger)
    (h : ∀ cycles, level.judge m ≠ .budgetExceeded cycles) :
    { level with budget := larger }.judge m = level.judge m := by
  rcases Option.eq_none_or_eq_some m.fault with hnone | ⟨fault, hfault⟩
  · by_cases hover : m.exceeds (some level.budget) = true
    · have hjudge : level.judge m = .budgetExceeded m.cycles := by
        rw [judge, hnone]
        exact if_pos hover
      exact absurd hjudge (h m.cycles)
    · have hlarger : ¬ m.exceeds (some larger) = true :=
        fun hexceeds => hover (Machine.exceeds_of_raises (.limited hle) hexceeds)
      rw [judge, judge, hnone]
      -- the budget is all that differs, and the output is judged without it
      exact (if_neg hlarger).trans (if_neg hover).symm
  · rw [judge, judge, hfault]
    cases fault <;> rfl

/-- An attempt that does not exceed the budget has the same verdict under a larger one. -/
theorem attempt_of_le_budget (hle : level.budget ≤ larger)
    (h : ∀ cycles, level.attempt source ≠ .budgetExceeded cycles) :
    { level with budget := larger }.attempt source = level.attempt source := by
  have hfault : (level.machine.runSource source (some level.budget)).fault ≠ some .budgetExceeded := by
    intro hexceeded
    apply h (level.machine.runSource source (some level.budget)).cycles
    rw [attempt, judge, hexceeded]
  have hrun : level.machine.runSource source (some larger) =
      level.machine.runSource source (some level.budget) :=
    Machine.run_of_raises (.limited hle) hfault
  show { level with budget := larger }.judge (level.machine.runSource source (some larger)) = _
  rw [hrun]
  exact judge_of_le_budget hle h

/-- **Raising a budget.** A run that does not exceed its budget ends on the same machine with any larger
budget, or without one, even if it starts over the budget. A run that exceeds the larger budget exceeds
the smaller one, after no more cycles. So a larger budget changes no verdict on a level but that of an
exceeded budget. -/
theorem run_and_attempt_of_raises :
    (∀ (program : Program) (m : Machine) (budget larger : Option UInt64), Raises budget larger →
      ((m.run program budget).fault ≠ some .budgetExceeded →
        m.run program larger = m.run program budget) ∧
      (m.cycles.toNat < 2 ^ 63 → (m.run program larger).fault = some .budgetExceeded →
        (m.run program budget).fault = some .budgetExceeded ∧
          (m.run program budget).cycles ≤ (m.run program larger).cycles)) ∧
    ∀ (level : Level) (source : String) (larger : UInt64), level.budget ≤ larger →
      (∀ cycles, level.attempt source ≠ .budgetExceeded cycles) →
        { level with budget := larger }.attempt source = level.attempt source := by
  refine ⟨?_, fun level source larger hle h => attempt_of_le_budget hle h⟩
  intro program m budget larger hraises
  refine ⟨Machine.run_of_raises hraises, fun hcycles hexceeded => ⟨?_, ?_⟩⟩
  · exact Machine.budgetExceeded_of_raises hraises hexceeded
  · have hroom : m.cycles.toNat + 3 * stepLimit < UInt64.size := by
      rw [stepLimit, UInt64.size]
      omega
    exact Machine.cycles_run_mono hraises hroom

/-- A run that starts over its budget and fails at once fails in the same way with any budget. An endless
loop that exceeds nine cycles exceeds four. A win with one cycle is a win with a hundred. -/
theorem run_and_attempt_over_at_start :
    { Machine.fresh with cycles := 5 }.run (.parse "POP AX") none =
      { Machine.fresh with cycles := 5 }.run (.parse "POP AX") (some 0) ∧
    (Machine.fresh.run (.parse "loop:\nJMP loop") (some 4)).fault = some .budgetExceeded ∧
    (⟨1, "Addition", "Add Beam", ⟨3, 4⟩, 100, []⟩ : Level).attempt "ADD AX, BX\nHLT AX" =
      (⟨1, "Addition", "Add Beam", ⟨3, 4⟩, 1, []⟩ : Level).attempt "ADD AX, BX\nHLT AX" := by
  have hwins : (⟨1, "Addition", "Add Beam", ⟨3, 4⟩, 1, []⟩ : Level).attempt "ADD AX, BX\nHLT AX" =
      .success .addBeam := by
    decide +kernel
  refine ⟨?_, ?_, ?_⟩
  · exact (run_and_attempt_of_raises.1 _ _ _ _ (.unlimited _)).1 (by decide +kernel)
  · exact ((run_and_attempt_of_raises.1 _ _ (some 4) (some 9) (.limited (by decide))).2
      (by decide) (by decide +kernel)).1
  · refine run_and_attempt_of_raises.2 ⟨1, "Addition", "Add Beam", ⟨3, 4⟩, 1, []⟩ _ 100 (by decide) ?_
    intro cycles
    rw [hwins]
    exact Verdict.noConfusion

end Level

end RegisterMachine
