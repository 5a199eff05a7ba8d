/-
# Judging what a driver got to

A player may step through a program without a budget, and have the machine judged at the end. This gives
the verdict of an attempt as long as the machine is within the budget. Over the budget both refuse the
program, but for different reasons: an attempt stops where the budget is exceeded, and a driver that goes
on may run into a fault, which the judge looks at first.

* `Level.EndsAt.over_iff` : the end of an attempt is over the budget exactly when later machines are;
* `Level.judge_eq_attempt_of_reaches` : within the budget the verdicts agree, and only there is success;
* `Level.judge_over_budget_of_reaches` : the verdicts over the budget.
-/
import RegisterMachine.Proofs.Level.Verdicts
import RegisterMachine.Proofs.Machine.Atomicity
import RegisterMachine.Proofs.Machine.Cycles
import RegisterMachine.Proofs.Machine.Exclusion
import RegisterMachine.Proofs.Machine.Orbit

namespace RegisterMachine

namespace Level

variable {level : Level} {source : String} {n k : Nat}

/-! ## The end of an attempt and later machines -/

/-- Along the first ten thousand machines no cycles are given back. -/
theorem cycles_reached_mono (hle : k ≤ n) (hn : n ≤ 10000) :
    (level.reached source k).cycles ≤ (level.reached source n).cycles := by
  apply Machine.cycles_after_mono (.parse source) hle
  have hfresh : level.machine.cycles.toNat = 0 := rfl
  rw [hfresh, UInt64.size]
  omega

/-- An attempt ends where the machine is terminal, or before. -/
theorem exists_endsAt_of_isTerminal (hn : n ≤ 10000)
    (hterminal : (level.reached source n).isTerminal = true) :
    ∃ k, k ≤ n ∧ level.EndsAt source k := by
  have hpos : 1 ≤ n := by
    rcases Nat.eq_zero_or_pos n with rfl | hpos
    · exact absurd (level.isTerminal_machine.symm.trans hterminal) Bool.false_ne_true
    · exact hpos
  obtain ⟨k, hk⟩ := Machine.exists_isFirstStop ⟨n, ⟨hpos, hn⟩, Or.inl hterminal⟩
  exact ⟨k, hk.2 ⟨⟨hpos, hn⟩, Or.inl hterminal⟩, hk⟩

/-- An attempt that ends within the budget ends on a terminal machine, where all drivers rest. -/
theorem EndsAt.reached_eq (h : level.EndsAt source k) (hle : k ≤ n)
    (hwithin : ¬ level.budget < (level.reached source k).cycles) :
    level.reached source n = level.reached source k := by
  rcases h.1.2 with hterminal | hover
  · exact Machine.after_eq_of_isTerminal hterminal hle
  · exact absurd (Machine.isOver_some_iff.1 hover) hwithin

/-- The end of an attempt is over the budget exactly when a later machine is. -/
theorem EndsAt.over_iff (h : level.EndsAt source k) (hle : k ≤ n) (hn : n ≤ 10000) :
    level.budget < (level.reached source k).cycles ↔
      level.budget < (level.reached source n).cycles := by
  constructor
  · intro hover
    exact UInt64.lt_of_lt_of_le hover (cycles_reached_mono hle hn)
  · intro hover
    by_contra hwithin
    rw [h.reached_eq hle hwithin] at hover
    exact hwithin hover

/-! ## Verdicts on later machines -/

/-- A machine over the budget that has no fault exceeds it. -/
theorem judge_of_over {last : Machine} (hfault : last.fault = none)
    (hover : level.budget < last.cycles) : level.judge last = .budgetExceeded last.cycles := by
  have hexceeds : last.exceeds (some level.budget) = true :=
    Machine.exceeds_iff.2 (Machine.isOver_some_iff.2 hover)
  rw [judge, hfault]
  show (if last.exceeds (some level.budget) then _ else _) = _
  rw [if_pos hexceeds]

/-- A machine over the budget does not win. -/
theorem isSuccess_judge_of_over {last : Machine} (hover : level.budget < last.cycles) :
    (level.judge last).isSuccess = false := by
  rcases Option.eq_none_or_eq_some last.fault with hfault | ⟨fault, hfault⟩
  · rw [judge_of_over hfault hover]
    rfl
  · rw [judge, hfault]
    cases fault <;> rfl

/-- No driver is stopped by a budget. -/
theorem fault_reached_ne_budgetExceeded {fault : Fault}
    (h : (level.reached source n).fault = some fault) : fault ≠ .budgetExceeded := by
  rintro rfl
  have hstart : level.machine.fault ≠ some .budgetExceeded := (Option.some_ne_none _).symm
  exact Machine.fault_after_ne_budgetExceeded hstart n h

/-- A driver that has halted has no fault. -/
theorem fault_reached_of_halted (h : (level.reached source n).halted = true) :
    (level.reached source n).fault = none := by
  by_contra hfault
  have hstart : ¬ level.machine.Conflicted :=
    Machine.not_conflicted_of_goes level.isTerminal_machine
  exact Machine.not_conflicted_after hstart n ⟨h, hfault⟩

/-- **A driver within the budget is judged as the attempt is.** A driver that gets to a terminal machine
in ten thousand steps or less has the verdict of the attempt if it is within the budget, and it wins
exactly when the attempt does, within the budget or not. -/
theorem judge_eq_attempt_of_reaches {last : Machine}
    (h : Machine.Reaches (.parse source) level.machine n last) (hn : n ≤ 10000)
    (hterminal : last.isTerminal = true) :
    last = level.machine.after (.parse source) n ∧
    (last.cycles ≤ level.budget → level.judge last = level.attempt source) ∧
    ((level.judge last).isSuccess = true ↔ (level.attempt source).isSuccess = true) := by
  have hlast : last = level.reached source n := h.eq_after
  subst hlast
  obtain ⟨k, hle, hends⟩ := exists_endsAt_of_isTerminal hn hterminal
  have hagree : (level.reached source n).cycles ≤ level.budget →
      level.judge (level.reached source n) = level.attempt source := by
    intro hwithin
    have hnot : ¬ level.budget < (level.reached source k).cycles := by
      rw [hends.over_iff hle hn]
      exact UInt64.not_lt.2 hwithin
    rw [hends.reached_eq hle hnot, hends.attempt_eq_judge (UInt64.not_lt.1 hnot)]
  refine ⟨rfl, hagree, ?_⟩
  by_cases hover : level.budget < (level.reached source n).cycles
  · -- over the budget neither wins
    rw [isSuccess_judge_of_over hover,
      hends.attempt_eq_budgetExceeded ((hends.over_iff hle hn).2 hover)]
    rfl
  · rw [hagree (UInt64.not_lt.1 hover)]

/-- A driver that takes two steps through an execution, and a third one by hand, uses up the budget and
wins as the attempt does. -/
theorem judge_eq_attempt_at_budget :
    (⟨1, "Addition", "Add Beam", ⟨3, 4⟩, 1, []⟩ : Level).judge
        (((Execution.mk (.parse "ADD AX, BX\nHLT AX")
          (⟨1, "Addition", "Add Beam", ⟨3, 4⟩, 1, []⟩ : Level).machine).take 2).2.machine.step
            (.parse "ADD AX, BX\nHLT AX")) =
      (⟨1, "Addition", "Add Beam", ⟨3, 4⟩, 1, []⟩ : Level).attempt "ADD AX, BX\nHLT AX" ∧
    (⟨1, "Addition", "Add Beam", ⟨3, 4⟩, 1, []⟩ : Level).attempt "ADD AX, BX\nHLT AX" =
      .success .addBeam := by
  constructor
  · exact (judge_eq_attempt_of_reaches (.step (.take .start 2)) (by decide)
      (by decide +kernel)).2.1 (by decide +kernel)
  · decide +kernel

/-- **Over the budget a fault comes first.** Where a driver gets to a terminal machine that is over the
budget, the attempt exceeds the budget. So does the driver if it has halted; if it has failed, it is
judged by its fault. -/
theorem judge_over_budget_of_reaches {last : Machine}
    (h : Machine.Reaches (.parse source) level.machine n last) (hn : n ≤ 10000)
    (hterminal : last.isTerminal = true) (hover : level.budget < last.cycles) :
    (∃ cycles, level.attempt source = .budgetExceeded cycles ∧ level.budget < cycles ∧
      cycles ≤ last.cycles) ∧
    (last.halted = true → level.judge last = .budgetExceeded last.cycles) ∧
    (∀ fault, last.fault = some fault → level.judge last = .runtimeError fault) := by
  have hlast : last = level.reached source n := h.eq_after
  subst hlast
  obtain ⟨k, hle, hends⟩ := exists_endsAt_of_isTerminal hn hterminal
  have hfirst := (hends.over_iff hle hn).2 hover
  refine ⟨⟨_, hends.attempt_eq_budgetExceeded hfirst, hfirst, cycles_reached_mono hle hn⟩, ?_, ?_⟩
  · intro hhalted
    exact judge_of_over (fault_reached_of_halted hhalted) hover
  · intro fault hfault
    exact judge_of_fault hfault (fault_reached_ne_budgetExceeded hfault)

/-- A driver that runs without a budget, takes two cycles instead of one and halts exceeds the budget. -/
theorem judge_halted_over_budget :
    (⟨1, "Addition", "Add Beam", ⟨3, 4⟩, 1, []⟩ : Level).judge
        ((⟨1, "Addition", "Add Beam", ⟨3, 4⟩, 1, []⟩ : Level).machine.run
          (.parse "MOV AX, 1\nMOV AX, 2\nHLT AX") none) =
      .budgetExceeded 2 :=
  (judge_over_budget_of_reaches (.run .start) (by decide) (by decide +kernel)
    (by decide +kernel)).2.1 (by decide +kernel)

/-- It is not so that all drivers over the budget are judged to exceed it: one that takes two cycles
instead of one, and then pops a word from the empty stack, is judged by this fault. -/
theorem not_forall_judge_over_budget :
    ¬ ∀ (level : Level) (source : String) (n : Nat) (last : Machine),
      Machine.Reaches (.parse source) level.machine n last → n ≤ 10000 →
        last.isTerminal = true → level.budget < last.cycles →
          ∃ cycles, level.judge last = .budgetExceeded cycles := by
  intro hall
  obtain ⟨cycles, hcycles⟩ := hall ⟨1, "Addition", "Add Beam", ⟨3, 4⟩, 1, []⟩
    "MOV AX, 1\nMOV AX, 2\nPOP AX" 3 _ (.step (.step (.step .start))) (by decide)
    (by decide +kernel) (by decide +kernel)
  have hjudge : (⟨1, "Addition", "Add Beam", ⟨3, 4⟩, 1, []⟩ : Level).judge
      ((⟨1, "Addition", "Add Beam", ⟨3, 4⟩, 1, []⟩ : Level).machine.after
        (.parse "MOV AX, 1\nMOV AX, 2\nPOP AX") 3) = .runtimeError .stackUnderflow := by
    decide +kernel
  exact Verdict.noConfusion (hjudge.symm.trans hcycles)

end Level

end RegisterMachine
