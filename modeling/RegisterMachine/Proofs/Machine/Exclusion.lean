/-
# Halting and failing

A machine that has halted should not fail as well. Steps keep the two apart, and so does a run that
starts within its budget. There is one way around this: a run that starts over its budget takes a step
before it looks at the budget, and if this step halts, the fault of the exceeded budget is added to a
machine that has halted.

* `Machine.Conflicted` : a machine that has halted and failed;
* `Machine.HaltsLate` : the runs that lead to such a machine;
* `Machine.conflicted_run_iff` : no other runs do;
* `Machine.conflicted_drive_iff_haltsLate` : nor does any other way of driving a machine.
-/
import RegisterMachine.Proofs.Machine.Driving
import RegisterMachine.Proofs.Machine.Moves

namespace RegisterMachine

namespace Machine

variable {program : Program} {m : Machine} {budget : Option UInt64}

/-! ## Conflicts -/

/-- A machine that has halted and failed. -/
def Conflicted (m : Machine) : Prop :=
  m.halted = true ∧ m.fault ≠ none

/-- A run that starts over its budget, and whose first step halts. -/
structure HaltsLate (m : Machine) (program : Program) (budget : Option UInt64) : Prop where
  goes : m.isTerminal = false
  late : m.IsOver budget
  halts : (m.step program).halted = true

theorem not_conflicted_of_goes (h : m.isTerminal = false) : ¬ m.Conflicted := by
  rintro ⟨hhalted, -⟩
  rw [(isTerminal_eq_false_iff.1 h).1] at hhalted
  cases hhalted

theorem Conflicted.isTerminal (h : m.Conflicted) : m.isTerminal = true :=
  isTerminal_of_fault h.2

/-! ## Steps -/

/-- A step leads to no conflict. -/
theorem not_conflicted_step (hm : ¬ m.Conflicted) : ¬ (m.step program).Conflicted := by
  refine step_of_moves (P := fun next => ¬ next.Conflicted) hm ?_
  rintro hgoes next hmoves ⟨hnext, hfails⟩
  obtain ⟨hhalted, hfault⟩ := isTerminal_eq_false_iff.1 hgoes
  cases hmoves with
  | fails => exact Bool.false_ne_true (hhalted.symm.trans hnext)
  | skips => exact hfails hfault
  | halts => exact hfails hfault
  | works => exact hfails hfault

/-- Neither do any number of steps. -/
theorem not_conflicted_after (hm : ¬ m.Conflicted) (count : Nat) :
    ¬ (m.after program count).Conflicted :=
  after_of_step (P := fun last => ¬ last.Conflicted) (fun _ => not_conflicted_step) hm count

/-- A step that halts takes no cycles. -/
theorem cycles_step_of_halted (hm : m.isTerminal = false) (h : (m.step program).halted = true) :
    (m.step program).cycles = m.cycles := by
  have hhalted : m.halted = false := (isTerminal_eq_false_iff.1 hm).1
  have hmoves : Moves program m (m.step program) := moves_step hm
  generalize m.step program = next at h hmoves
  cases hmoves with
  | fails => rfl
  | skips => rfl
  | halts => rfl
  | works => exact absurd (hhalted.symm.trans h) Bool.false_ne_true

/-- So a step that halts does not lead over a budget. -/
theorem exceeds_step_of_halted (hm : m.isTerminal = false) (h : (m.step program).halted = true) :
    (m.step program).exceeds budget = m.exceeds budget := by
  rw [exceeds, exceeds, cycles_step_of_halted hm h]

/-! ## Runs -/

/-- A run that starts within its budget leads to no conflict. -/
theorem not_conflicted_runFor (hm : ¬ m.Conflicted) (hwithin : m.exceeds budget = false)
    (count : Nat) : ¬ (m.runFor program budget count).Conflicted := by
  induction count generalizing m with
  | zero => exact hm
  | succ count ih =>
      cases hterminal : m.isTerminal with
      | true => rwa [runFor_of_isTerminal hterminal]
      | false =>
          rw [runFor_succ hterminal]
          split
          · next hexceeds =>
              -- the step led over the budget, so it did not halt
              rintro ⟨hhalted, -⟩
              rw [exceeds_step_of_halted hterminal hhalted, hwithin] at hexceeds
              cases hexceeds
          · next hexceeds =>
              rw [Bool.not_eq_true] at hexceeds
              exact ih (not_conflicted_step hm) hexceeds

/-- The first step of a run, after which the budget is looked at for the first time. -/
theorem run_of_goes (hm : m.isTerminal = false) :
    m.run program budget =
      if (m.step program).exceeds budget then (m.step program).fail .budgetExceeded
      else (m.step program).runFor program budget 9999 :=
  runFor_succ hm 9999

/-- A run that halts late takes one step, and adds the fault of the exceeded budget. -/
theorem HaltsLate.run_eq (h : m.HaltsLate program budget) :
    m.run program budget = { m.step program with fault := some .budgetExceeded } := by
  have hexceeds : (m.step program).exceeds budget = true := by
    rw [exceeds_step_of_halted h.goes h.halts]
    exact exceeds_iff.2 h.late
  have hfault : (m.step program).fault = none := by
    by_contra hfault
    exact not_conflicted_step (not_conflicted_of_goes h.goes) ⟨h.halts, hfault⟩
  rw [run_of_goes h.goes, if_pos hexceeds, fail_of_none _ hfault]

/-- A run leads to a conflict exactly when it halts late. -/
theorem conflicted_run_iff (hm : ¬ m.Conflicted) :
    (m.run program budget).Conflicted ↔ m.HaltsLate program budget := by
  constructor
  · intro hrun
    cases hterminal : m.isTerminal with
    | true =>
        rw [run_of_isTerminal program budget hterminal] at hrun
        exact absurd hrun hm
    | false =>
        rw [run_of_goes hterminal] at hrun
        split at hrun
        · next hexceeds =>
            have hhalted : (m.step program).halted = true := hrun.1
            rw [exceeds_step_of_halted hterminal hhalted] at hexceeds
            exact ⟨hterminal, exceeds_iff.1 hexceeds, hhalted⟩
        · next hexceeds =>
            have hwithin : (m.step program).exceeds budget = false := by
              rwa [Bool.not_eq_true] at hexceeds
            exact absurd hrun (not_conflicted_runFor (not_conflicted_step hm) hwithin 9999)
  · intro hlate
    rw [hlate.run_eq]
    exact ⟨hlate.halts, Option.some_ne_none _⟩

/-! ## Any way of driving a machine -/

/-- An action leads to a conflict exactly when there was one before, or when it is a run that halts
late. -/
theorem conflicted_act_iff (m : Machine) (action : Action) :
    (m.act action).Conflicted ↔
      m.Conflicted ∨ ∃ program budget, action = .run program budget ∧ m.HaltsLate program budget := by
  by_cases hm : m.Conflicted
  · -- a conflict is an end, and ends are final
    obtain ⟨hhalted, hfault⟩ := act_of_isTerminal hm.isTerminal action
    refine ⟨fun _ => Or.inl hm, fun _ => ⟨hhalted.trans hm.1, ?_⟩⟩
    rw [hfault]
    exact hm.2
  · cases action with
    | setRegister register word => exact ⟨fun h => absurd h hm, by simp [hm]⟩
    | setStack words => exact ⟨fun h => absurd h hm, by simp [hm]⟩
    | step program => exact ⟨fun h => absurd h (not_conflicted_step hm), by simp [hm]⟩
    | take program count =>
        have hlast : m.act (.take program count) = m.after program count :=
          Execution.machine_take ⟨program, m⟩ count
        rw [hlast]
        exact ⟨fun h => absurd h (not_conflicted_after hm count), by simp [hm]⟩
    | run program budget =>
        show (m.run program budget).Conflicted ↔ _
        rw [conflicted_run_iff hm]
        refine ⟨fun h => Or.inr ⟨program, budget, rfl, h⟩, ?_⟩
        rintro (h | ⟨program', budget', heq, hlate⟩)
        · exact absurd h hm
        · cases heq
          exact hlate

/-- Driving a machine leads to a conflict exactly when there was one before, or when one of the actions
is a run that halts late. -/
theorem conflicted_drive_iff (m : Machine) (actions : List Action) :
    (m.drive actions).Conflicted ↔
      m.Conflicted ∨ ∃ before program budget after,
        actions = before ++ .run program budget :: after ∧
          (m.drive before).HaltsLate program budget := by
  induction actions generalizing m with
  | nil => simp
  | cons action actions ih =>
      rw [drive_cons, ih, conflicted_act_iff]
      constructor
      · rintro ((hm | ⟨program, budget, rfl, hlate⟩) | ⟨before, program, budget, after, rfl, hlate⟩)
        · exact Or.inl hm
        · exact Or.inr ⟨[], program, budget, actions, rfl, hlate⟩
        · exact Or.inr ⟨action :: before, program, budget, after, rfl, hlate⟩
      · rintro (hm | ⟨before, program, budget, after, hactions, hlate⟩)
        · exact Or.inl (Or.inl hm)
        · -- the run that halts late is the first action, or one of the others
          cases before with
          | nil =>
              cases hactions
              exact Or.inl (Or.inr ⟨program, budget, rfl, hlate⟩)
          | cons first before =>
              cases hactions
              exact Or.inr ⟨before, program, budget, after, rfl, hlate⟩

/-- A conflict that was not there from the start reports an exceeded budget. -/
theorem fault_of_conflicted_drive (hm : ¬ m.Conflicted) {actions : List Action}
    (h : (m.drive actions).Conflicted) : (m.drive actions).fault = some .budgetExceeded := by
  rcases (conflicted_drive_iff m actions).1 h with hstart | ⟨before, program, budget, after, rfl, hlate⟩
  · exact absurd hstart hm
  · -- the run that halts late ends the machine, so the actions after it leave the fault alone
    have hlast : (m.drive before).act (.run program budget) =
        { (m.drive before).step program with fault := some .budgetExceeded } := hlate.run_eq
    have hterminal : ((m.drive before).act (.run program budget)).isTerminal = true := by
      rw [hlast]
      exact isTerminal_of_fault (Option.some_ne_none _)
    rw [drive_append, drive_cons, (drive_of_isTerminal hterminal after).2, hlast]

/-- **When a machine has halted and failed.** A machine that is set up, stepped and run in any way ends
up so exactly when one of the runs starts over its budget and halts at its first step, and the fault is
then that of the exceeded budget. A machine that failed without halting never halts. -/
theorem conflicted_drive_iff_haltsLate (actions : List Action) :
    ((fresh.drive actions).Conflicted ↔
      ∃ before program budget after, actions = before ++ .run program budget :: after ∧
        (fresh.drive before).HaltsLate program budget) ∧
    ((fresh.drive actions).Conflicted → (fresh.drive actions).fault = some .budgetExceeded) ∧
    ∀ m : Machine, m.fault ≠ none → m.halted = false → (m.drive actions).halted = false := by
  have hfresh : ¬ fresh.Conflicted := not_conflicted_of_goes isTerminal_fresh
  refine ⟨?_, fault_of_conflicted_drive hfresh, ?_⟩
  · rw [conflicted_drive_iff]
    simp [hfresh]
  · intro m hfault hhalted
    rw [(drive_of_isTerminal (isTerminal_of_fault hfault) actions).1, hhalted]

/-- A machine that failed on its empty stack does not halt, even when it is set up and run anew. -/
theorem halted_after_underflow :
    ({ fresh with fault := some .stackUnderflow }.drive
      [.setStack [1], .run (.ofInstructions [⟨some (.known .hlt), ["AX"], none⟩]) none]).halted =
        false :=
  (conflicted_drive_iff_haltsLate _).2.2 _ (Option.some_ne_none _) rfl

/-- A machine that has used a cycle, and that is then run without any budget, halts at the first step of
the run and fails all the same. -/
theorem conflicted_after_late_run :
    (fresh.drive [.step (.parse "MOV AX, 1\nHLT AX"),
      .run (.parse "MOV AX, 1\nHLT AX") (some 0)]).Conflicted :=
  ⟨by decide +kernel, by decide +kernel⟩

end Machine

end RegisterMachine
