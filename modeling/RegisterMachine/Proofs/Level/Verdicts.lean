/-
# Verdicts and the runs behind them

What a verdict says about the run that was judged. A source text earns a verdict by where its run ends,
without any mention of how runs and verdicts are computed.

* `Level.reached` : the machine after some steps of a source text;
* `Level.EndsAt` : the number of steps after which the run of a source text ends;
* `Level.Earns` : the verdicts that a source text earns;
* `Level.earns_attempt`, `Level.Earns.attempt_eq` : the attempt gives a verdict that is earned, and the
  only one.

The three ways in which a run can end exclude each other, and the order in which the judge looks at
faults, cycles and output does not matter for this reason.
-/
import RegisterMachine.Level.Judge
import RegisterMachine.Proofs.Machine.Endings

namespace RegisterMachine

/-- A name and an output match the skill with this name, if the output obeys its law. -/
theorem Skill.match?_eq_some_iff {output : List Word} {inputs : Inputs} {name : String}
    {skill : Skill} :
    match? output inputs name = some skill ↔
      skill.name = name ∧ skill.accepts output inputs = true := by
  rw [match?, Option.filter_eq_some_iff, find?_eq_some_iff]

namespace Level

variable {level : Level} {source : String}

/-! ## Runs of a source text -/

/-- The machine after some steps of a source text, from the start of a level. -/
def reached (level : Level) (source : String) (count : Nat) : Machine :=
  level.machine.after (.parse source) count

/-- The run of a source text ends after this many steps, at the first machine from one to ten thousand
that is terminal or over the budget. -/
def EndsAt (level : Level) (source : String) (count : Nat) : Prop :=
  level.machine.IsFirstStop (.parse source) (some level.budget) count

/-- The machine at the start of a level does not stop a run: it has used no cycles. -/
theorem not_stops_machine (level : Level) : ¬ level.machine.Stops (some level.budget) :=
  Machine.not_stops_some_iff.2 ⟨rfl, rfl, UInt64.zero_le⟩

/-- A run that ends does so in one of the three ways. -/
theorem EndsAt.ends {n : Nat} (h : level.EndsAt source n) :
    Machine.Ends level.budget (level.reached source n) :=
  Machine.IsFirstStop.ends h level.not_stops_machine

/-! ## Verdicts that are earned -/

/-- A machine wins a level with a skill when it halted without a fault, and the skill has the name that
the level asks for and accepts the output. -/
def Wins (level : Level) (last : Machine) (skill : Skill) : Prop :=
  last.halted = true ∧ last.fault = none ∧ skill.name = level.skillName ∧
    skill.accepts last.output level.inputs = true

/-- The verdicts that a source text earns. -/
inductive Earns (level : Level) (source : String) : Verdict → Prop
  /-- The run does not end. -/
  | stalled (h : ¬ ∃ n, level.EndsAt source n) : Earns level source .stalled
  /-- The run ends over the budget. -/
  | budgetExceeded {n : Nat} (h : level.EndsAt source n)
      (hover : level.budget < (level.reached source n).cycles) :
      Earns level source (.budgetExceeded (level.reached source n).cycles)
  /-- The run ends with a fault. -/
  | runtimeError {n : Nat} {fault : Fault} (h : level.EndsAt source n)
      (hfault : (level.reached source n).fault = some fault) :
      Earns level source (.runtimeError fault)
  /-- The run ends with an output that wins the level. -/
  | success {n : Nat} {skill : Skill} (h : level.EndsAt source n)
      (hwins : level.Wins (level.reached source n) skill) : Earns level source (.success skill)
  /-- The run ends in any other way. -/
  | wrongAnswer {n : Nat} (h : level.EndsAt source n)
      (hwithin : ¬ level.budget < (level.reached source n).cycles)
      (hfault : (level.reached source n).fault = none)
      (hloses : ∀ skill, ¬ level.Wins (level.reached source n) skill) :
      Earns level source (.wrongAnswer (level.reached source n).output)

/-! ## Judging the end of a run -/

/-- A fault decides the verdict. Only the end of the budget is told apart from the others. -/
theorem judge_of_fault {last : Machine} {fault : Fault} (h : last.fault = some fault)
    (hne : fault ≠ .budgetExceeded) : level.judge last = .runtimeError fault := by
  rw [judge, h]
  cases fault with
  | budgetExceeded => exact absurd rfl hne
  | _ => rfl

/-- A machine within the budget that has no fault is judged by its output. -/
theorem judge_of_none {last : Machine} (hfault : last.fault = none)
    (hwithin : last.cycles ≤ level.budget) : level.judge last = level.judgeOutput last := by
  have hexceeds : last.exceeds (some level.budget) = false := by
    rw [← Bool.not_eq_true, Machine.exceeds_iff, Machine.isOver_some_iff, UInt64.not_lt]
    exact hwithin
  rw [judge, hfault]
  show (if last.exceeds (some level.budget) then _ else _) = _
  rw [hexceeds]
  rfl

/-- A run that ends within the budget is judged by its last machine. -/
theorem EndsAt.attempt_eq_judge {n : Nat} (h : level.EndsAt source n)
    (hwithin : (level.reached source n).cycles ≤ level.budget) :
    level.attempt source = level.judge (level.reached source n) := by
  have hexceeds : ¬ (level.reached source n).exceeds (some level.budget) = true := by
    rw [Machine.exceeds_iff, Machine.isOver_some_iff, UInt64.not_lt]
    exact hwithin
  rw [attempt, Machine.runSource, Machine.run_of_isFirstStop level.isTerminal_machine h]
  exact congrArg level.judge (if_neg hexceeds)

/-- A run that ends over the budget exceeds it. -/
theorem EndsAt.attempt_eq_budgetExceeded {n : Nat} (h : level.EndsAt source n)
    (hover : level.budget < (level.reached source n).cycles) :
    level.attempt source = .budgetExceeded (level.reached source n).cycles := by
  have hexceeds : (level.reached source n).exceeds (some level.budget) = true :=
    Machine.exceeds_iff.2 (Machine.isOver_some_iff.2 hover)
  have hfault : (level.reached source n).fault = none := (h.ends.of_over hover).2.2
  rw [attempt, Machine.runSource, Machine.run_of_isFirstStop level.isTerminal_machine h]
  -- the run writes the fault that the judge reads
  refine (congrArg level.judge (if_pos hexceeds)).trans ?_
  rw [← reached, Machine.fail_of_none _ hfault]
  rfl

/-- A run that does not end is stalled after ten thousand steps. -/
theorem attempt_eq_stalled (h : ¬ ∃ n, level.EndsAt source n) :
    level.attempt source = .stalled := by
  have hnone : ¬ ∃ k ∈ Set.Icc 1 10000,
      (level.reached source k).Stops (some level.budget) :=
    fun hsome => h (Machine.exists_isFirstStop hsome)
  have hlast : ¬ (level.reached source 10000).Stops (some level.budget) :=
    fun hstops => hnone ⟨10000, ⟨by omega, le_rfl⟩, hstops⟩
  obtain ⟨hhalted, hfault, hwithin⟩ := Machine.not_stops_some_iff.1 hlast
  rw [attempt, Machine.runSource,
    (Machine.run_of_forall_not level.isTerminal_machine hnone).1, ← reached,
    judge_of_none hfault hwithin, judgeOutput, hhalted]
  rfl

/-! ## The attempt gives the verdict that is earned -/

/-- An output that wins with a skill is judged so. -/
theorem Wins.judgeOutput_eq {last : Machine} {skill : Skill} (h : level.Wins last skill) :
    level.judgeOutput last = .success skill := by
  obtain ⟨hhalted, -, hname, haccepts⟩ := h
  rw [judgeOutput, if_pos hhalted, Skill.match?_eq_some_iff.2 ⟨hname, haccepts⟩]

/-- An output that wins with no skill is wrong. -/
theorem judgeOutput_eq_wrongAnswer {last : Machine} (hhalted : last.halted = true)
    (hfault : last.fault = none) (hloses : ∀ skill, ¬ level.Wins last skill) :
    level.judgeOutput last = .wrongAnswer last.output := by
  have hnone : Skill.match? last.output level.inputs level.skillName = none := by
    rw [Option.eq_none_iff_forall_ne_some]
    intro skill hsome
    obtain ⟨hname, haccepts⟩ := Skill.match?_eq_some_iff.1 hsome
    exact hloses skill ⟨hhalted, hfault, hname, haccepts⟩
  rw [judgeOutput, if_pos hhalted, hnone]

/-- A verdict that is earned is the one of the attempt. -/
theorem Earns.attempt_eq {verdict : Verdict} (h : level.Earns source verdict) :
    level.attempt source = verdict := by
  cases h with
  | stalled h => exact attempt_eq_stalled h
  | budgetExceeded h hover => exact h.attempt_eq_budgetExceeded hover
  | runtimeError h hfault =>
      obtain ⟨hne, hwithin⟩ := h.ends.of_fault hfault
      rw [h.attempt_eq_judge hwithin, judge_of_fault hfault hne]
  | success h hwins =>
      have hwithin := h.ends.of_halted hwins.1
      rw [h.attempt_eq_judge hwithin, judge_of_none hwins.2.1 hwithin, hwins.judgeOutput_eq]
  | wrongAnswer h hwithin hfault hloses =>
      have hwithin := UInt64.not_lt.1 hwithin
      have hhalted := h.ends.halted_of_none hfault hwithin
      rw [h.attempt_eq_judge hwithin, judge_of_none hfault hwithin,
        judgeOutput_eq_wrongAnswer hhalted hfault hloses]

/-- Every source text earns a verdict. -/
theorem exists_earns (level : Level) (source : String) : ∃ verdict, level.Earns source verdict := by
  by_cases hend : ∃ n, level.EndsAt source n
  · obtain ⟨n, hn⟩ := hend
    by_cases hover : level.budget < (level.reached source n).cycles
    · exact ⟨_, .budgetExceeded hn hover⟩
    · cases hfault : (level.reached source n).fault with
      | some fault => exact ⟨_, .runtimeError hn hfault⟩
      | none =>
          by_cases hwins : ∃ skill, level.Wins (level.reached source n) skill
          · obtain ⟨skill, hwins⟩ := hwins
            exact ⟨_, .success hn hwins⟩
          · exact ⟨_, .wrongAnswer hn hover hfault fun skill h => hwins ⟨skill, h⟩⟩
  · exact ⟨_, .stalled hend⟩

/-- **An attempt gives the verdict that is earned.** There is one such verdict for every source text.
Where the budget is exceeded, it is by three cycles at most, and the machine has not halted or failed;
where the machine failed, it did so within the budget and not by its end. -/
theorem attempt_eq_iff_earns (level : Level) (source : String) :
    (∀ verdict, level.attempt source = verdict ↔ level.Earns source verdict) ∧
    (∃! verdict, level.Earns source verdict) ∧
    ∀ n, level.EndsAt source n →
      (level.budget < (level.reached source n).cycles →
        (level.reached source n).cycles.toNat ≤ level.budget.toNat + 3 ∧
        (level.reached source n).halted = false ∧ (level.reached source n).fault = none) ∧
      (∀ fault, (level.reached source n).fault = some fault →
        fault ≠ .budgetExceeded ∧ (level.reached source n).cycles ≤ level.budget) := by
  obtain ⟨earned, hearned⟩ := exists_earns level source
  refine ⟨fun verdict => ⟨?_, Earns.attempt_eq⟩, ⟨earned, hearned, ?_⟩, ?_⟩
  · rintro rfl
    rw [hearned.attempt_eq]
    exact hearned
  · intro verdict h
    rw [← h.attempt_eq, hearned.attempt_eq]
  · intro n hn
    exact ⟨hn.ends.of_over, fun fault hfault => hn.ends.of_fault hfault⟩

/-- Without any budget, the first instruction that takes a cycle is one too many. -/
theorem attempt_without_budget :
    (⟨1, "Addition", "Add Beam", ⟨3, 4⟩, 0, []⟩ : Level).attempt "MOV AX, 1" =
      .budgetExceeded 1 := by
  let level : Level := ⟨1, "Addition", "Add Beam", ⟨3, 4⟩, 0, []⟩
  have hcycles : (level.reached "MOV AX, 1" 1).cycles = 1 := by decide
  have hover : level.budget < (level.reached "MOV AX, 1" 1).cycles := by decide
  have hends : level.EndsAt "MOV AX, 1" 1 :=
    ⟨⟨⟨le_rfl, by omega⟩, Or.inr ⟨0, rfl, hover⟩⟩, fun k hk => hk.1.1⟩
  rw [← hcycles]
  exact ((attempt_eq_iff_earns level "MOV AX, 1").1 _).2 (.budgetExceeded hends hover)

end Level

end RegisterMachine
