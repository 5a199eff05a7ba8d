/-
# Solutions and their prices

A source text that halts with an output for the skill of a level wins this level with every budget that pays
for its cycles, and exceeds every other. For a straight line the price is what its assignments cost, and the
output is one number, computed in whole numbers and reduced once, as the law of an arithmetic skill reduces
it. So the usual solutions are right for all inputs, whether or not the machine wraps around on the way.

* `Level.SolvedFor` : a source text that wins for a price;
* `Level.solvedFor_of_wins` : a source text that halts with the right output does so;
* `Level.solvedFor_of_straightLine` : the price of a straight line;
* `Level.solvedFor_arithmetic` : the solutions of the five levels for a sum, a difference or a product.
-/
import RegisterMachine.Proofs.Level.Drivers
import RegisterMachine.Proofs.Level.Laws
import RegisterMachine.Proofs.Machine.StraightLine

namespace RegisterMachine

namespace Level

variable {level : Level} {source : String} {skill : Skill} {n price : Nat}

/-! ## Prices -/

/-- A source text solves a level for a price, whatever the budget of the level is. -/
structure SolvedFor (level : Level) (source : String) (skill : Skill) (price : Nat) : Prop where
  /-- It wins with the budgets from the price on. -/
  isSuccess_iff : ∀ budget : UInt64,
    ({ level with budget := budget }.attempt source).isSuccess = true ↔ price ≤ budget.toNat
  /-- It wins with the skill. -/
  success : ∀ budget : UInt64, ({ level with budget := budget }.attempt source).isSuccess = true →
    { level with budget := budget }.attempt source = .success skill
  /-- It exceeds all other budgets. -/
  budgetExceeded : ∀ budget : UInt64,
    ({ level with budget := budget }.attempt source).isSuccess = false →
      ∃ cycles, { level with budget := budget }.attempt source = .budgetExceeded cycles

namespace SolvedFor

theorem attempt_eq_success (h : level.SolvedFor source skill price) (budget : UInt64)
    (hle : price ≤ budget.toNat) :
    { level with budget := budget }.attempt source = .success skill :=
  h.success budget ((h.isSuccess_iff budget).2 hle)

theorem exists_attempt_eq (h : level.SolvedFor source skill price) (budget : UInt64)
    (hlt : budget.toNat < price) :
    ∃ cycles, { level with budget := budget }.attempt source = .budgetExceeded cycles := by
  apply h.budgetExceeded
  rw [← Bool.not_eq_true, h.isSuccess_iff]
  exact Nat.not_le.2 hlt

/-- A source text that wins from the price on, and exceeds the budget below it, solves a level. -/
theorem of_attempt_eq
    (hwins : ∀ budget : UInt64, price ≤ budget.toNat →
      { level with budget := budget }.attempt source = .success skill)
    (hexceeds : ∀ budget : UInt64, budget.toNat < price →
      ∃ cycles, { level with budget := budget }.attempt source = .budgetExceeded cycles) :
    level.SolvedFor source skill price := by
  have hiff : ∀ budget : UInt64,
      ({ level with budget := budget }.attempt source).isSuccess = true ↔ price ≤ budget.toNat := by
    intro budget
    rcases Nat.lt_or_ge budget.toNat price with hlt | hle
    · obtain ⟨cycles, hexceeded⟩ := hexceeds budget hlt
      rw [hexceeded]
      exact iff_of_false Bool.false_ne_true (Nat.not_le.2 hlt)
    · rw [hwins budget hle]
      exact iff_of_true rfl hle
  refine ⟨hiff, fun budget hsuccess => hwins budget ((hiff budget).1 hsuccess), ?_⟩
  intro budget hfailure
  apply hexceeds
  rwa [← Bool.not_eq_true, hiff, Nat.not_le] at hfailure

end SolvedFor

/-! ## Source texts that halt -/

/-- A run that comes to its end within the budget ends there. -/
theorem runSource_of_isTerminal (level : Level) (hn : n ≤ 10000)
    (hterminal : (level.reached source n).isTerminal = true)
    (hwithin : (level.reached source n).cycles ≤ level.budget) :
    level.machine.runSource source (some level.budget) = level.reached source n := by
  obtain ⟨k, hle, hends⟩ := exists_endsAt_of_isTerminal hn hterminal
  have hnot : ¬ level.budget < (level.reached source k).cycles := by
    rw [hends.over_iff hle hn]
    exact UInt64.not_lt.2 hwithin
  have hexceeds : ¬ (level.reached source k).exceeds (some level.budget) = true := by
    rwa [Machine.exceeds_iff, Machine.isOver_some_iff]
  rw [hends.reached_eq hle hnot, Machine.runSource,
    Machine.run_of_isFirstStop level.isTerminal_machine hends]
  exact if_neg hexceeds

/-- One that comes to its end over the budget exceeds it. -/
theorem exists_attempt_eq_budgetExceeded (hn : n ≤ 10000)
    (hterminal : (level.reached source n).isTerminal = true)
    (hover : level.budget < (level.reached source n).cycles) :
    ∃ cycles, level.attempt source = .budgetExceeded cycles := by
  obtain ⟨k, hle, hends⟩ := exists_endsAt_of_isTerminal hn hterminal
  exact ⟨_, hends.attempt_eq_budgetExceeded ((hends.over_iff hle hn).2 hover)⟩

/-- A machine that wins is terminal. -/
theorem Wins.isTerminal {last : Machine} (h : level.Wins last skill) : last.isTerminal = true := by
  rw [Machine.isTerminal, h.1, Bool.true_or]

/-- A source text that halts with the right output within the budget wins. -/
theorem attempt_of_wins (hn : n ≤ 10000) (hwins : level.Wins (level.reached source n) skill)
    (hwithin : (level.reached source n).cycles ≤ level.budget) :
    level.attempt source = .success skill := by
  rw [attempt, runSource_of_isTerminal level hn hwins.isTerminal hwithin,
    judge_of_none hwins.2.1 hwithin, hwins.judgeOutput_eq]

/-- **A source text that halts with the right output solves the level** for the cycles that it takes. -/
theorem solvedFor_of_wins (hn : n ≤ 10000) (hwins : level.Wins (level.reached source n) skill)
    (hprice : (level.reached source n).cycles.toNat = price) :
    level.SolvedFor source skill price := by
  -- the machines on the way do not depend on the budget
  apply SolvedFor.of_attempt_eq
  · intro budget hpaid
    have hwithin : (level.reached source n).cycles ≤ budget := by
      rwa [UInt64.le_iff_toNat_le, hprice]
    exact attempt_of_wins hn hwins hwithin
  · intro budget hshort
    have hover : budget < (level.reached source n).cycles := by
      rwa [UInt64.lt_iff_toNat_lt, hprice]
    exact exists_attempt_eq_budgetExceeded hn hwins.isTerminal hover

/-! ## Straight lines -/

open Assignment in
/-- A straight line halts after its assignments, with the value of its result. -/
theorem reached_straightLine {assignments : List Assignment} {result : Operand} (level : Level)
    (h : (Program.parse source).StraightLine assignments result) :
    level.reached source (assignments.length + 1) =
      { Machine.straight level.machine.registers assignments with
        output := [.ofInt (result.value (evaluate assignments level.machine.registers.numbers))]
        halted := true
        pc := assignments.length + 1 } := by
  have hlast := Machine.after_eq_straight h level.machine.registers le_rfl
  rw [List.take_length] at hlast
  rw [← Machine.step_straight h, ← hlast]
  rfl

open Assignment in
/-- **A straight line that computes what the law asks for** solves the level, for the cost of its
assignments. -/
theorem solvedFor_of_straightLine {assignments : List Assignment} {result : Operand}
    (h : (Program.parse source).StraightLine assignments result)
    (hlength : assignments.length ≤ 9999) (hname : level.skillName = skill.name)
    (hlaw : skill.Law [.ofInt (result.value (evaluate assignments level.machine.registers.numbers))]
      level.inputs) :
    level.SolvedFor source skill (cost assignments) := by
  have hreached := reached_straightLine level h
  refine solvedFor_of_wins (n := assignments.length + 1) (Nat.succ_le_succ hlength) ?_ ?_
  · rw [hreached]
    exact ⟨rfl, rfl, hname.symm, Skill.accepts_iff_law.2 hlaw⟩
  · rw [hreached]
    exact Machine.toNat_cycles_straight level.machine.registers hlength

/-! ## Arithmetic levels -/

/-- A number that is emitted is reduced. -/
theorem map_toInt_ofInt (n : Int) : [Int64.ofInt n].map Int64.toInt = [n.bmod (2 ^ 64)] :=
  congrArg ([·]) Int64.toInt_ofInt

/-- **The solutions of the arithmetic levels** are right for all inputs, and cost what their instructions
do. -/
theorem solvedFor_arithmetic (level : Level) :
    (level.skillName = "Add Beam" → level.SolvedFor "ADD AX, BX\nHLT AX" .addBeam 1) ∧
    (level.skillName = "Sub Strike" → level.SolvedFor "SUB AX, BX\nHLT AX" .subStrike 1) ∧
    (level.skillName = "Mul Cannon" → level.SolvedFor "MUL AX, BX\nHLT AX" .mulCannon 3) ∧
    (level.skillName = "Triple Double" →
      level.SolvedFor "MOV BX, AX\nADD AX, BX\nADD AX, BX\nHLT AX" .tripleDouble 3) ∧
    (level.skillName = "Square Nuke" →
      level.SolvedFor "MOV BX, AX\nMUL AX, BX\nHLT AX" .squareNuke 4) := by
  refine ⟨fun hname => ?_, fun hname => ?_, fun hname => ?_, fun hname => ?_, fun hname => ?_⟩
  · have hline : (Program.parse "ADD AX, BX\nHLT AX").StraightLine
        [⟨.add, .ax, .register .bx⟩] (.register .ax) := by decide +kernel
    exact solvedFor_of_straightLine hline (by decide) hname (map_toInt_ofInt _)
  · have hline : (Program.parse "SUB AX, BX\nHLT AX").StraightLine
        [⟨.sub, .ax, .register .bx⟩] (.register .ax) := by decide +kernel
    exact solvedFor_of_straightLine hline (by decide) hname (map_toInt_ofInt _)
  · have hline : (Program.parse "MUL AX, BX\nHLT AX").StraightLine
        [⟨.mul, .ax, .register .bx⟩] (.register .ax) := by decide +kernel
    exact solvedFor_of_straightLine hline (by decide) hname (map_toInt_ofInt _)
  · have hline : (Program.parse "MOV BX, AX\nADD AX, BX\nADD AX, BX\nHLT AX").StraightLine
        [⟨.mov, .bx, .register .ax⟩, ⟨.add, .ax, .register .bx⟩, ⟨.add, .ax, .register .bx⟩]
        (.register .ax) := by decide +kernel
    have htriple : 3 * level.inputs.a.toInt =
        level.inputs.a.toInt + level.inputs.a.toInt + level.inputs.a.toInt := by omega
    refine solvedFor_of_straightLine hline (by decide) hname ?_
    show _ = [(3 * level.inputs.a.toInt).bmod (2 ^ 64)]
    rw [htriple]
    exact map_toInt_ofInt _
  · have hline : (Program.parse "MOV BX, AX\nMUL AX, BX\nHLT AX").StraightLine
        [⟨.mov, .bx, .register .ax⟩, ⟨.mul, .ax, .register .bx⟩] (.register .ax) := by
      decide +kernel
    exact solvedFor_of_straightLine hline (by decide) hname (map_toInt_ofInt _)

/-- The greatest and the least word are among these inputs, where all five computations wrap around. -/
theorem solvedFor_arithmetic_at_limits :
    (⟨1, "Addition", "Add Beam", ⟨.maxValue, .maxValue⟩, 1, []⟩ : Level).attempt
      "ADD AX, BX\nHLT AX" = .success .addBeam ∧
    (⟨2, "Subtraction", "Sub Strike", ⟨.minValue, .maxValue⟩, 1, []⟩ : Level).attempt
      "SUB AX, BX\nHLT AX" = .success .subStrike ∧
    (⟨3, "Multiplication", "Mul Cannon", ⟨.minValue, .minValue⟩, 3, []⟩ : Level).attempt
      "MUL AX, BX\nHLT AX" = .success .mulCannon ∧
    (⟨8, "Triple", "Triple Double", ⟨.minValue, 0⟩, 3, []⟩ : Level).attempt
      "MOV BX, AX\nADD AX, BX\nADD AX, BX\nHLT AX" = .success .tripleDouble ∧
    (⟨10, "Square", "Square Nuke", ⟨.maxValue, 0⟩, 4, []⟩ : Level).attempt
      "MOV BX, AX\nMUL AX, BX\nHLT AX" = .success .squareNuke ∧
    ∃ cycles, (⟨10, "Square", "Square Nuke", ⟨.maxValue, 0⟩, 3, []⟩ : Level).attempt
      "MOV BX, AX\nMUL AX, BX\nHLT AX" = .budgetExceeded cycles := by
  obtain ⟨hadd, -⟩ := solvedFor_arithmetic ⟨1, "Addition", "Add Beam", ⟨.maxValue, .maxValue⟩, 1, []⟩
  obtain ⟨-, hsub, -⟩ :=
    solvedFor_arithmetic ⟨2, "Subtraction", "Sub Strike", ⟨.minValue, .maxValue⟩, 1, []⟩
  obtain ⟨-, -, hmul, -⟩ :=
    solvedFor_arithmetic ⟨3, "Multiplication", "Mul Cannon", ⟨.minValue, .minValue⟩, 3, []⟩
  obtain ⟨-, -, -, htriple, -⟩ :=
    solvedFor_arithmetic ⟨8, "Triple", "Triple Double", ⟨.minValue, 0⟩, 3, []⟩
  obtain ⟨-, -, -, -, hsquare⟩ :=
    solvedFor_arithmetic ⟨10, "Square", "Square Nuke", ⟨.maxValue, 0⟩, 4, []⟩
  refine ⟨?_, ?_, ?_, ?_, ?_, ?_⟩
  · exact (hadd rfl).attempt_eq_success 1 (by decide)
  · exact (hsub rfl).attempt_eq_success 1 (by decide)
  · exact (hmul rfl).attempt_eq_success 3 (by decide)
  · exact (htriple rfl).attempt_eq_success 3 (by decide)
  · exact (hsquare rfl).attempt_eq_success 4 (by decide)
  · exact (hsquare rfl).exists_attempt_eq 3 (by decide)

end Level

end RegisterMachine
