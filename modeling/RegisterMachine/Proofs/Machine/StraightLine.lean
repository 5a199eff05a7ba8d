/-
# Straight lines

A program without jumps that computes in registers and then halts: what it emits is the value of a few
expressions in whole numbers. The machine reduces modulo `2^64` after every instruction, but reducing once,
at the end, comes to the same, since sums, differences and products respect the reduction.

* `Arithmetic`, `Assignment` : the operations that compute, and what an instruction assigns;
* `Assignment.evaluate`, `Assignment.cost` : assignments one after the other in whole numbers, and the cycles
  that they take;
* `Arithmetic.bmod_apply`, `Registers.replaces_reduce` : an assignment may be reduced before it or after it;
* `Machine.straight`, `Machine.after_eq_straight` : the machine after a number of assignments;
* `Machine.run_straightLine` : the two ways in which a run with a budget ends.
-/
import Mathlib.Algebra.GroupWithZero.Nat
import Mathlib.Logic.Function.Basic
import RegisterMachine.Proofs.Machine.Runner
import RegisterMachine.Proofs.Machine.Semantics

namespace RegisterMachine

/-! ## Assignments -/

/-- The operations that compute. -/
inductive Arithmetic
  | mov
  | add
  | sub
  | mul
  deriving DecidableEq, Repr

namespace Arithmetic

/-- The operation of the machine. -/
def operation : Arithmetic → Operation
  | mov => .mov
  | add => .add
  | sub => .sub
  | mul => .mul

/-- What becomes of the number in the destination and of the source, in whole numbers. -/
def apply : Arithmetic → Int → Int → Int
  | mov => fun _ source => source
  | add => fun target source => target + source
  | sub => fun target source => target - source
  | mul => fun target source => target * source

/-- The cycles that an operation takes. -/
def cost : Arithmetic → Nat
  | mul => 3
  | _ => 1

theorem cost_le_three (arithmetic : Arithmetic) : arithmetic.cost ≤ 3 := by
  cases arithmetic <;> decide

/-- The machine computes these functions, for this price. -/
theorem computes (arithmetic : Arithmetic) :
    Machine.Computes arithmetic.operation arithmetic.apply (UInt64.ofNat arithmetic.cost) := by
  cases arithmetic with
  | mov => exact .mov
  | add => exact .add
  | sub => exact .sub
  | mul => exact .mul

/-- Numbers may be reduced before an operation if its result is reduced. -/
theorem bmod_apply (arithmetic : Arithmetic) (target source : Int) (modulus : Nat) :
    (arithmetic.apply (target.bmod modulus) (source.bmod modulus)).bmod modulus =
      (arithmetic.apply target source).bmod modulus := by
  cases arithmetic with
  | mov => exact Int.bmod_bmod
  | add => exact (Int.add_bmod target source modulus).symm
  | sub => exact (Int.sub_bmod target source modulus).symm
  | mul => exact (Int.mul_bmod target source modulus).symm

end Arithmetic

/-- What an instruction does that computes: an operation on a register and a source. -/
structure Assignment where
  arithmetic : Arithmetic
  target : Register
  source : Operand
  deriving DecidableEq, Repr

/-- The number that an operand stands for, where registers hold whole numbers. -/
def Operand.value (values : Register → Int) : Operand → Int
  | register named => values named
  | literal word => word.toInt

namespace Assignment

/-- The numbers in the registers after an assignment. -/
def assign (values : Register → Int) (assignment : Assignment) : Register → Int :=
  Function.update values assignment.target
    (assignment.arithmetic.apply (values assignment.target) (assignment.source.value values))

/-- The numbers in the registers after assignments one after the other. Nothing is reduced. -/
def evaluate (assignments : List Assignment) (values : Register → Int) : Register → Int :=
  assignments.foldl assign values

/-- The cycles that assignments take. -/
def cost (assignments : List Assignment) : Nat :=
  (assignments.map fun assignment => assignment.arithmetic.cost).sum

theorem evaluate_concat (assignments : List Assignment) (last : Assignment)
    (values : Register → Int) :
    evaluate (assignments ++ [last]) values = last.assign (evaluate assignments values) :=
  List.foldl_concat ..

theorem cost_append (first second : List Assignment) :
    cost (first ++ second) = cost first + cost second := by
  rw [cost, List.map_append, List.sum_append, cost, cost]

/-- The first few assignments cost no more than all of them. -/
theorem cost_take_le (assignments : List Assignment) (count : Nat) :
    cost (assignments.take count) ≤ cost assignments := by
  calc cost (assignments.take count)
      ≤ cost (assignments.take count) + cost (assignments.drop count) := Nat.le_add_right _ _
    _ = cost (assignments.take count ++ assignments.drop count) := (cost_append _ _).symm
    _ = cost assignments := by rw [List.take_append_drop]

/-- An assignment takes three cycles at most. -/
theorem cost_le (assignments : List Assignment) : cost assignments ≤ 3 * assignments.length := by
  induction assignments with
  | nil => exact Nat.le_refl 0
  | cons first rest ih =>
      have hfirst := first.arithmetic.cost_le_three
      have hcons : cost (first :: rest) = first.arithmetic.cost + cost rest := rfl
      rw [hcons, List.length_cons]
      omega

end Assignment

/-! ## Reduction -/

namespace Registers

/-- The words of a register file as whole numbers. -/
def numbers (registers : Registers) (register : Register) : Int :=
  (registers.get register).toInt

/-- The register file that holds whole numbers modulo `2^64`. -/
def reduce (values : Register → Int) : Registers where
  ax := .ofInt (values .ax)
  bx := .ofInt (values .bx)
  cx := .ofInt (values .cx)
  dx := .ofInt (values .dx)
  sp := .ofInt (values .sp)

@[simp] theorem get_reduce (values : Register → Int) (register : Register) :
    (reduce values).get register = .ofInt (values register) := by
  cases register <;> rfl

/-- Words are their own remainders. -/
@[simp] theorem reduce_numbers (registers : Registers) : reduce registers.numbers = registers := by
  apply ext_get
  intro register
  rw [get_reduce, numbers, Int64.ofInt_toInt]

/-- An operand has the value of its word, reduced. -/
theorem word_reduce (operand : Operand) (values : Register → Int) :
    operand.word (reduce values) = .ofInt (operand.value values) := by
  cases operand with
  | register named => exact get_reduce values named
  | literal word => exact (Int64.ofInt_toInt word).symm

open Machine in
/-- The registers after an assignment, reduced, hold the result in its target and else what they held. -/
theorem replaces_reduce (values : Register → Int) (assignment : Assignment) :
    Replaces (reduce values) assignment.target
      (.ofInt (assignment.arithmetic.apply (values assignment.target)
        (assignment.source.value values)))
      (reduce (assignment.assign values)) where
  get_self := by rw [get_reduce, Assignment.assign, Function.update_self]
  get_other := by
    intro other hother
    rw [get_reduce, get_reduce, Assignment.assign, Function.update_of_ne hother]

end Registers

/-! ## Straight lines of instructions -/

/-- An instruction that makes an assignment. -/
structure Instruction.Assigns (instruction : Instruction) (assignment : Assignment) : Prop where
  opcode : instruction.opcode = some (.known assignment.arithmetic.operation)
  target : instruction.operands[0]? = some assignment.target.name
  source : instruction.operands[1]?.bind Operand.ofToken? = some assignment.source

instance (instruction : Instruction) (assignment : Assignment) :
    Decidable (instruction.Assigns assignment) :=
  decidable_of_iff (_ ∧ _ ∧ _)
    ⟨fun h => ⟨h.1, h.2.1, h.2.2⟩, fun h => ⟨h.opcode, h.target, h.source⟩⟩

/-- An instruction that halts with the word of an operand. -/
structure Instruction.Returns (instruction : Instruction) (result : Operand) : Prop where
  opcode : instruction.opcode = some (.known .hlt)
  result : instruction.operands[0]?.bind Operand.ofToken? = some result

instance (instruction : Instruction) (result : Operand) : Decidable (instruction.Returns result) :=
  decidable_of_iff (_ ∧ _) ⟨fun h => ⟨h.1, h.2⟩, fun h => ⟨h.opcode, h.result⟩⟩

/-- A program that makes assignments, from its first instruction on, and then halts with the word of an
operand. -/
structure Program.StraightLine (program : Program) (assignments : List Assignment)
    (result : Operand) : Prop where
  assigns : ∀ (index : Nat) (h : index < assignments.length),
    ∃ instruction ∈ program.get? index, instruction.Assigns assignments[index]
  returns : ∃ instruction ∈ program.get? assignments.length, instruction.Returns result

instance (program : Program) (assignments : List Assignment) (result : Operand) :
    Decidable (program.StraightLine assignments result) :=
  decidable_of_iff (_ ∧ _) ⟨fun h => ⟨h.1, h.2⟩, fun h => ⟨h.assigns, h.returns⟩⟩

namespace Machine

open Assignment

variable {program : Program} {m : Machine} {instruction : Instruction} {values : Register → Int}
  {registers : Registers} {assignment : Assignment} {assignments : List Assignment}
  {result : Operand} {budget : UInt64}

/-- An operand that is read is readable. -/
theorem readable_of_ofToken? {operands : List String} {place : Nat} {operand : Operand}
    (operation : Operation) (registers : Registers)
    (h : operands[place]?.bind Operand.ofToken? = some operand) :
    Readable registers operation operands place (.ok (operand.word registers)) := by
  obtain ⟨token, htoken, hoperand⟩ := Option.bind_eq_some_iff.1 h
  have hread : registers.read token = .ok (operand.word registers) := by
    rw [Registers.read, hoperand]
  exact .found htoken (denotes_of_read_eq hread)

/-- A step of a machine whose registers are reduced makes the assignment and reduces again. -/
theorem step_of_assigns (h : instruction.Assigns assignment) (hm : m.isTerminal = false)
    (hget : program.get? m.pc = some instruction) (hregisters : m.registers = .reduce values) :
    m.step program =
      { m with
        registers := .reduce (assignment.assign values), pc := m.pc + 1,
        cycles := m.cycles + UInt64.ofNat assignment.arithmetic.cost } := by
  have hresult : (Int64.ofInt (assignment.arithmetic.apply (values assignment.target)
      (assignment.source.value values))).toInt =
        (assignment.arithmetic.apply (m.registers.get assignment.target).toInt
          (assignment.source.word m.registers).toInt).bmod Int64.size := by
    rw [hregisters, Registers.get_reduce, Registers.word_reduce, Int64.toInt_ofInt,
      Int64.toInt_ofInt, Int64.toInt_ofInt, Arithmetic.bmod_apply]
  have hset := Registers.replaces_reduce values assignment
  rw [← hregisters] at hset
  exact step_of_execute_ok hm (executes_iff.1 (.known hget h.opcode
    (.computed assignment.arithmetic.computes (.found h.target)
      (readable_of_ofToken? _ m.registers h.source) hresult hset)))

/-- A step that halts emits the word of its operand. -/
theorem step_of_returns (h : instruction.Returns result) (hm : m.isTerminal = false)
    (hget : program.get? m.pc = some instruction) :
    m.step program =
      { m with
        output := m.output ++ [result.word m.registers], halted := true, pc := m.pc + 1 } :=
  step_of_execute_ok hm (executes_iff.1 (.known hget h.opcode
    (.halted (readable_of_ofToken? _ m.registers h.result))))

/-! ## Machines on a straight line -/

/-- The machine after assignments, from a fresh machine with the given registers. -/
def straight (registers : Registers) (assignments : List Assignment) : Machine :=
  { fresh with
    registers := .reduce (evaluate assignments registers.numbers)
    pc := assignments.length
    cycles := .ofNat (cost assignments) }

/-- The cycles of a straight line that is not too long do not wrap around. -/
theorem toNat_cycles_straight (registers : Registers) (h : assignments.length ≤ 9999) :
    (straight registers assignments).cycles.toNat = cost assignments := by
  have hcost := cost_le assignments
  apply UInt64.toNat_ofNat_of_lt'
  rw [UInt64.size]
  omega

/-- Such a machine stops a run when the assignments cost more than the budget. -/
theorem stops_straight_iff (registers : Registers) (h : assignments.length ≤ 9999) :
    (straight registers assignments).Stops (some budget) ↔ budget.toNat < cost assignments := by
  have hgoes : (straight registers assignments).isTerminal = false := rfl
  rw [Stops, hgoes, isOver_some_iff, UInt64.lt_iff_toNat_lt, toNat_cycles_straight registers h]
  simp only [Bool.false_eq_true, false_or]

/-- **The machine after a number of steps** along a straight line. -/
theorem after_eq_straight (h : program.StraightLine assignments result) (registers : Registers)
    {count : Nat} (hcount : count ≤ assignments.length) :
    after { fresh with registers } program count = straight registers (assignments.take count) := by
  induction count with
  | zero =>
      have hstart : straight registers [] = { fresh with registers } := by
        rw [straight, evaluate, List.foldl_nil, Registers.reduce_numbers]
        rfl
      rw [List.take_zero, hstart, after_zero]
  | succ count ih =>
      obtain ⟨instruction, hget, hassigns⟩ := h.assigns count hcount
      have hlength : (assignments.take count).length = count :=
        List.length_take_of_le (Nat.le_of_succ_le hcount)
      have hplace : program.get? (straight registers (assignments.take count)).pc =
          some instruction := by
        rw [straight, hlength]
        exact hget
      rw [after_succ, ih (Nat.le_of_succ_le hcount), step_of_assigns hassigns rfl hplace rfl,
        List.take_succ_eq_append_getElem hcount, straight, straight, evaluate_concat, cost_append,
        List.length_append, UInt64.ofNat_add]
      rfl

/-- One step further, a machine that has made all assignments emits the result and has halted. -/
theorem step_straight (h : program.StraightLine assignments result) (registers : Registers) :
    (straight registers assignments).step program =
      { straight registers assignments with
        output := [.ofInt (result.value (evaluate assignments registers.numbers))]
        halted := true
        pc := assignments.length + 1 } := by
  obtain ⟨instruction, hget, hreturns⟩ := h.returns
  rw [step_of_returns hreturns rfl hget, straight, Registers.word_reduce]
  rfl

/-! ## Runs -/

/-- No machine on the way stops a run while the budget is kept. -/
theorem not_stops_after (h : program.StraightLine assignments result)
    (hlength : assignments.length ≤ 9999) (registers : Registers) {count : Nat}
    (hcount : count ≤ assignments.length)
    (hwithin : cost (assignments.take count) ≤ budget.toNat) :
    ¬ (after { fresh with registers } program count).Stops (some budget) := by
  have htake : (assignments.take count).length ≤ 9999 := (List.length_take_le' _ _).trans hlength
  rw [after_eq_straight h registers hcount, stops_straight_iff registers htake]
  exact Nat.not_lt.2 hwithin

/-- Within the budget, a run halts after all assignments. -/
theorem run_of_cost_le (h : program.StraightLine assignments result)
    (hlength : assignments.length ≤ 9999) (registers : Registers)
    (hwithin : cost assignments ≤ budget.toNat) :
    run { fresh with registers } program (some budget) =
      { straight registers assignments with
        output := [.ofInt (result.value (evaluate assignments registers.numbers))]
        halted := true
        pc := assignments.length + 1 } := by
  have hbefore : ∀ count, 1 ≤ count → count ≤ assignments.length →
      ¬ (after { fresh with registers } program count).Stops (some budget) := fun count _ hcount =>
    not_stops_after h hlength registers hcount ((cost_take_le assignments count).trans hwithin)
  have hlast := step_straight h registers
  have hafter : after { fresh with registers } program (assignments.length + 1) =
      (straight registers assignments).step program := by
    rw [after_succ, after_eq_straight h registers le_rfl, List.take_length]
  have hexceeds : (straight registers assignments).exceeds (some budget) = false := by
    refine (not_stops_iff.1 ?_).2
    rw [stops_straight_iff registers hlength]
    exact Nat.not_lt.2 hwithin
  have hlimit : assignments.length + 1 ≤ stepLimit := Nat.succ_le_succ hlength
  rw [run, runFor_of_first rfl hlimit hbefore, hafter, hlast, if_neg]
  · -- halting takes no cycles
    exact Bool.eq_false_iff.1 hexceeds
  · rw [hafter, hlast]
    exact .inl rfl

/-- Otherwise it fails at the first machine over the budget. -/
theorem run_of_isLeast (h : program.StraightLine assignments result)
    (hlength : assignments.length ≤ 9999) (registers : Registers) {count : Nat}
    (hcount : count ≤ assignments.length)
    (hleast : IsLeast {count | budget.toNat < cost (assignments.take count)} count) :
    run { fresh with registers } program (some budget) =
      { straight registers (assignments.take count) with fault := some .budgetExceeded } := by
  -- no cycles are used before the first assignment
  obtain ⟨count, rfl⟩ : ∃ before, count = before + 1 := by
    refine Nat.exists_eq_add_one.2 (Nat.pos_of_ne_zero ?_)
    rintro rfl
    exact Nat.not_lt_zero _ hleast.1
  have hbefore : ∀ earlier, 1 ≤ earlier → earlier ≤ count →
      ¬ (after { fresh with registers } program earlier).Stops (some budget) := by
    intro earlier _ hearlier
    refine not_stops_after h hlength registers (by omega) (Nat.not_lt.1 fun hover => ?_)
    have hle : count + 1 ≤ earlier := hleast.2 hover
    omega
  have htake : (assignments.take (count + 1)).length ≤ 9999 :=
    (List.length_take_le' _ _).trans hlength
  have hstops : (straight registers (assignments.take (count + 1))).Stops (some budget) :=
    (stops_straight_iff registers htake).2 hleast.1
  have hexceeds : (straight registers (assignments.take (count + 1))).exceeds (some budget) = true :=
    exceeds_iff.2 (hstops.resolve_left Bool.false_ne_true)
  have hafter := after_eq_straight h registers hcount
  have hlimit : count + 1 ≤ stepLimit := Nat.le_trans hcount (Nat.le_succ_of_le hlength)
  rw [run, runFor_of_first rfl hlimit hbefore (by rwa [hafter]), hafter, if_pos hexceeds,
    fail_of_none _ rfl]

/-- **A straight line computes its value.** From any registers, a run of at most 9999 assignments and a `HLT`
does one of two things. If the assignments cost no more than the budget, it halts with the value of the
operand of the `HLT`, computed in whole numbers and reduced once. If they cost more, it fails after the
first few that do, with the registers that these leave, and emits nothing. -/
theorem run_straightLine (h : program.StraightLine assignments result)
    (hlength : assignments.length ≤ 9999) (registers : Registers) (budget : UInt64) :
    let last := run { fresh with registers } program (some budget)
    (cost assignments ≤ budget.toNat →
      last.cycles.toNat = cost assignments ∧
        last =
          { fresh with
            registers := .reduce (evaluate assignments registers.numbers)
            output := [.ofInt (result.value (evaluate assignments registers.numbers))]
            halted := true
            pc := assignments.length + 1
            cycles := last.cycles }) ∧
    (budget.toNat < cost assignments →
      ∃ count, IsLeast {count | budget.toNat < cost (assignments.take count)} count ∧
        last.cycles.toNat = cost (assignments.take count) ∧
        last =
          { fresh with
            registers := .reduce (evaluate (assignments.take count) registers.numbers)
            fault := some .budgetExceeded
            pc := count
            cycles := last.cycles }) := by
  intro last
  constructor
  · intro hwithin
    have hrun : last = _ := run_of_cost_le h hlength registers hwithin
    rw [hrun]
    exact ⟨toNat_cycles_straight registers hlength, rfl⟩
  · intro hover
    have hexists : ∃ count, budget.toNat < cost (assignments.take count) :=
      ⟨assignments.length, by rwa [List.take_length]⟩
    have hcount : Nat.find hexists ≤ assignments.length :=
      Nat.find_min' hexists (by rwa [List.take_length])
    have htake : (assignments.take (Nat.find hexists)).length = Nat.find hexists :=
      List.length_take_of_le hcount
    have hrun : last = _ :=
      run_of_isLeast h hlength registers hcount (Nat.isLeast_find hexists)
    refine ⟨Nat.find hexists, Nat.isLeast_find hexists, ?_⟩
    rw [hrun]
    refine ⟨toNat_cycles_straight registers (by omega), ?_⟩
    rw [straight, htake]

/-- The square of the greatest word does not fit a word, and still comes out right: one, to which 16 is added
from `SP`. With a cycle less than the square takes, the run ends after it. -/
theorem run_straightLine_square :
    let program := Program.parse "MOV AX, 9223372036854775807\nMUL AX, AX\nADD AX, SP\nHLT AX"
    let assignments : List Assignment :=
      [⟨.mov, .ax, .literal .maxValue⟩, ⟨.mul, .ax, .register .ax⟩, ⟨.add, .ax, .register .sp⟩]
    program.StraightLine assignments (.register .ax) ∧ assignments.length ≤ 9999 ∧
      cost assignments = 5 ∧
      (run { fresh with registers := .initial } program (some 5)).output = [17] ∧
      (run { fresh with registers := .initial } program (some 3)).registers.ax = 1 ∧
      (run { fresh with registers := .initial } program (some 3)).fault = some .budgetExceeded := by
  intro program assignments
  have hline : program.StraightLine assignments (.register .ax) := by decide +kernel
  have hlength : assignments.length ≤ 9999 := by decide
  obtain ⟨-, hhalts⟩ := (run_straightLine hline hlength .initial 5).1 (by decide)
  obtain ⟨count, hleast, -, hfails⟩ := (run_straightLine hline hlength .initial 3).2 (by decide)
  have hbefore : ∀ earlier < 2, ¬ (3 : UInt64).toNat < cost (assignments.take earlier) := by decide
  have hcount : count = 2 := by
    have hle : count ≤ 2 := hleast.2 (by decide)
    have hge : 2 ≤ count := Nat.not_lt.1 fun hlt => hbefore count hlt hleast.1
    exact Nat.le_antisymm hle hge
  subst hcount
  rw [hhalts, hfails]
  exact ⟨hline, hlength, by decide, by decide +kernel, by decide +kernel, rfl⟩

end Machine

end RegisterMachine
