/-
# Comparing and branching

The steps by which a program goes round in a loop: a comparison sets the zero flag, and a jump is taken or
passed as the flag says.

* `Instruction.Compares`, `Instruction.BranchesTo` : what such an instruction names;
* `Machine.step_of_compares`, `Machine.step_of_jumps`, `Machine.step_of_passes` : what its step does;
* `Program.Guards`, `Machine.running` : two instructions that leave a loop, and a machine on its way to them;
* `Machine.after_guard_of_ne`, `Machine.after_guard_of_eq` : the loop goes on, or it is left and the machine halts;
* `Machine.after_of_turns` : the turns of a loop add up.
-/
import Mathlib.Algebra.Group.Int.Defs
import RegisterMachine.Proofs.Machine.StraightLine

namespace RegisterMachine

/-! ## Comparing with zero -/

/-- A number that is less than `2^64` away from zero is reduced to zero if it is zero. -/
theorem Word.ofInt_eq_zero_iff {n : Int} (hlow : -2 ^ 64 < n) (hhigh : n < 2 ^ 64) :
    Int64.ofInt n = 0 ↔ n = 0 := by
  constructor
  · intro h
    have hbmod : n.bmod Int64.size = 0 := by
      rw [← Int64.toInt_ofInt, h]
      rfl
    have hdvd : (2 ^ 64 : Int) ∣ n := Int.dvd_of_bmod_eq_zero hbmod
    omega
  · rintro rfl
    rfl

/-! ## Instructions -/

/-- An instruction that compares two operands. -/
structure Instruction.Compares (instruction : Instruction) (left right : Operand) : Prop where
  opcode : instruction.opcode = some (.known .cmp)
  left : instruction.operands[0]?.bind Operand.ofToken? = some left
  right : instruction.operands[1]?.bind Operand.ofToken? = some right

instance (instruction : Instruction) (left right : Operand) :
    Decidable (instruction.Compares left right) :=
  decidable_of_iff (_ ∧ _ ∧ _)
    ⟨fun h => ⟨h.1, h.2.1, h.2.2⟩, fun h => ⟨h.opcode, h.left, h.right⟩⟩

/-- An instruction that jumps to an index of a program, or passes. -/
structure Instruction.BranchesTo (instruction : Instruction) (program : Program)
    (operation : Operation) (index : Nat) : Prop where
  opcode : instruction.opcode = some (.known operation)
  label : instruction.operands[0]?.bind program.labelIndex? = some index

instance (instruction : Instruction) (program : Program) (operation : Operation) (index : Nat) :
    Decidable (instruction.BranchesTo program operation index) :=
  decidable_of_iff (_ ∧ _) ⟨fun h => ⟨h.1, h.2⟩, fun h => ⟨h.opcode, h.label⟩⟩

/-- Two instructions that leave a loop for an exit when a register is zero. -/
structure Program.Guards (program : Program) (place : Nat) (register : Register) (exit : Nat) :
    Prop where
  compare : ∃ instruction ∈ program.get? place,
    instruction.Compares (.register register) (.literal 0)
  leave : ∃ instruction ∈ program.get? (place + 1), instruction.BranchesTo program .je exit

instance (program : Program) (place : Nat) (register : Register) (exit : Nat) :
    Decidable (program.Guards place register exit) :=
  decidable_of_iff (_ ∧ _) ⟨fun h => ⟨h.1, h.2⟩, fun h => ⟨h.compare, h.leave⟩⟩

namespace Machine

variable {program : Program} {m : Machine} {instruction : Instruction} {left right : Operand}
  {operation : Operation} {index : Nat}

/-- The index to which a label leads is the least that carries it. -/
theorem isLeast_carriers_of_labelIndex? {label : String}
    (h : program.labelIndex? label = some index) : IsLeast (carriers program label) index := by
  rcases isLeast_carriers_or_forall_notMem program label with ⟨other, hleast⟩ | hnone
  · obtain rfl : other = index := Option.some.inj ((labelIndex?_of_isLeast hleast).symm.trans h)
    exact hleast
  · rw [labelIndex?_of_forall_notMem hnone] at h
    cases h

/-! ## Steps -/

/-- A comparison sets the zero flag. -/
theorem step_of_compares (h : instruction.Compares left right) (hm : m.isTerminal = false)
    (hget : program.get? m.pc = some instruction) :
    m.step program =
      { m with
        zero := decide (left.word m.registers = right.word m.registers), pc := m.pc + 1,
        cycles := m.cycles + 1 } :=
  step_of_execute_ok hm (executes_iff.1 (.known hget h.opcode
    (.compared (readable_of_ofToken? _ m.registers h.left)
      (readable_of_ofToken? _ m.registers h.right))))

/-- A jump that is taken goes to the index of its label. -/
theorem step_of_jumps (h : instruction.BranchesTo program operation index)
    (hop : Jumps operation m.zero) (hm : m.isTerminal = false)
    (hget : program.get? m.pc = some instruction) :
    m.step program = { m with pc := index, cycles := m.cycles + 1 } := by
  obtain ⟨label, hlabel, hindex⟩ := Option.bind_eq_some_iff.1 h.label
  exact step_of_execute_ok hm (executes_iff.1 (.known hget h.opcode
    (.jumped hop (.found hlabel (isLeast_carriers_of_labelIndex? hindex)))))

/-- A jump that is not taken passes on to the next instruction. -/
theorem step_of_passes (h : instruction.BranchesTo program operation index)
    (hop : Passes operation m.zero) (hm : m.isTerminal = false)
    (hget : program.get? m.pc = some instruction) :
    m.step program = { m with pc := m.pc + 1, cycles := m.cycles + 1 } :=
  step_of_execute_ok hm (executes_iff.1 (.known hget h.opcode (.passed hop)))

/-! ## Machines on their way -/

section

variable {values : Register → Int} {pc cycles exit : Nat} {register : Register}

/-- A machine on its way from a fresh one. Its zero flag is cleared: no comparison has found equal words. -/
def running (values : Register → Int) (pc cycles : Nat) : Machine :=
  { fresh with registers := .reduce values, pc := pc, cycles := .ofNat cycles }

theorem step_running_of_assigns {assignment : Assignment}
    (hget : program.get? pc = some instruction) (h : instruction.Assigns assignment) :
    (running values pc cycles).step program =
      running (assignment.assign values) (pc + 1) (cycles + assignment.arithmetic.cost) := by
  rw [step_of_assigns h rfl hget rfl, running, running, UInt64.ofNat_add]

theorem step_running_of_jmp (hget : program.get? pc = some instruction)
    (h : instruction.BranchesTo program .jmp index) :
    (running values pc cycles).step program = running values index (cycles + 1) := by
  rw [step_of_jumps h (.jmp _) rfl hget, running, running, UInt64.ofNat_add]
  rfl

/-- The comparison of a guard. -/
theorem step_guard (h : program.Guards pc register exit) :
    (running values pc cycles).step program =
      { running values (pc + 1) (cycles + 1) with zero := decide (Int64.ofInt (values register) = 0) } := by
  obtain ⟨cmp, hcmp, hcompares⟩ := h.compare
  rw [step_of_compares hcompares rfl hcmp, running, running, UInt64.ofNat_add]
  simp only [Operand.word, Registers.get_reduce]
  rfl

/-- A guard lets a machine go on whose register is not zero. -/
theorem after_guard_of_ne (h : program.Guards pc register exit)
    (hne : Int64.ofInt (values register) ≠ 0) :
    (running values pc cycles).after program 2 = running values (pc + 2) (cycles + 2) := by
  obtain ⟨je, hje, hbranches⟩ := h.leave
  rw [after_succ', step_guard h, decide_eq_false hne, after_succ',
    step_of_passes hbranches .je rfl hje, after_zero, running, running, UInt64.ofNat_add _ 1,
    UInt64.ofNat_add _ 2, UInt64.add_assoc]
  rfl

/-- It leads one whose register is zero to its exit, where it halts. -/
theorem after_guard_of_eq {result : Operand} (h : program.Guards pc register exit)
    (hexit : ∃ instruction ∈ program.get? exit, instruction.Returns result)
    (heq : Int64.ofInt (values register) = 0) :
    (running values pc cycles).after program 3 =
      { running values (exit + 1) (cycles + 2) with
        zero := true, output := [.ofInt (result.value values)], halted := true } := by
  obtain ⟨je, hje, hbranches⟩ := h.leave
  obtain ⟨hlt, hhlt, hreturns⟩ := hexit
  rw [after_succ', step_guard h, decide_eq_true heq, after_succ', step_of_jumps hbranches .je rfl hje,
    after_succ', step_of_returns hreturns rfl hhlt, after_zero, running, running,
    UInt64.ofNat_add _ 1, UInt64.ofNat_add _ 2, UInt64.add_assoc, Registers.word_reduce]
  rfl

end

/-! ## Turns of a loop -/

/-- Turns that take the same number of steps add up. -/
theorem after_of_turns {turn : Nat → Machine} {length count : Nat}
    (h : ∀ k < count, (turn k).after program length = turn (k + 1)) :
    (turn 0).after program (length * count) = turn count := by
  induction count with
  | zero => rfl
  | succ count ih =>
      have hbefore := ih fun k hk => h k (Nat.lt_succ_of_lt hk)
      rw [Nat.mul_succ, after_add, hbefore, h count (Nat.lt_succ_self count)]

end Machine

end RegisterMachine
