/-
# No machine comes back

Every step that does not fail moves a clock forward: it takes cycles, or it takes none and goes to the next
instruction. So as long as the counter of cycles has room, the machines along a sequence of steps are all
different up to the first terminal one, and a run that stays where it is has ended.

* `Machine.price`, `Machine.HasRoom` : the cycles of the next instruction, and room for them;
* `Machine.clock` : the cycles used and then the place in the program, in lexicographic order;
* `Machine.step_ne_self` : a step changes every machine that is not terminal;
* `Machine.clock_lt_step`, `Machine.clock_after_lt` : the clock after a step, and after a number of steps;
* `Machine.step_eq_self_iff_and_after_ne` : no machine comes back.

Without room the statement would fail: a jump to itself comes back after `2^64` steps.
-/
import Mathlib.Data.Prod.Lex
import RegisterMachine.Proofs.Machine.Moves
import RegisterMachine.Proofs.Machine.Runner

namespace RegisterMachine

namespace Machine

variable {program : Program} {m next : Machine}

/-! ## The price of an instruction -/

/-- The cycles that the next instruction takes if it succeeds. Only a known operation takes any. -/
def price (m : Machine) (program : Program) : UInt64 :=
  match (program.get? m.pc).bind Instruction.opcode with
  | some (.known operation) => operation.cost
  | _ => 0

/-- The counter of cycles has room for the next instruction. -/
def HasRoom (program : Program) (m : Machine) : Prop :=
  m.cycles.toNat + (m.price program).toNat < UInt64.size

instance (program : Program) (m : Machine) : Decidable (m.HasRoom program) :=
  inferInstanceAs (Decidable (_ < _))

theorem price_of_known {instruction : Instruction} {operation : Operation}
    (h : program.get? m.pc = some instruction)
    (hopcode : instruction.opcode = some (.known operation)) :
    m.price program = operation.cost := by
  rw [price, h, Option.bind_some, hopcode]

/-- No instruction takes more than three cycles. -/
theorem price_le_three (m : Machine) (program : Program) : m.price program ≤ 3 := by
  unfold price
  split
  · next operation _ => exact operation.cost_le_three
  · decide

/-- A counter that is more than three away from its end has room for any instruction. -/
theorem hasRoom_of_lt (program : Program) (h : m.cycles.toNat + 3 < UInt64.size) :
    m.HasRoom program := by
  have hprice : (m.price program).toNat ≤ 3 := UInt64.le_iff_toNat_le.1 (m.price_le_three program)
  unfold HasRoom
  omega

theorem Jumps.cost_eq {operation : Operation} {zero : Bool} (h : Jumps operation zero) :
    operation.cost = 1 := by
  cases h <;> rfl

theorem Passes.cost_eq {operation : Operation} {zero : Bool} (h : Passes operation zero) :
    operation.cost = 1 := by
  cases h <;> rfl

/-- An operation takes its cost, and one without a cost goes to the next instruction. -/
theorem Performs.cycles_eq_and_pc_eq {operation : Operation} {operands : List String}
    (h : Performs program m operation operands (.ok next)) :
    next.cycles = m.cycles + operation.cost ∧ (operation.cost = 0 → next.pc = m.pc + 1) := by
  cases h with
  | computed hop => cases hop <;> exact ⟨rfl, fun _ => rfl⟩
  | compared => exact ⟨rfl, fun _ => rfl⟩
  | jumped hop =>
      rw [hop.cost_eq]
      exact ⟨rfl, fun hfree => absurd hfree (by decide)⟩
  | passed hop =>
      rw [hop.cost_eq]
      exact ⟨rfl, fun _ => rfl⟩
  | pushed => exact ⟨rfl, fun _ => rfl⟩
  | popped => exact ⟨rfl, fun _ => rfl⟩
  | halted => exact ⟨(UInt64.add_zero _).symm, fun _ => rfl⟩

/-! ## The clock -/

/-- The cycles used, and then the place in the program. -/
def clock (m : Machine) : ℕ ×ₗ ℕ :=
  toLex (m.cycles.toNat, m.pc)

/-- An instruction that succeeds moves the clock forward. -/
theorem Executes.clock_lt (h : Executes program m (.ok next)) (hroom : m.HasRoom program) :
    m.clock < next.clock := by
  rw [clock, clock, Prod.Lex.toLex_lt_toLex]
  cases h with
  | bare => exact Or.inr ⟨rfl, Nat.lt_succ_self m.pc⟩
  | @known _ operation _ hget hopcode hperforms =>
      obtain ⟨hcycles, hpc⟩ := hperforms.cycles_eq_and_pc_eq
      rcases eq_or_ne operation.cost 0 with hfree | hcosts
      · rw [hfree, UInt64.add_zero] at hcycles
        refine Or.inr ⟨congrArg UInt64.toNat hcycles.symm, ?_⟩
        rw [hpc hfree]
        exact Nat.lt_succ_self m.pc
      · have hpos : 0 < operation.cost.toNat :=
          Nat.pos_of_ne_zero fun hzero => hcosts (UInt64.toNat_inj.1 hzero)
        rw [HasRoom, price_of_known hget hopcode] at hroom
        left
        show m.cycles.toNat < next.cycles.toNat
        rw [hcycles, UInt64.toNat_add, Nat.mod_eq_of_lt hroom]
        omega

/-- A step that does not fail moves the clock forward. -/
theorem clock_lt_step (hm : m.isTerminal = false) (hroom : m.HasRoom program)
    (hfault : (m.step program).fault = none) : m.clock < (m.step program).clock := by
  cases houtcome : m.execute program with
  | error fault =>
      rw [step_of_execute_error hm houtcome] at hfault
      cases hfault
  | ok next =>
      rw [step_of_execute_ok hm houtcome]
      exact (executes_iff.2 houtcome).clock_lt hroom

/-! ## Machines that stay as they are -/

/-- A step changes every machine that is not terminal. -/
theorem step_ne_self (hm : m.isTerminal = false) : m.step program ≠ m := by
  obtain ⟨hhalted, hfault⟩ := isTerminal_eq_false_iff.1 hm
  have hmoves : Moves program m (m.step program) := moves_step hm
  generalize m.step program = next at hmoves
  intro heq
  cases hmoves with
  | fails => exact Option.some_ne_none _ ((congrArg fault heq).trans hfault)
  | skips => exact Nat.succ_ne_self m.pc (congrArg pc heq)
  | halts => exact Bool.noConfusion ((congrArg halted heq).trans hhalted)
  | @works _ _ _ _ cost _ _ hlow =>
      -- even if the counter wraps around
      have hcycles : m.cycles + cost = m.cycles := congrArg cycles heq
      have hfree : cost = 0 := by simpa using hcycles
      rw [hfree] at hlow
      exact absurd hlow (by decide)

/-- A step leaves a machine as it is exactly when the machine is terminal. -/
theorem step_eq_self_iff : m.step program = m ↔ m.isTerminal = true := by
  constructor
  · intro h
    cases hm : m.isTerminal with
    | true => rfl
    | false => exact absurd h (step_ne_self hm)
  · exact step_of_isTerminal program

/-! ## Sequences of steps -/

/-- As long as no machine is terminal, each step moves the clock forward. -/
theorem clock_after_lt {i j : Nat} (hlt : i < j)
    (hgoes : ∀ k < j, (m.after program k).isTerminal = false ∧ (m.after program k).HasRoom program)
    (hfault : (m.after program j).fault = none) :
    (m.after program i).clock < (m.after program j).clock := by
  induction j with
  | zero => exact absurd hlt (Nat.not_lt_zero i)
  | succ j ih =>
      obtain ⟨hterminal, hroom⟩ := hgoes j (Nat.lt_succ_self j)
      have hlast : (m.after program j).clock < (m.after program (j + 1)).clock :=
        clock_lt_step hterminal hroom hfault
      rcases Nat.lt_succ_iff_lt_or_eq.1 hlt with hbefore | rfl
      · exact (ih hbefore (fun k hk => hgoes k (Nat.lt_succ_of_lt hk))
          (isTerminal_eq_false_iff.1 hterminal).2).trans hlast
      · exact hlast

/-- **No machine comes back.** A step leaves a machine as it is exactly when it is terminal. A step that does
not fail takes cycles, or takes none and goes to the next instruction. So in a sequence of steps no machine
occurs twice up to the first terminal one, as long as the counter of cycles has room. It has, for any
instruction, when it is more than three away from its end. -/
theorem step_eq_self_iff_and_after_ne (program : Program) (m : Machine) :
    (m.step program = m ↔ m.isTerminal = true) ∧
    (m.isTerminal = false → m.HasRoom program → (m.step program).fault = none →
      m.clock < (m.step program).clock) ∧
    (∀ i j, i < j →
      (∀ k < j, (m.after program k).isTerminal = false ∧ (m.after program k).HasRoom program) →
        m.after program i ≠ m.after program j) ∧
    (m.cycles.toNat + 3 < UInt64.size → m.HasRoom program) := by
  refine ⟨step_eq_self_iff, clock_lt_step, ?_, hasRoom_of_lt program⟩
  intro i j hlt hgoes heq
  rcases Option.eq_none_or_eq_some (m.after program j).fault with hfault | ⟨fault, hfault⟩
  · have hclock := clock_after_lt hlt hgoes hfault
    rw [heq] at hclock
    exact lt_irrefl _ hclock
  · -- the last step failed, and the machine before it had not
    have hbefore := (isTerminal_eq_false_iff.1 (hgoes i hlt).1).2
    rw [heq, hfault] at hbefore
    exact Option.some_ne_none fault hbefore

/-- A jump to itself leaves all but the cycles as it was, and moves the clock forward. -/
theorem after_ne_of_jump_to_itself :
    fresh.step (.parse "loop: JMP loop") ≠ fresh ∧
      fresh.clock < (fresh.step (.parse "loop: JMP loop")).clock ∧
      fresh.after (.parse "loop: JMP loop") 2 ≠ fresh.after (.parse "loop: JMP loop") 5 := by
  obtain ⟨hself, hclock, hdiffer, hroom⟩ :=
    step_eq_self_iff_and_after_ne (.parse "loop: JMP loop") fresh
  refine ⟨fun heq => Bool.false_ne_true (hself.1 heq), ?_, ?_⟩
  · exact hclock rfl (hroom (by decide)) (by decide +kernel)
  · exact hdiffer 2 5 (by decide) (by decide +kernel)

end Machine

end RegisterMachine
