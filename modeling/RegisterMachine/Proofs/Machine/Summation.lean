/-
# A loop that sums

A program that sums the numbers from a word in `AX` down to one, and the inputs with which it comes to its
end. It takes a step before its loop, four steps for each turn of the loop, and one to halt, so the limit of
ten thousand steps leaves it time for 2499 turns. The loop ends when `AX` is zero after a turn. Started with
zero or less, `AX` moves away from zero and would have to go round all words, so such a run is cut off too.

* `summation`, `Program.Sums` : the text of the program, and what its instructions do;
* `Summation.turn` : the machine after a number of turns;
* `Summation.after_start` : it is reached as long as `AX` was not zero on the way;
* `Summation.runSource_summation` : the two ways in which a run ends.
-/
import Mathlib.Algebra.BigOperators.Group.Finset.Basic
import Mathlib.Tactic.Ring
import RegisterMachine.Proofs.Machine.Branching
import RegisterMachine.Proofs.Machine.Orbit

namespace RegisterMachine

/-! ## The program -/

/-- The text of a program that sums the numbers from the one in `AX` down to one. -/
def summation : String :=
  "\n        ; sum of 1..=AX\n              MOV BX, 0\n        loop: ADD BX, AX\n"
    ++ "              SUB AX, 1\n              CMP AX, 0\n              JNE loop\n"
    ++ "              HLT BX\n        "

/-- A program that sums: its instructions, from the first on. -/
structure Program.Sums (program : Program) : Prop where
  clear : ∃ instruction ∈ program.get? 0, instruction.Assigns ⟨.mov, .bx, .literal 0⟩
  add : ∃ instruction ∈ program.get? 1, instruction.Assigns ⟨.add, .bx, .register .ax⟩
  decrease : ∃ instruction ∈ program.get? 2, instruction.Assigns ⟨.sub, .ax, .literal 1⟩
  compare : ∃ instruction ∈ program.get? 3, instruction.Compares (.register .ax) (.literal 0)
  again : ∃ instruction ∈ program.get? 4, instruction.BranchesTo program .jne 1
  halt : ∃ instruction ∈ program.get? 5, instruction.Returns (.register .bx)

instance (program : Program) : Decidable program.Sums :=
  decidable_of_iff (_ ∧ _ ∧ _ ∧ _ ∧ _ ∧ _)
    ⟨fun h => ⟨h.1, h.2.1, h.2.2.1, h.2.2.2.1, h.2.2.2.2.1, h.2.2.2.2.2⟩,
      fun h => ⟨h.clear, h.add, h.decrease, h.compare, h.again, h.halt⟩⟩

theorem sums_summation : (Program.parse summation).Sums := by
  decide +kernel

namespace Summation

open Machine Assignment

variable {program : Program}

/-! ## Turns -/

/-- The numbers in the registers after some turns from a number `n` : `BX` holds the sum of as many numbers
from `n` on downwards. -/
def values (n : Int) (count : Nat) : Register → Int
  | .ax => n - count
  | .bx => ∑ i ∈ Finset.range count, (n - i)
  | .cx => 0
  | .dx => 0
  | .sp => 16

/-- The machine at the start of the loop after some turns. -/
def turn (n : Word) (count : Nat) : Machine :=
  { fresh with
    registers := .reduce (values n.toInt count)
    pc := 1
    cycles := .ofNat (1 + 4 * count) }

/-- The machine before the jump at the end of the next turn. -/
def compared (n : Word) (count : Nat) : Machine :=
  { turn n (count + 1) with
    zero := decide (n.toInt = count + 1)
    pc := 4
    cycles := .ofNat (1 + 4 * count + 3) }

/-- The machine at the end. -/
def finished (n : Word) (count : Nat) : Machine :=
  { turn n count with
    zero := true
    output := [.ofInt (values n.toInt count .bx)]
    halted := true
    pc := 6 }

/-- A turn adds the next number. -/
theorem assign_values (n : Int) (count : Nat) :
    assign (assign (values n count) ⟨.add, .bx, .register .ax⟩) ⟨.sub, .ax, .literal 1⟩ =
      values n (count + 1) := by
  funext register
  cases register with
  | ax =>
      show n - count - 1 = n - (count + 1 : Nat)
      omega
  | bx =>
      show ∑ i ∈ Finset.range count, (n - i) + (n - count) = ∑ i ∈ Finset.range (count + 1), (n - i)
      rw [Finset.sum_range_succ]
  | cx => rfl
  | dx => rfl
  | sp => rfl

/-- The jump at the end of a turn takes the last of its cycles. -/
theorem ofNat_turn_succ (count : Nat) :
    UInt64.ofNat (1 + 4 * count + 3) + 1 = UInt64.ofNat (1 + 4 * (count + 1)) :=
  (UInt64.ofNat_add _ 1).symm

/-- The step before the loop clears `BX`. -/
theorem step_start (h : program.Sums) (n : Word) :
    (fresh.withRegister .ax n).step program = turn n 0 := by
  obtain ⟨instruction, hget, hassigns⟩ := h.clear
  have hstart : (fresh.withRegister .ax n).registers =
      .reduce (fresh.withRegister .ax n).registers.numbers := (Registers.reduce_numbers _).symm
  have hvalues : assign (fresh.withRegister .ax n).registers.numbers ⟨.mov, .bx, .literal 0⟩ =
      values n.toInt 0 := by
    funext register
    cases register with
    | ax => exact (Int.sub_zero n.toInt).symm
    | bx => rfl
    | cx => rfl
    | dx => rfl
    | sp => rfl
  rw [step_of_assigns hassigns rfl hget hstart, hvalues]
  rfl

/-- The first three steps of a turn add the next number and compare the one after it with zero. -/
theorem after_three_turn (h : program.Sums) (n : Word) {count : Nat}
    (hcount : count + 1 < 2 ^ 63) :
    (turn n count).after program 3 = compared n count := by
  obtain ⟨add, hadd, hadds⟩ := h.add
  obtain ⟨sub, hsub, hsubs⟩ := h.decrease
  obtain ⟨cmp, hcmp, hcompares⟩ := h.compare
  have hzero : Int64.ofInt (values n.toInt (count + 1) .ax) = 0 ↔ n.toInt = count + 1 := by
    have hlow := n.le_toInt
    have hhigh := n.toInt_lt
    show Int64.ofInt (n.toInt - (count + 1 : Nat)) = 0 ↔ n.toInt = count + 1
    rw [Word.ofInt_eq_zero_iff (by omega) (by omega)]
    omega
  rw [after_succ', step_of_assigns hadds rfl hadd rfl, after_succ',
    step_of_assigns hsubs rfl hsub rfl, assign_values, after_succ',
    step_of_compares hcompares rfl hcmp, after_zero]
  have hcycles : UInt64.ofNat (1 + 4 * count + 3) = UInt64.ofNat (1 + 4 * count) + 1 + 1 + 1 := by
    rw [UInt64.ofNat_add, UInt64.add_assoc, UInt64.add_assoc]
    rfl
  unfold compared turn
  simp only [Operand.word, Registers.get_reduce, hzero, hcycles]
  rfl

/-- The jump is taken while `AX` is not zero. -/
theorem step_compared_of_ne (h : program.Sums) {n : Word} {count : Nat}
    (hne : n.toInt ≠ count + 1) : (compared n count).step program = turn n (count + 1) := by
  obtain ⟨jne, hget, hbranches⟩ := h.again
  have hzero : (compared n count).zero = false := decide_eq_false hne
  have hop : Jumps .jne (compared n count).zero := by
    rw [hzero]
    exact .jne
  rw [step_of_jumps hbranches hop rfl hget]
  unfold compared turn
  simp only [ofNat_turn_succ, decide_eq_false hne]
  rfl

/-- It is passed when `AX` is zero, and the program halts with the sum. -/
theorem after_two_compared (h : program.Sums) {n : Word} {count : Nat}
    (heq : n.toInt = count + 1) :
    (compared n count).after program 2 = finished n (count + 1) := by
  obtain ⟨jne, hjne, hbranches⟩ := h.again
  obtain ⟨hlt, hhlt, hreturns⟩ := h.halt
  have hzero : (compared n count).zero = true := decide_eq_true heq
  have hop : Passes .jne (compared n count).zero := by
    rw [hzero]
    exact .jne
  rw [after_succ', step_of_passes hbranches hop rfl hjne, after_succ',
    step_of_returns hreturns rfl hhlt, after_zero]
  unfold finished compared turn
  simp only [ofNat_turn_succ, decide_eq_true heq, Operand.word, Registers.get_reduce]
  rfl

/-- **The turns of the loop.** As long as `AX` was not zero after a turn, there is a next one. -/
theorem after_start (h : program.Sums) {n : Word} {count : Nat} (hcount : count < 2 ^ 63)
    (hne : ∀ k < count, n.toInt ≠ k + 1) :
    (fresh.withRegister .ax n).after program (1 + 4 * count) = turn n count := by
  have hturn : ∀ k < count, (turn n k).after program 4 = turn n (k + 1) := by
    intro k hk
    rw [after_succ, after_three_turn h n (by omega), step_compared_of_ne h (hne k hk)]
  rw [after_add, after_succ, after_zero, step_start h n, after_of_turns hturn]

/-! ## The sum -/

/-- Twice the sum of numbers from `n` on downwards. -/
theorem two_mul_values_bx (n : Int) (count : Nat) :
    2 * values n count .bx = count * (2 * n - count + 1) := by
  induction count with
  | zero => simp [values]
  | succ count ih =>
      have hsum : values n (count + 1) .bx = values n count .bx + (n - count) :=
        Finset.sum_range_succ ..
      rw [hsum, mul_add, ih]
      push_cast
      ring

/-- The sum of all of them down to one. -/
theorem values_bx_of_eq {n : Int} {count : Nat} (h : n = count) :
    values n count .bx = n * (n + 1) / 2 := by
  have htwice := two_mul_values_bx n count
  have hsame : (count : Int) * (2 * n - count + 1) = n * (n + 1) := by
    rw [h]
    ring
  rw [hsame] at htwice
  omega

/-! ## Runs -/

/-- A run from a positive number that is small enough halts when `AX` is zero. -/
theorem run_of_eq (h : program.Sums) {n : Word} {count : Nat} (hcount : count < 2499)
    (heq : n.toInt = count + 1) :
    (fresh.withRegister .ax n).run program none = finished n (count + 1) := by
  have hne : ∀ k < count, n.toInt ≠ k + 1 := by omega
  have hlast : (fresh.withRegister .ax n).after program (1 + 4 * count + 5) =
      finished n (count + 1) := by
    rw [after_add, after_start h (by omega) hne, after_add _ _ 3 2,
      after_three_turn h n (by omega), after_two_compared h heq]
  have hterminal :
      ((fresh.withRegister .ax n).after program (1 + 4 * count + 5)).isTerminal = true := by
    rw [hlast]
    rfl
  have hle : 1 + 4 * count + 5 ≤ stepLimit := by
    rw [stepLimit]
    omega
  rw [run, runFor_none, after_eq_of_isTerminal hterminal hle, hlast]

/-- Any other run is cut off before the jump at the end of turn 2500. -/
theorem run_of_ne (h : program.Sums) {n : Word} (hne : ∀ k < 2499, n.toInt ≠ (k : Nat) + 1) :
    (fresh.withRegister .ax n).run program none = compared n 2499 := by
  have hlimit : stepLimit = 1 + 4 * 2499 + 3 := rfl
  rw [run, runFor_none, hlimit, after_add, after_start h (by omega) hne,
    after_three_turn h n (by omega)]

/-- The cycles of a turn do not wrap around. -/
theorem toNat_cycles_turn (n : Word) {count : Nat} (hcount : count < 2 ^ 61) :
    (turn n count).cycles.toNat = 1 + 4 * count := by
  apply UInt64.toNat_ofNat_of_lt'
  rw [UInt64.size]
  omega

/-- The sum that is emitted does not wrap around. -/
theorem map_toInt_output_finished {n : Word} {count : Nat} (h : n.toInt = count)
    (hcount : count ≤ 2499) :
    (finished n count).output.map Int64.toInt = [n.toInt * (n.toInt + 1) / 2] := by
  have hpositive : 0 ≤ n.toInt * (n.toInt + 1) := Int.mul_nonneg (by omega) (by omega)
  have hsmall : n.toInt * (n.toInt + 1) ≤ 2499 * 2500 :=
    Int.mul_le_mul (by omega) (by omega) (by omega) (by omega)
  show [(Int64.ofInt (values n.toInt count .bx)).toInt] = [n.toInt * (n.toInt + 1) / 2]
  rw [values_bx_of_eq h, Int64.toInt_ofInt_of_le (by omega) (by omega)]

/-- **Where the limit of steps cuts the loop off.** From a fresh machine with any word in `AX`, a run without a
budget does one of two things. If the word is from 1 to 2499, it halts with the sum and has taken four cycles
for each number and one before them. Any other run stops without a fault after ten thousand cycles, and has
emitted nothing. -/
theorem runSource_summation (n : Word) :
    let last := (fresh.withRegister .ax n).runSource summation none
    (1 ≤ n.toInt ∧ n.toInt ≤ 2499 →
      last.halted = true ∧ last.fault = none ∧
        last.output.map Int64.toInt = [n.toInt * (n.toInt + 1) / 2] ∧
        (last.cycles.toNat : Int) = 1 + 4 * n.toInt) ∧
    (¬ (1 ≤ n.toInt ∧ n.toInt ≤ 2499) →
      last.halted = false ∧ last.fault = none ∧ last.output = [] ∧ last.cycles = 10000) := by
  intro last
  constructor
  · rintro ⟨hpos, hle⟩
    obtain ⟨count, hcount⟩ : ∃ count : Nat, n.toInt = count + 1 :=
      ⟨(n.toInt - 1).toNat, by omega⟩
    have hrun : last = finished n (count + 1) :=
      run_of_eq sums_summation (by omega) hcount
    rw [hrun]
    refine ⟨rfl, rfl, map_toInt_output_finished hcount (by omega), ?_⟩
    have hcycles : (finished n (count + 1)).cycles.toNat = 1 + 4 * (count + 1) :=
      toNat_cycles_turn n (by omega)
    omega
  · intro hout
    have hrun : last = compared n 2499 := run_of_ne sums_summation (by omega)
    rw [hrun]
    exact ⟨rfl, rfl, rfl, rfl⟩

/-- The numbers up to five add up to 15. There is time for 2499 turns and not for 2500, and from -1 the loop
goes the wrong way. -/
theorem runSource_summation_five :
    ((fresh.withRegister .ax 5).runSource summation none).output.map Int64.toInt = [15] ∧
      ((fresh.withRegister .ax 5).runSource summation none).cycles.toNat = 21 ∧
      ((fresh.withRegister .ax 2499).runSource summation none).halted = true ∧
      ((fresh.withRegister .ax 2500).runSource summation none).halted = false ∧
      ((fresh.withRegister .ax (-1)).runSource summation none).halted = false := by
  obtain ⟨-, -, hsum, hcycles⟩ := (runSource_summation 5).1 (by decide)
  obtain ⟨hgreatest, -⟩ := (runSource_summation 2499).1 (by decide)
  obtain ⟨hcut, -⟩ := (runSource_summation 2500).2 (by decide)
  obtain ⟨hwrong, -⟩ := (runSource_summation (-1)).2 (by decide)
  have hfive : (5 : Word).toInt = 5 := rfl
  rw [hfive] at hsum hcycles
  refine ⟨?_, ?_, hgreatest, hcut, hwrong⟩
  · rw [hsum]
    rfl
  · omega

end Summation

end RegisterMachine
