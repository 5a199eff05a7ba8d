/-
# A loop that finds the larger of two numbers

A program that counts copies of two numbers down together until one of them is zero, and halts with the other
number. A turn of its loop takes seven steps and seven cycles. The first guard of the loop leaves it when the
first number is not the larger, and costs two cycles; the second leaves it otherwise, after both guards.

* `maximum`, `Program.CountsDown` : the text of the program, and what its instructions do;
* `Maximum.values`, `Maximum.after_start` : the numbers in the registers after a number of turns;
* `Maximum.after_of_le`, `Maximum.after_of_lt` : the machine at the end, for each of the guards;
* `Maximum.price`, `Maximum.finishes_after` : the cycles that the program takes, and how it halts;
* `Level.solvedFor_maximum` : the program solves the levels for the larger number, for this price.
-/
import RegisterMachine.Proofs.Level.Solutions
import RegisterMachine.Proofs.Machine.Branching

namespace RegisterMachine

/-! ## The program -/

/-- The text of a program that finds the larger of the numbers in `AX` and `BX`. -/
def maximum : String :=
  "MOV CX, AX\nMOV DX, BX\nloop: CMP CX, 0\nJE b\nCMP DX, 0\nJE a\nSUB CX, 1\nSUB DX, 1\nJMP loop\n"
    ++ "a: HLT AX\nb: HLT BX"

/-- A program that counts two numbers down: its instructions, from the first on. -/
structure Program.CountsDown (program : Program) : Prop where
  copyFirst : ∃ instruction ∈ program.get? 0, instruction.Assigns ⟨.mov, .cx, .register .ax⟩
  copySecond : ∃ instruction ∈ program.get? 1, instruction.Assigns ⟨.mov, .dx, .register .bx⟩
  guardFirst : program.Guards 2 .cx 10
  guardSecond : program.Guards 4 .dx 9
  decreaseFirst : ∃ instruction ∈ program.get? 6, instruction.Assigns ⟨.sub, .cx, .literal 1⟩
  decreaseSecond : ∃ instruction ∈ program.get? 7, instruction.Assigns ⟨.sub, .dx, .literal 1⟩
  again : ∃ instruction ∈ program.get? 8, instruction.BranchesTo program .jmp 2
  haltFirst : ∃ instruction ∈ program.get? 9, instruction.Returns (.register .ax)
  haltSecond : ∃ instruction ∈ program.get? 10, instruction.Returns (.register .bx)

instance (program : Program) : Decidable program.CountsDown :=
  decidable_of_iff (_ ∧ _ ∧ _ ∧ _ ∧ _ ∧ _ ∧ _ ∧ _ ∧ _)
    ⟨fun h => ⟨h.1, h.2.1, h.2.2.1, h.2.2.2.1, h.2.2.2.2.1, h.2.2.2.2.2.1, h.2.2.2.2.2.2.1,
        h.2.2.2.2.2.2.2.1, h.2.2.2.2.2.2.2.2⟩,
      fun h => ⟨h.copyFirst, h.copySecond, h.guardFirst, h.guardSecond, h.decreaseFirst,
        h.decreaseSecond, h.again, h.haltFirst, h.haltSecond⟩⟩

theorem countsDown_maximum : (Program.parse maximum).CountsDown := by
  decide +kernel

namespace Maximum

open Machine Assignment

variable {program : Program} {start : Register → Int} {a b count : Nat}

/-! ## Turns -/

/-- The numbers in the registers after some turns: copies in `CX` and `DX` have been counted down. -/
def values (start : Register → Int) (count : Nat) : Register → Int
  | .ax => start .ax
  | .bx => start .bx
  | .cx => start .ax - count
  | .dx => start .bx - count
  | .sp => start .sp

/-- The machine at the start of the loop after some turns. -/
def turn (start : Register → Int) (count : Nat) : Machine :=
  running (values start count) 2 (2 + 7 * count)

/-- The two steps before the loop copy the numbers. -/
theorem after_two_start (h : program.CountsDown) (start : Register → Int) :
    (running start 0 0).after program 2 = running (values start 0) 2 2 := by
  obtain ⟨first, hfirst, hcopies⟩ := h.copyFirst
  obtain ⟨second, hsecond, hcopies'⟩ := h.copySecond
  have hvalues : assign (assign start ⟨.mov, .cx, .register .ax⟩) ⟨.mov, .dx, .register .bx⟩ =
      values start 0 := by
    funext register
    cases register with
    | ax => rfl
    | bx => rfl
    | cx => exact (Int.sub_zero _).symm
    | dx => exact (Int.sub_zero _).symm
    | sp => rfl
  rw [after_succ', step_running_of_assigns hfirst hcopies, after_succ',
    step_running_of_assigns hsecond hcopies', after_zero, hvalues]
  rfl

/-- The last three steps of a turn count the copies down. -/
theorem after_three_turn (h : program.CountsDown) (start : Register → Int) (count cycles : Nat) :
    (running (values start count) 6 cycles).after program 3 =
      running (values start (count + 1)) 2 (cycles + 3) := by
  obtain ⟨first, hfirst, hcounts⟩ := h.decreaseFirst
  obtain ⟨second, hsecond, hcounts'⟩ := h.decreaseSecond
  obtain ⟨jmp, hjmp, hbranches⟩ := h.again
  have hvalues : assign (assign (values start count) ⟨.sub, .cx, .literal 1⟩)
      ⟨.sub, .dx, .literal 1⟩ = values start (count + 1) := by
    funext register
    cases register with
    | ax => rfl
    | bx => rfl
    | cx =>
        show start .ax - count - 1 = start .ax - (count + 1 : Nat)
        omega
    | dx =>
        show start .bx - count - 1 = start .bx - (count + 1 : Nat)
        omega
    | sp => rfl
  rw [after_succ', step_running_of_assigns hfirst hcounts, after_succ',
    step_running_of_assigns hsecond hcounts', after_succ', step_running_of_jmp hjmp hbranches,
    after_zero, hvalues]
  rfl

/-- A copy is zero after as many turns as its number says. -/
theorem ofInt_sub_eq_zero_iff {n : Int} (hn : n = a) (ha : a < 2 ^ 63) (hcount : count < 2 ^ 63) :
    Int64.ofInt (n - count) = 0 ↔ a = count := by
  rw [hn, Word.ofInt_eq_zero_iff (by omega) (by omega)]
  omega

/-- While neither copy is zero, a turn goes round. -/
theorem after_turn (h : program.CountsDown) (hax : start .ax = a) (hbx : start .bx = b)
    (ha : a < 2 ^ 63) (hb : b < 2 ^ 63) (hfirst : count < a) (hsecond : count < b) :
    (turn start count).after program 7 = turn start (count + 1) := by
  have hcx : Int64.ofInt (values start count .cx) ≠ 0 :=
    mt (ofInt_sub_eq_zero_iff hax ha (hfirst.trans ha)).1 (Nat.ne_of_gt hfirst)
  have hdx : Int64.ofInt (values start count .dx) ≠ 0 :=
    mt (ofInt_sub_eq_zero_iff hbx hb (hsecond.trans hb)).1 (Nat.ne_of_gt hsecond)
  rw [turn, after_add _ _ 2 5, after_guard_of_ne h.guardFirst hcx, after_add _ _ 2 3,
    after_guard_of_ne h.guardSecond hdx, after_three_turn h]
  rfl

/-- **The turns of the loop.** There are as many as both numbers have room for. -/
theorem after_start (h : program.CountsDown) (hax : start .ax = a) (hbx : start .bx = b)
    (ha : a < 2 ^ 63) (hb : b < 2 ^ 63) (hfirst : count ≤ a) (hsecond : count ≤ b) :
    (running start 0 0).after program (2 + 7 * count) = turn start count := by
  have hturn : ∀ k < count, (turn start k).after program 7 = turn start (k + 1) := fun k hk =>
    after_turn h hax hbx ha hb (by omega) (by omega)
  rw [after_add, after_two_start h]
  exact after_of_turns hturn

/-! ## The end -/

/-- If the first number is not the larger, the first guard leads to the second number. -/
theorem after_of_le (h : program.CountsDown) (hax : start .ax = a) (hbx : start .bx = b)
    (ha : a < 2 ^ 63) (hb : b < 2 ^ 63) (hle : a ≤ b) :
    (running start 0 0).after program (2 + 7 * a + 3) =
      { running (values start a) 11 (7 * a + 4) with
        zero := true, output := [.ofInt b], halted := true } := by
  have hcx : Int64.ofInt (values start a .cx) = 0 := (ofInt_sub_eq_zero_iff hax ha ha).2 rfl
  have hcycles : 2 + 7 * a + 2 = 7 * a + 4 := by omega
  rw [after_add, after_start h hax hbx ha hb le_rfl hle, turn,
    after_guard_of_eq h.guardFirst h.haltSecond hcx, hcycles, ← hbx]
  rfl

/-- If it is the larger, the second guard leads to it. -/
theorem after_of_lt (h : program.CountsDown) (hax : start .ax = a) (hbx : start .bx = b)
    (ha : a < 2 ^ 63) (hb : b < 2 ^ 63) (hlt : b < a) :
    (running start 0 0).after program (2 + 7 * b + 5) =
      { running (values start b) 10 (7 * b + 6) with
        zero := true, output := [.ofInt a], halted := true } := by
  have hcx : Int64.ofInt (values start b .cx) ≠ 0 :=
    mt (ofInt_sub_eq_zero_iff hax ha hb).1 (Nat.ne_of_gt hlt)
  have hdx : Int64.ofInt (values start b .dx) = 0 := (ofInt_sub_eq_zero_iff hbx hb hb).2 rfl
  have hcycles : 2 + 7 * b + 2 + 2 = 7 * b + 6 := by omega
  rw [after_add, after_start h hax hbx ha hb (Nat.le_of_lt hlt) le_rfl, turn, after_add _ _ 2 3,
    after_guard_of_ne h.guardFirst hcx, after_guard_of_eq h.guardSecond h.haltFirst hdx, hcycles,
    ← hax]
  rfl

/-- The cycles that the program takes: seven for each turn, two before the loop, and two or four for the guards
that leave it. -/
def price (a b : Nat) : Nat :=
  if a ≤ b then 7 * min a b + 4 else 7 * min a b + 6

/-- A machine has halted with a number, and has used so many cycles. -/
structure Finishes (last : Machine) (number cycles : Nat) : Prop where
  halted : last.halted = true
  fault : last.fault = none
  output : last.output = [.ofInt number]
  cycles : last.cycles = .ofNat cycles

/-- **The program halts with the larger number.** The step that halts takes no cycles. -/
theorem finishes_after (h : program.CountsDown) (start : Register → Int) (hax : start .ax = a)
    (hbx : start .bx = b) (ha : a < 2 ^ 63) (hb : b < 2 ^ 63) :
    Finishes ((running start 0 0).after program (price a b + 1)) (max a b) (price a b) := by
  rcases Nat.lt_or_ge b a with hlt | hle
  · have hprice : price a b = 7 * b + 6 := by
      rw [price, if_neg (Nat.not_le.2 hlt), Nat.min_eq_right (Nat.le_of_lt hlt)]
    have hsteps : 7 * b + 6 + 1 = 2 + 7 * b + 5 := by omega
    rw [hprice, hsteps, Nat.max_eq_left (Nat.le_of_lt hlt), after_of_lt h hax hbx ha hb hlt]
    exact ⟨rfl, rfl, rfl, rfl⟩
  · have hprice : price a b = 7 * a + 4 := by
      rw [price, if_pos hle, Nat.min_eq_left hle]
    have hsteps : 7 * a + 4 + 1 = 2 + 7 * a + 3 := by omega
    rw [hprice, hsteps, Nat.max_eq_right hle, after_of_le h hax hbx ha hb hle]
    exact ⟨rfl, rfl, rfl, rfl⟩

/-- The larger of two numbers that fit a word is emitted as it is. -/
theorem map_toInt_max (ha : a < 2 ^ 63) (hb : b < 2 ^ 63) :
    [Int64.ofInt (max a b : Nat)].map Int64.toInt = [max (a : Int) b] := by
  have hmax : ((max a b : Nat) : Int) = max (a : Int) b := by omega
  rw [List.map_singleton, Int64.toInt_ofInt_of_le (by omega) (by omega), hmax]

end Maximum

/-! ## Levels for the larger number -/

namespace Level

open Machine

/-- The machine at the start of a level is on its way. -/
theorem machine_eq_running (level : Level) :
    level.machine = running level.machine.registers.numbers 0 0 := by
  rw [running, Registers.reduce_numbers]
  rfl

/-- **The larger of two numbers.** On numbers that leave time for its turns, the program wins the levels for
the larger number with every budget that pays for its cycles, and exceeds every other. A run that is paid for
halts with the larger number after just these cycles. -/
theorem solvedFor_maximum (level : Level) (skill : Skill) (a b : Nat)
    (ha : level.inputs.a.toInt = a) (hb : level.inputs.b.toInt = b)
    (hfits : 7 * min a b + 7 ≤ 10000) (hskill : skill = .maxPulse ∨ skill = .branchBlast)
    (hname : level.skillName = skill.name) :
    level.SolvedFor maximum skill (Maximum.price a b) ∧
    ∀ budget : UInt64, Maximum.price a b ≤ budget.toNat →
      let last := level.machine.runSource maximum (some budget)
      last.halted = true ∧ last.fault = none ∧ last.output.map Int64.toInt = [max (a : Int) b] ∧
        last.cycles.toNat = Maximum.price a b := by
  have hltA : a < 2 ^ 63 := by
    have hbound := level.inputs.a.toInt_lt
    omega
  have hltB : b < 2 ^ 63 := by
    have hbound := level.inputs.b.toInt_lt
    omega
  have hsteps : Maximum.price a b + 1 ≤ 10000 := by
    unfold Maximum.price
    split <;> omega
  have hlast : Maximum.Finishes (level.reached maximum (Maximum.price a b + 1)) (max a b)
      (Maximum.price a b) := by
    rw [reached, machine_eq_running]
    exact Maximum.finishes_after countsDown_maximum _ ha hb hltA hltB
  have hcycles : (level.reached maximum (Maximum.price a b + 1)).cycles.toNat =
      Maximum.price a b := by
    rw [hlast.cycles]
    apply UInt64.toNat_ofNat_of_lt'
    rw [UInt64.size]
    omega
  have houtput : (level.reached maximum (Maximum.price a b + 1)).output.map Int64.toInt =
      [max (a : Int) b] := by
    rw [hlast.output, Maximum.map_toInt_max hltA hltB]
  have hlaw : skill.Law (level.reached maximum (Maximum.price a b + 1)).output level.inputs := by
    rw [← ha, ← hb] at houtput
    rcases hskill with rfl | rfl <;> exact houtput
  have hwins : level.Wins (level.reached maximum (Maximum.price a b + 1)) skill :=
    ⟨hlast.halted, hlast.fault, hname.symm, Skill.accepts_iff_law.2 hlaw⟩
  refine ⟨solvedFor_of_wins hsteps hwins hcycles, ?_⟩
  intro budget hpaid
  have hwithin : (level.reached maximum (Maximum.price a b + 1)).cycles ≤ budget := by
    rwa [UInt64.le_iff_toNat_le, hcycles]
  have hrun : level.machine.runSource maximum (some budget) =
      level.reached maximum (Maximum.price a b + 1) :=
    runSource_of_isTerminal { level with budget := budget } hsteps hwins.isTerminal hwithin
  rw [hrun]
  exact ⟨hlast.halted, hlast.fault, houtput, hcycles⟩

/-- The larger of 7 and 3 takes three turns and 27 cycles, and 26 are too few. The most turns for which there is
time are 1427. -/
theorem solvedFor_maximum_at_limits :
    (⟨9, "Branch", "Branch Blast", ⟨7, 3⟩, 27, []⟩ : Level).attempt maximum = .success .branchBlast ∧
    (∃ cycles, (⟨9, "Branch", "Branch Blast", ⟨7, 3⟩, 26, []⟩ : Level).attempt maximum =
      .budgetExceeded cycles) ∧
    (⟨4, "Maximum", "Max Pulse", ⟨1427, .maxValue⟩, 9993, []⟩ : Level).attempt maximum =
      .success .maxPulse ∧
    ((⟨4, "Maximum", "Max Pulse", ⟨1427, .maxValue⟩, 9993, []⟩ : Level).machine.runSource maximum
      (some 9993)).output.map Int64.toInt = [9223372036854775807] := by
  obtain ⟨hseven, -⟩ := solvedFor_maximum ⟨9, "Branch", "Branch Blast", ⟨7, 3⟩, 27, []⟩ .branchBlast
    7 3 rfl rfl (by decide) (.inr rfl) rfl
  obtain ⟨hgreatest, hruns⟩ := solvedFor_maximum
    ⟨4, "Maximum", "Max Pulse", ⟨1427, .maxValue⟩, 9993, []⟩ .maxPulse 1427 9223372036854775807
    rfl rfl (by decide) (.inl rfl) rfl
  refine ⟨hseven.attempt_eq_success 27 (by decide), hseven.exists_attempt_eq 26 (by decide),
    hgreatest.attempt_eq_success 9993 (by decide), ?_⟩
  obtain ⟨-, -, houtput, -⟩ := hruns 9993 (by decide)
  rw [houtput]
  rfl

end Level

end RegisterMachine
