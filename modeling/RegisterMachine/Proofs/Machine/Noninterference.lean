/-
# Registers that are not named

A register matters to an instruction only if it is named among the operands. If it is not, the instruction
neither reads nor writes it, and what it holds has no influence on anything else: on the other registers, the
stack, the flag, where the machine goes next, or how it fails. This holds of `SP` as of every other register,
since the stack is not addressed through it.

* `Machine.SameBut` : machines that differ in the word of one register at most;
* `Machine.Neglects` : functions of machines that neither read nor write a register;
* `Machine.Executes.withRegister` : an instruction that does not name a register neglects it;
* `Machine.run_sameBut` : so does a run of a program that does not name it.

Names are compared exactly: a program that names `sp` or `SP1` does not name `SP`.
-/
import RegisterMachine.Proofs.Machine.Disguise

namespace RegisterMachine

/-- Writing different registers is the same in either order. -/
theorem Registers.set_comm (registers : Registers) {r s : Register} (v w : Word) (h : r ≠ s) :
    (registers.set r v).set s w = (registers.set s w).set r v := by
  revert h
  cases r <;> cases s <;> simp [set]

/-- Writing what a register holds changes nothing. -/
@[simp] theorem Registers.set_get (registers : Registers) (register : Register) :
    registers.set register (registers.get register) = registers := by
  cases register <;> rfl

namespace Machine

variable {program : Program} {m n : Machine} {register : Register} {word : Word}

/-! ## Machines that differ in one register -/

/-- Two machines that are equal, but for the word in a register. -/
structure SameBut (register : Register) (m n : Machine) : Prop where
  get_other : ∀ other, other ≠ register → n.registers.get other = m.registers.get other
  rest : n = { m with registers := n.registers }

/-- A machine with another word in a register is the same otherwise. -/
theorem sameBut_withRegister (register : Register) (word : Word) (m : Machine) :
    SameBut register m (m.withRegister register word) where
  get_other _ hother := Registers.get_set_of_ne m.registers word hother
  rest := rfl

/-- A machine that is the same otherwise is the machine with another word in the register. -/
theorem SameBut.eq_withRegister (h : SameBut register m n) :
    n = m.withRegister register (n.registers.get register) := by
  have hreplaces : Replaces m.registers register (n.registers.get register) n.registers :=
    ⟨rfl, h.get_other⟩
  rw [withRegister, hreplaces.set_eq]
  exact h.rest

/-- Another word in a register is a disguise. -/
theorem disguise_withRegister (register : Register) (word : Word) :
    Disguise (fun m => m.withRegister register word) id :=
  .of_fault_eq (fun _ => rfl) (fun _ => rfl) (fun _ => rfl) fun _ _ => rfl

/-- A function of machines that makes no use of a register of a machine: with another word in the register,
its result is the same, with this word in the register. -/
def Neglects (register : Register) (f : Machine → Machine) (m : Machine) : Prop :=
  ∀ word, f (m.withRegister register word) = (f m).withRegister register word

/-- A register that is neglected keeps its word. -/
theorem Neglects.get_eq {f : Machine → Machine} (h : Neglects register f m) :
    (f m).registers.get register = m.registers.get register := by
  have hsame : m.withRegister register (m.registers.get register) = m := by
    rw [withRegister, Registers.set_get]
  have hcommutes := h (m.registers.get register)
  rw [hsame] at hcommutes
  rw [hcommutes]
  exact Registers.get_set_self _ _ _

/-- Machines that differ in a neglected register only have results that differ in it only. -/
theorem Neglects.sameBut {f : Machine → Machine} (h : Neglects register f m)
    (hsame : SameBut register m n) : SameBut register (f m) (f n) := by
  rw [hsame.eq_withRegister, h]
  exact sameBut_withRegister register _ (f m)

/-! ## Operands -/

/-- A token denotes a word in every register file or in none. -/
theorem Denotes.exists_denotes {before : Registers} {token : String}
    (h : Denotes before token word) (after : Registers) : ∃ word, Denotes after token word := by
  cases h with
  | register named => exact ⟨_, .register named⟩
  | literal hname hvalue => exact ⟨word, .literal hname hvalue⟩

/-- A token other than the name of a register denotes the same, whatever the register holds. -/
theorem Denotes.set {registers : Registers} {token : String} {value : Word}
    (h : Denotes registers token value) (hne : token ≠ register.name) :
    Denotes (registers.set register word) token value := by
  cases h with
  | register named =>
      have hother : named ≠ register := fun heq => hne (heq ▸ rfl)
      rw [← Registers.get_set_of_ne registers word hother]
      exact .register named
  | literal hname hvalue => exact .literal hname hvalue

variable {operation : Operation} {operands : List String} {place : Nat}

/-- The check of a source does not depend on a register that is not named. -/
theorem Readable.set {registers : Registers} {outcome : Except Fault Word}
    (h : Readable registers operation operands place outcome) (hfree : register.name ∉ operands) :
    Readable (registers.set register word) operation operands place outcome := by
  cases h with
  | missing h => exact .missing h
  | refused h hword =>
      refine .refused h fun value hdenotes => ?_
      obtain ⟨before, hbefore⟩ := hdenotes.exists_denotes registers
      exact hword before hbefore
  | found h hword =>
      refine .found h (hword.set ?_)
      rintro rfl
      exact hfree (List.mem_of_getElem? h)

/-- A destination is a register that is named. -/
theorem Writable.ne_of_notMem {target : Register}
    (h : Writable operation operands place (.ok target)) (hfree : register.name ∉ operands) :
    target ≠ register := by
  cases h with
  | found h =>
      rintro rfl
      exact hfree (List.mem_of_getElem? h)

/-- Replacing a word of one register does not depend on another one. -/
theorem Replaces.set {before after : Registers} {target : Register} {value : Word}
    (h : Replaces before target value after) (hne : target ≠ register) :
    Replaces (before.set register word) target value (after.set register word) := by
  rw [← h.set_eq, Registers.set_comm before value word hne]
  exact replaces_set _ target value

/-! ## Steps and runs -/

/-- An operation that does not name a register neglects it. -/
theorem Performs.withRegister {outcome : Except Fault Machine} (word : Word)
    (h : Performs program m operation operands outcome) (hfree : register.name ∉ operands) :
    Performs program (m.withRegister register word) operation operands
      ((outcome.map fun next => next.withRegister register word).mapError id) := by
  cases h with
  | unwritable hop htarget => exact .unwritable hop htarget
  | unreadable hop htarget hsource => exact .unreadable hop htarget (hsource.set hfree)
  | computed hop htarget hsource hresult hset =>
      have hne := htarget.ne_of_notMem hfree
      rw [← Registers.get_set_of_ne m.registers word hne] at hresult
      exact .computed hop htarget (hsource.set hfree) hresult (hset.set hne)
  | leftUnreadable hleft => exact .leftUnreadable (hleft.set hfree)
  | rightUnreadable hleft hright => exact .rightUnreadable (hleft.set hfree) (hright.set hfree)
  | compared hleft hright => exact .compared (hleft.set hfree) (hright.set hfree)
  | lost hop htarget => exact .lost hop htarget
  | jumped hop htarget => exact .jumped hop htarget
  | passed hop => exact .passed hop
  | unpushable hsource => exact .unpushable (hsource.set hfree)
  | pushed hsource => exact .pushed (hsource.set hfree)
  | underflow hstack => exact .underflow hstack
  | unpoppable hstack htarget => exact .unpoppable hstack htarget
  | popped hstack htarget hset =>
      exact .popped hstack htarget (hset.set (htarget.ne_of_notMem hfree))
  | unhaltable hsource => exact .unhaltable (hsource.set hfree)
  | halted hsource => exact .halted (hsource.set hfree)

/-- So does an instruction. -/
theorem Executes.withRegister {outcome : Except Fault Machine} (word : Word)
    (h : Executes program m outcome)
    (hfree : ∀ instruction ∈ program.get? m.pc, register.name ∉ instruction.operands) :
    Executes program (m.withRegister register word)
      ((outcome.map fun next => next.withRegister register word).mapError id) := by
  cases h with
  | ended h => exact .ended h
  | bare h hopcode => exact .bare h hopcode
  | unknown h hopcode => exact .unknown h hopcode
  | known h hopcode hperforms =>
      exact .known h hopcode (hperforms.withRegister word (hfree _ h))

/-- So does a step. -/
theorem neglects_step
    (hfree : ∀ instruction ∈ program.get? m.pc, register.name ∉ instruction.operands) :
    Neglects register (fun m => m.step program) m := by
  intro word
  exact (disguise_withRegister register word).step_eq fun _ h => h.withRegister word hfree

/-- So does a run of a program that does not name the register. -/
theorem neglects_run (budget : Option UInt64) (m : Machine)
    (hfree : ∀ instruction ∈ program.instructions, register.name ∉ instruction.operands) :
    Neglects register (fun m => m.run program budget) m := by
  intro word
  refine (disguise_withRegister register word).run_eq fun transition _ => ?_
  refine neglects_step ?_ word
  intro instruction hget
  rw [Program.get?_eq_getElem?] at hget
  exact hfree instruction (List.mem_of_getElem? hget)

/-- **A register that is not named does not matter.** If no instruction of a program has the name of a
register among its operands, runs of machines that differ in this register only end in machines that differ
in it only, and each of them keeps the word that it started with. This goes instruction by instruction: a
step whose instruction does not name the register neither reads it nor writes it, so in particular `push` and
`pop` make no use of `SP`. -/
theorem run_sameBut (register : Register) (program : Program) :
    ((∀ instruction ∈ program.instructions, register.name ∉ instruction.operands) →
      ∀ (budget : Option UInt64) (m n : Machine), SameBut register m n →
        SameBut register (m.run program budget) (n.run program budget) ∧
          (m.run program budget).registers.get register = m.registers.get register ∧
          (n.run program budget).registers.get register = n.registers.get register) ∧
    ∀ m n : Machine,
      (∀ instruction ∈ program.get? m.pc, register.name ∉ instruction.operands) →
        SameBut register m n → SameBut register (m.step program) (n.step program) ∧
          (m.step program).registers.get register = m.registers.get register := by
  constructor
  · intro hfree budget m n hsame
    exact ⟨(neglects_run budget m hfree).sameBut hsame, (neglects_run budget m hfree).get_eq,
      (neglects_run budget n hfree).get_eq⟩
  · intro m n hfree hsame
    exact ⟨(neglects_step hfree).sameBut hsame, (neglects_step hfree).get_eq⟩

/-- Pushing and popping leave `SP` alone, and a label `sp` does not name it. -/
theorem run_sameBut_push_pop :
    let program := Program.parse "PUSH 5\nPOP AX\nJMP sp\nsp: HLT AX"
    let other := fresh.withRegister .sp (-1)
    (∀ instruction ∈ program.instructions, Register.sp.name ∉ instruction.operands) ∧
      (∀ instruction ∈ program.get? fresh.pc, Register.sp.name ∉ instruction.operands) ∧
      SameBut .sp fresh other ∧
      SameBut .sp (fresh.run program none) (other.run program none) ∧
      (fresh.run program none).registers.get .sp = 16 ∧
      (other.run program none).registers.get .sp = -1 ∧
      SameBut .sp (fresh.step program) (other.step program) := by
  intro program other
  have hfree : ∀ instruction ∈ program.instructions, Register.sp.name ∉ instruction.operands := by
    decide +kernel
  have hnext : ∀ instruction ∈ program.get? fresh.pc,
      Register.sp.name ∉ instruction.operands := by
    decide +kernel
  have hsame : SameBut .sp fresh other := sameBut_withRegister .sp (-1) fresh
  obtain ⟨hruns, hsteps⟩ := run_sameBut .sp program
  obtain ⟨hrun, hfresh, hother⟩ := hruns hfree none fresh other hsame
  exact ⟨hfree, hnext, hsame, hrun, hfresh, hother, (hsteps fresh other hnext hsame).1⟩

end Machine

end RegisterMachine
