/-
# Other names for the labels

What a label is called does not matter. If every label gets another name, and so does the label that each
jump looks for, then every run goes as before; only a jump to nowhere reports its label by the new name.
Different labels have to keep different names.

* `Instruction.relabel`, `Program.relabel` : instructions and programs with the new names;
* `Fault.relabel`, `Machine.relabel` : the report of a missing label by its new name;
* `Machine.disguise_relabel` : which is a disguise;
* `Machine.carriers_relabel` : a new name stands where the old one stood;
* `Machine.step_relabel`, `Machine.run_relabel` : steps and runs go as before.

Labels may be spelled like registers or numerals: the other operations keep their operands.
-/
import Mathlib.Logic.Equiv.Basic
import RegisterMachine.Proofs.Machine.Disguise

namespace RegisterMachine

/-! ## New names -/

/-- The operations whose operand is a label. -/
def Operation.isJump : Operation → Bool
  | jmp | je | jne => true
  | _ => false

/-- The operands of an operation with a new name for the label, if the first of them is one. -/
def Operation.relabel (operation : Operation) (rename : String → String) (operands : List String) :
    List String :=
  if operation.isJump then operands.modifyHead rename else operands

/-- An instruction with new names for its label and for the label that it looks for. -/
def Instruction.relabel (rename : String → String) (instruction : Instruction) : Instruction where
  opcode := instruction.opcode
  operands :=
    match instruction.opcode with
    | some (.known operation) => operation.relabel rename instruction.operands
    | _ => instruction.operands
  label := instruction.label.map rename

/-- A program with new names for its labels. -/
def Program.relabel (rename : String → String) (program : Program) : Program :=
  ⟨program.entries.map fun entry =>
    { entry with instruction := entry.instruction.relabel rename }⟩

/-- A fault with a new name for the label that it reports, if it reports one. -/
def Fault.relabel (rename : String → String) : Fault → Fault
  | labelNotFound label => labelNotFound (rename label)
  | fault => fault

/-- A machine with a new name for the label that its fault reports. -/
def Machine.relabel (rename : String → String) (m : Machine) : Machine :=
  { m with fault := m.fault.map (Fault.relabel rename) }

variable {rename : String → String} {operation : Operation} {operands : List String}

theorem Operation.relabel_of_isJump (h : operation.isJump = true) :
    operation.relabel rename operands = operands.modifyHead rename :=
  if_pos h

theorem Operation.relabel_of_not_isJump (h : operation.isJump = false) :
    operation.relabel rename operands = operands := by
  rw [relabel, h]
  rfl

/-- The instructions of a program with new names stand where they stood. -/
theorem Program.get?_relabel (program : Program) (index : Nat) :
    (program.relabel rename).get? index =
      (program.get? index).map (Instruction.relabel rename) := by
  rw [get?, get?, relabel, List.getElem?_map, Option.map_map, Option.map_map]
  rfl

namespace Machine

variable {p : Program} {m : Machine}

/-- A machine without a fault reports no label. -/
theorem relabel_of_none (h : m.fault = none) : m.relabel rename = m := by
  cases m
  cases h
  rfl

/-- New names for the label of a fault are a disguise. -/
theorem disguise_relabel (rename : String → String) :
    Disguise (relabel rename) (Fault.relabel rename) where
  halted _ := rfl
  fault _ := rfl
  cycles _ := rfl
  change_with_fault _ _ := rfl
  rename_budgetExceeded := rfl

/-! ## Operands -/

theorem Computes.not_isJump {f : Int → Int → Int} {cost : UInt64} (h : Computes operation f cost) :
    operation.isJump = false := by
  cases h <;> rfl

theorem Jumps.isJump {zero : Bool} (h : Jumps operation zero) : operation.isJump = true := by
  cases h <;> rfl

/-- The check of a destination reports no label. -/
theorem Writable.relabel_eq {place : Nat} {fault : Fault}
    (h : Writable operation operands place (.error fault)) : fault.relabel rename = fault := by
  cases h <;> rfl

/-- The check of a source reports no label. -/
theorem Readable.relabel_eq {registers : Registers} {place : Nat} {fault : Fault}
    (h : Readable registers operation operands place (.error fault)) :
    fault.relabel rename = fault := by
  cases h <;> rfl

/-- A new name stands where the old name stood. -/
theorem carriers_relabel (hrename : Function.Injective rename) (p : Program) (label : String) :
    carriers (p.relabel rename) (rename label) = carriers p label := by
  ext index
  constructor
  · rintro ⟨_, hget, hlabel⟩
    rw [Program.get?_relabel] at hget
    obtain ⟨instruction, hold, rfl⟩ := Option.map_eq_some_iff.1 hget
    exact ⟨instruction, hold, Option.map_injective hrename hlabel⟩
  · rintro ⟨instruction, hget, hlabel⟩
    refine ⟨instruction.relabel rename, ?_, ?_⟩
    · rw [Program.get?_relabel, hget, Option.map_some]
    · rw [Instruction.relabel, hlabel, Option.map_some]

/-- The search for a label finds its new name where it found the old one. -/
theorem Target.relabel {outcome : Except Fault Nat} (hrename : Function.Injective rename)
    (h : Target p operation operands outcome) :
    Target (p.relabel rename) operation (operands.modifyHead rename)
      (outcome.mapError (Fault.relabel rename)) := by
  have hfirst : (operands.modifyHead rename)[0]? = operands[0]?.map rename := by
    cases operands <;> rfl
  cases h with
  | missing h =>
      rw [h, Option.map_none] at hfirst
      exact .missing hfirst
  | notFound h hnone =>
      rw [h, Option.map_some] at hfirst
      exact .notFound hfirst (by rwa [carriers_relabel hrename])
  | found h hleast =>
      rw [h, Option.map_some] at hfirst
      exact .found hfirst (by rwa [carriers_relabel hrename])

/-! ## Steps and runs -/

/-- An operation does the same with the new names. -/
theorem Performs.relabel {outcome : Except Fault Machine} (hrename : Function.Injective rename)
    (h : Performs p m operation operands outcome) :
    Performs (p.relabel rename) (m.relabel rename) operation (operation.relabel rename operands)
      ((outcome.map (Machine.relabel rename)).mapError (Fault.relabel rename)) := by
  cases h with
  | unwritable hop htarget =>
      rw [Operation.relabel_of_not_isJump hop.not_isJump]
      rw [Except.map, Except.mapError, htarget.relabel_eq]
      exact .unwritable hop htarget
  | unreadable hop htarget hsource =>
      rw [Operation.relabel_of_not_isJump hop.not_isJump]
      rw [Except.map, Except.mapError, hsource.relabel_eq]
      exact .unreadable hop htarget hsource
  | computed hop htarget hsource hresult hset =>
      rw [Operation.relabel_of_not_isJump hop.not_isJump]
      exact .computed hop htarget hsource hresult hset
  | leftUnreadable hleft =>
      rw [Except.map, Except.mapError, hleft.relabel_eq]
      exact .leftUnreadable hleft
  | rightUnreadable hleft hright =>
      rw [Except.map, Except.mapError, hright.relabel_eq]
      exact .rightUnreadable hleft hright
  | compared hleft hright => exact .compared hleft hright
  | lost hop htarget =>
      rw [Operation.relabel_of_isJump hop.isJump]
      exact .lost hop (htarget.relabel hrename)
  | jumped hop htarget =>
      rw [Operation.relabel_of_isJump hop.isJump]
      exact .jumped hop (htarget.relabel hrename)
  | passed hop => exact .passed hop
  | unpushable hsource =>
      rw [Except.map, Except.mapError, hsource.relabel_eq]
      exact .unpushable hsource
  | pushed hsource => exact .pushed hsource
  | underflow hstack => exact .underflow hstack
  | unpoppable hstack htarget =>
      rw [Except.map, Except.mapError, htarget.relabel_eq]
      exact .unpoppable hstack htarget
  | popped hstack htarget hset => exact .popped hstack htarget hset
  | unhaltable hsource =>
      rw [Except.map, Except.mapError, hsource.relabel_eq]
      exact .unhaltable hsource
  | halted hsource => exact .halted hsource

/-- So does an instruction. -/
theorem Executes.relabel {outcome : Except Fault Machine} (hrename : Function.Injective rename)
    (h : Executes p m outcome) :
    Executes (p.relabel rename) (m.relabel rename)
      ((outcome.map (Machine.relabel rename)).mapError (Fault.relabel rename)) := by
  have hget : ∀ {instruction : Instruction}, p.get? m.pc = some instruction →
      (p.relabel rename).get? m.pc = some (instruction.relabel rename) := by
    intro instruction hold
    rw [Program.get?_relabel, hold, Option.map_some]
  cases h with
  | ended h =>
      have hend : (p.relabel rename).size ≤ m.pc := by
        rwa [← Program.get?_eq_none_iff, Program.get?_relabel, Option.map_eq_none_iff,
          Program.get?_eq_none_iff]
      exact .ended hend
  | bare h hopcode => exact .bare (hget h) hopcode
  | unknown h hopcode => exact .unknown (hget h) hopcode
  | @known instruction operation _ h hopcode hperforms =>
      have hoperands : (instruction.relabel rename).operands =
          operation.relabel rename instruction.operands := by
        rw [Instruction.relabel, hopcode]
      refine .known (hget h) hopcode ?_
      rw [hoperands]
      exact hperforms.relabel hrename

/-- A step goes as before. -/
theorem step_relabel (hrename : Function.Injective rename) (p : Program) (m : Machine) :
    (m.relabel rename).step (p.relabel rename) = (m.step p).relabel rename :=
  (disguise_relabel rename).step_eq fun _ h => h.relabel hrename

/-- **Labels may be renamed.** With other names for its labels, different ones for different labels, a
program runs any machine without a fault as before. Only a label that was not found is reported by its new
name. -/
theorem run_relabel (hrename : Function.Injective rename) (p : Program) (hm : m.fault = none)
    (budget : Option UInt64) :
    m.run (p.relabel rename) budget = (m.run p budget).relabel rename := by
  have hrun : (m.relabel rename).run (p.relabel rename) budget =
      (m.run p budget).relabel rename :=
    (disguise_relabel rename).run_eq fun transition _ => step_relabel hrename p transition.before
  rwa [relabel_of_none hm] at hrun

/-- A label may take the name of a register, and the register keeps it: here the jump to nowhere is to the
label `AX` instead of `end`, and the loop still counts `AX` down. -/
theorem run_relabel_swap :
    Function.Injective (Equiv.swap "end" "AX") ∧ (fresh.withRegister .ax 2).fault = none ∧
      (fresh.withRegister .ax 2).run
          ((Program.parse "loop: SUB AX, 1\nCMP AX, 0\nJNE loop\nJMP end").relabel
            (Equiv.swap "end" "AX")) none =
        ((fresh.withRegister .ax 2).run
          (.parse "loop: SUB AX, 1\nCMP AX, 0\nJNE loop\nJMP end") none).relabel
            (Equiv.swap "end" "AX") :=
  ⟨(Equiv.swap "end" "AX").injective, rfl,
    run_relabel (Equiv.swap "end" "AX").injective _ rfl none⟩

end Machine

end RegisterMachine
