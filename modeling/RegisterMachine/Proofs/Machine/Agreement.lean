/-
# Programs that agree where they are executed

A run looks at the instructions that it executes, and at all labels when it jumps. Whatever else two
programs differ in, a run of the one is a run of the other.

* `Machine.step_eq_of_get?_eq` : a step that finds the same instruction and the same label does the same;
* `Machine.run_eq_of_forall_step_eq` : a run of which another program takes each step is its run as well;
* `Machine.executed` : the places at which a run executes instructions;
* `Program.AgreesOn` : programs with the same labels, and the same instructions at certain places;
* `Program.replace` : a program with another instruction at one place;
* `Machine.run_eq_of_agreesOn` : instructions that are not executed do not matter, but for their labels.
-/
import RegisterMachine.Proofs.Machine.Disguise
import RegisterMachine.Proofs.Machine.Lockstep

namespace RegisterMachine

variable {p q : Program} {m : Machine} {budget : Option UInt64}

/-! ## Steps and runs of two programs -/

namespace Machine

/-- A machine at the same place as another one that it follows is this one. -/
theorem Follows.eq_of_same_place {other : Machine} (h : Follows Eq m other) : other = m := by
  rcases h with ⟨hplace⟩
  rw [← hplace]
  rfl

/-- A step that finds the same instruction does the same, if the label that it seeks leads to the same
place. -/
theorem step_eq_of_get?_eq (hget : q.get? m.pc = p.get? m.pc)
    (hleads : ∀ label, m.Seeks p label → LeadsAlike Eq p q label) : m.step q = m.step p := by
  have hfollows : Follows Eq (m.step p) ((m.moveTo m.pc).step q) := follows_step rfl hget rfl hleads
  exact hfollows.eq_of_same_place

/-- A run of which another program takes each step is a run of that program. -/
theorem run_eq_of_forall_step_eq
    (h : ∀ transition ∈ m.transitions p budget,
      transition.before.step q = transition.before.step p) :
    m.run q budget = m.run p budget :=
  Disguise.refl.run_eq h

/-- The places at which a run executes instructions: where the program counter is before a step. -/
def executed (m : Machine) (program : Program) (budget : Option UInt64) : Set Nat :=
  {place | ∃ transition ∈ m.transitions program budget, transition.before.pc = place}

end Machine

/-! ## Programs with the same labels -/

/-- An instruction without its label. -/
def Instruction.body (instruction : Instruction) : Option Opcode × List String :=
  (instruction.opcode, instruction.operands)

namespace Program

/-- Two programs of the same size with the same labels everywhere, and the same opcodes and operands at
certain places. -/
structure AgreesOn (p q : Program) (places : Set Nat) : Prop where
  labels : q.instructions.map Instruction.label = p.instructions.map Instruction.label
  bodies : ∀ place ∈ places,
    (q.get? place).map Instruction.body = (p.get? place).map Instruction.body

/-- A program with another instruction at one place. -/
def replace (program : Program) (place : Nat) (instruction : Instruction) : Program :=
  ⟨program.entries.modify place fun entry => { entry with instruction }⟩

/-- The label at a place. -/
theorem getElem?_labels (program : Program) (place : Nat) :
    (program.instructions.map Instruction.label)[place]? =
      (program.get? place).map Instruction.label := by
  rw [List.getElem?_map, get?_eq_getElem?]

namespace AgreesOn

variable {places : Set Nat}

/-- The label at a place is the same in both programs. -/
theorem label_eq (h : p.AgreesOn q places) (place : Nat) :
    (q.get? place).map Instruction.label = (p.get? place).map Instruction.label := by
  rw [← getElem?_labels, ← getElem?_labels, h.labels]

/-- At the places where two programs agree, they have the same instruction, or none. -/
theorem get?_eq (h : p.AgreesOn q places) {place : Nat} (hmem : place ∈ places) :
    q.get? place = p.get? place := by
  have hlabel := h.label_eq place
  have hbody := h.bodies place hmem
  cases hp : p.get? place with
  | none =>
      rw [hp] at hlabel
      exact Option.map_eq_none_iff.1 hlabel
  | some first =>
      rw [hp] at hlabel hbody
      obtain ⟨second, hq, hsame⟩ := Option.map_eq_some_iff.1 hlabel
      rw [hq, Option.map_some, Option.map_some, Option.some_inj, Instruction.body, Instruction.body,
        Prod.mk.injEq] at hbody
      cases first
      cases second
      obtain ⟨rfl, rfl⟩ := hbody
      subst hsame
      exact hq

/-- Each label leads to the same place. -/
theorem leadsAlike (h : p.AgreesOn q places) (label : String) : LeadsAlike Eq p q label := by
  have hcarriers : Machine.carriers q label = Machine.carriers p label := by
    ext place
    have hlabel := h.label_eq place
    constructor
    · rintro ⟨second, hq, hcarries⟩
      rw [hq] at hlabel
      obtain ⟨first, hp, hsame⟩ := Option.map_eq_some_iff.1 hlabel.symm
      exact ⟨first, hp, hsame.trans hcarries⟩
    · rintro ⟨first, hp, hcarries⟩
      rw [hp] at hlabel
      obtain ⟨second, hq, hsame⟩ := Option.map_eq_some_iff.1 hlabel
      exact ⟨second, hq, hsame.trans hcarries⟩
  rcases Machine.isLeast_carriers_or_forall_notMem p label with ⟨index, hleast⟩ | hnone
  · exact .found hleast (hcarriers ▸ hleast) rfl
  · exact .nowhere hnone (hcarriers ▸ hnone)

/-- A run that stays where two programs agree is the same with both. -/
theorem run_eq (h : p.AgreesOn q (m.executed p budget)) : m.run q budget = m.run p budget := by
  apply Machine.run_eq_of_forall_step_eq
  intro transition hmem
  apply Machine.step_eq_of_get?_eq
  · exact h.get?_eq ⟨transition, hmem, rfl⟩
  · exact fun label _ => h.leadsAlike label

end AgreesOn

/-- Elsewhere the instructions stay. -/
theorem get?_replace_of_ne (program : Program) (instruction : Instruction) {place other : Nat}
    (h : other ≠ place) : (program.replace place instruction).get? other = program.get? other := by
  rw [get?, get?, replace, List.getElem?_modify]
  simp [Ne.symm h]

/-- At the place itself is the other instruction, if there was one. -/
theorem get?_replace_self (program : Program) (instruction : Instruction) (place : Nat) :
    (program.replace place instruction).get? place =
      (program.get? place).map fun _ => instruction := by
  rw [get?, get?, replace, List.getElem?_modify]
  simp [Function.comp_def]

/-- A program agrees everywhere else with one that has another instruction with the same label at one
place. -/
theorem agreesOn_replace {place : Nat} {instruction : Instruction} {places : Set Nat}
    (hmem : place ∉ places) (hlabel : ∀ old ∈ p.get? place, instruction.label = old.label) :
    p.AgreesOn (p.replace place instruction) places := by
  constructor
  · apply List.ext_getElem?
    intro other
    rw [getElem?_labels, getElem?_labels]
    by_cases hother : other = place
    · subst hother
      rw [get?_replace_self]
      cases hold : p.get? other with
      | none => rfl
      | some old =>
          show some instruction.label = some old.label
          rw [hlabel old hold]
    · rw [get?_replace_of_ne p instruction hother]
  · intro other hother
    have hne : other ≠ place := fun heq => hmem (heq ▸ hother)
    rw [get?_replace_of_ne p instruction hne]

end Program

/-! ## Instructions that are not executed -/

namespace Machine

/-- **Only the instructions that are executed matter.** A program with the same labels, and the same opcodes
and operands wherever a run executes an instruction, has the same run. So an instruction that is not executed
may be any other one with its label: of an unknown opcode, without operands, or a jump to nowhere. -/
theorem run_eq_of_agreesOn (p : Program) (m : Machine) (budget : Option UInt64) :
    (∀ q : Program, p.AgreesOn q (m.executed p budget) → m.run q budget = m.run p budget) ∧
    ∀ (place : Nat) (instruction : Instruction), place ∉ m.executed p budget →
      (∀ old ∈ p.get? place, instruction.label = old.label) →
        m.run (p.replace place instruction) budget = m.run p budget := by
  refine ⟨fun q h => h.run_eq, ?_⟩
  intro place instruction hmem hlabel
  exact (Program.agreesOn_replace hmem hlabel).run_eq

/-- A jump over an instruction makes it possible to replace it by any other one with its label: here a
multiplication by an unknown opcode, and then by a jump to nowhere in a program with other source lines. -/
theorem run_eq_of_agreesOn_jump :
    let p := Program.parse "JMP end\nodd: MUL AX, 2\n\nend: HLT 7"
    fresh.run (p.replace 1 ⟨some (.unknown "NOP"), [], some "odd"⟩) none = fresh.run p none ∧
      fresh.run (.parse "JMP end\nodd: JMP nowhere\nend: HLT 7") none = fresh.run p none := by
  intro p
  constructor
  · apply (run_eq_of_agreesOn p fresh none).2
    · rintro ⟨transition, hmem, hpc⟩
      revert transition
      decide +kernel
    · decide +kernel
  · apply (run_eq_of_agreesOn p fresh none).1
    refine ⟨by decide +kernel, ?_⟩
    rintro _ ⟨transition, hmem, rfl⟩
    revert transition
    decide +kernel

end Machine

end RegisterMachine
