/-
# The line that is reported

When a run fails, the report names a line of the source text. This is the line of the instruction that
was executed last and that failed: the line by itself says this one instruction.

* `Console.IsToBlame` : the line that a fault comes from;
* `Console.ending_of_ofInstruction` : what the report says about such a fault;
* `Console.pc_le_size_and_line_of_fault` : where the program counter can be, and which line is reported.

That the program ended, or took too many cycles, is not the fault of a line, and none is reported.
-/
import RegisterMachine.Proofs.Assembly.SourceLines
import RegisterMachine.Proofs.Console.Commands
import RegisterMachine.Proofs.Machine.Counter

namespace RegisterMachine.Console

variable {source : String} {a b : Word} {budget : Option UInt64}

/-! ## Lines and faults -/

/-- A line of a source text is to blame for a fault of a machine that executes this text. -/
structure IsToBlame (source : String) (before : Machine) (fault : Fault) (number : Nat) : Prop where
  /-- The text has a line with this number. -/
  number_mem : 1 ≤ number ∧ number ≤ (Text.lines source.toList).length
  /-- The line by itself is one instruction, and this is the instruction that the machine is on. -/
  exists_instruction : ∃ line instruction, (Text.lines source.toList)[number - 1]? = some line ∧
    Program.parse (String.ofList line) = .ofInstructions [instruction] ∧
    (Program.parse source).get? before.pc = some instruction
  /-- To execute it has this fault. -/
  fails : before.execute (.parse source) = .error fault

/-- The text that reports a fault and its line. -/
def blameText (fault : Fault) (number : Nat) : String :=
  "error:     " ++ fault.message ++ " (line " ++ Text.numeral number ++ ")"

/-- A fault of an instruction is reported with the line of the instruction. -/
theorem ending_of_ofInstruction {program : Program} {m : Machine} {fault : Fault} {number : Nat}
    (hfault : m.fault = some fault) (h : fault.OfInstruction)
    (hline : program.sourceLine? m.pc = some number) : ending program m = blameText fault number := by
  have hblamed : faultLine? program m fault = some number := by
    obtain ⟨hended, hexceeded⟩ := h
    rw [← hline]
    cases fault with
    | endedWithoutHalt => exact absurd rfl hended
    | budgetExceeded => exact absurd rfl hexceeded
    | _ => rfl
  simp only [ending, hfault, hblamed]
  rfl

/-- The end of a run is the last line of its report. -/
theorem getLast?_report (program : Program) (m : Machine) :
    (report program m).getLast? = some (ending program m) := rfl

/-! ## Runs from the start of a program -/

/-- A run starts in the program. -/
theorem pc_loaded_le (a b : Word) (program : Program) : (loaded a b).pc ≤ program.size :=
  Nat.zero_le _

/-- The program counter stays in the program or at its end in all steps of a run. -/
theorem pc_le_of_mem_transitions {transition : Machine.Transition}
    (h : transition ∈ (loaded a b).transitions (.parse source) budget) :
    transition.before.pc ≤ (Program.parse source).size ∧
      transition.after.pc ≤ (Program.parse source).size :=
  Machine.transitions_of_step (P := fun m => m.pc ≤ (Program.parse source).size)
    (fun _ => Machine.pc_step_le) (pc_loaded_le a b _) h

/-- It is there at the end of a run as well. -/
theorem pc_finished_le : (finished source a b budget).pc ≤ (Program.parse source).size :=
  Machine.run_of_step (P := fun m => m.pc ≤ (Program.parse source).size)
    (fun _ => Machine.pc_step_le) (fun _ => id) (pc_loaded_le a b _)

/-- The last step of a run that fails by it. -/
theorem exists_last_step {fault : Fault} (h : (finished source a b budget).fault = some fault)
    (hne : fault ≠ .budgetExceeded) :
    ∃ before, ((loaded a b).transitions (.parse source) budget).getLast? =
        some ⟨before, finished source a b budget⟩ ∧
      before.isTerminal = false ∧ before.pc ≤ (Program.parse source).size ∧
      finished source a b budget = before.step (.parse source) := by
  obtain ⟨n, htakes, hgoes, hrun⟩ := Machine.exists_takes_of_fault rfl h hne
  have hlast : finished source a b budget = (loaded a b).after (.parse source) (n + 1) := hrun
  refine ⟨(loaded a b).after (.parse source) n, ?_, hgoes,
    Machine.pc_after_le (pc_loaded_le a b _) n, hlast⟩
  rw [hlast]
  exact htakes.getLast?_transitions rfl

/-- **The line that is reported is the line at fault.** From the start of a program to the end of its run
the program counter stays in the program or at its end, and a run that finds no instruction left ends
there. Any other fault but an exceeded budget comes from the instruction that was executed last: the
program counter is still on it, and the report names the line that says this instruction. -/
theorem pc_le_size_and_line_of_fault (source : String) (a b : Word) (budget : Option UInt64) :
    (∀ transition ∈ (loaded a b).transitions (.parse source) budget,
      transition.before.pc ≤ (Program.parse source).size ∧
        transition.after.pc ≤ (Program.parse source).size) ∧
    (finished source a b budget).pc ≤ (Program.parse source).size ∧
    ((finished source a b budget).fault = some .endedWithoutHalt →
      (finished source a b budget).pc = (Program.parse source).size) ∧
    ∀ fault, (finished source a b budget).fault = some fault → fault ≠ .endedWithoutHalt →
      fault ≠ .budgetExceeded →
        ∃ before number,
          ((loaded a b).transitions (.parse source) budget).getLast? =
            some ⟨before, finished source a b budget⟩ ∧
          (finished source a b budget).pc = before.pc ∧
          (Program.parse source).sourceLine? (finished source a b budget).pc = some number ∧
          IsToBlame source before fault number ∧
          (∀ trace, (runResponse source a b budget trace).printed.getLast? =
            some (blameText fault number)) ∧
          ∀ level trace, level.inputs = ⟨a, b⟩ → some level.budget = budget →
            blameText fault number ∈ (levelResponse level source trace).printed := by
  refine ⟨fun transition h => pc_le_of_mem_transitions h, pc_finished_le, ?_, ?_⟩
  · intro hended
    obtain ⟨before, -, hgoes, hpc, hlast⟩ := exists_last_step hended (by decide)
    rw [hlast] at hended ⊢
    rw [Machine.pc_step_of_fault hgoes hended]
    exact Machine.pc_of_endedWithoutHalt hgoes hpc hended
  · intro fault hfault hended hexceeded
    obtain ⟨before, htransition, hgoes, -, hlast⟩ := exists_last_step hfault hexceeded
    have hstep : (before.step (.parse source)).fault = some fault := hlast ▸ hfault
    have hpc : (finished source a b budget).pc = before.pc := by
      rw [hlast]
      exact Machine.pc_step_of_fault hgoes hstep
    obtain ⟨instruction, hget⟩ := Machine.exists_get?_of_fault hgoes hstep hended
    obtain ⟨number, line, hnumber, hpos, hline, hparse⟩ := Program.exists_line_of_get? hget
    rw [← hpc] at hnumber
    have hlength := (List.getElem?_eq_some_iff.1 hline).1
    have hending := ending_of_ofInstruction hfault ⟨hended, hexceeded⟩ hnumber
    refine ⟨before, number, htransition, hpc, hnumber, ?_, ?_, ?_⟩
    · exact ⟨⟨hpos, by omega⟩, ⟨line, instruction, hline, hparse, hget⟩,
        Machine.execute_of_fault hgoes hstep⟩
    · intro trace
      rw [printed_runResponse, List.getLast?_append, getLast?_report, hending]
      rfl
    · intro level trace hinputs hbudget
      have hmem : blameText fault number ∈ report (.parse source) (finished source a b budget) := by
        rw [← hending]
        exact List.mem_of_getLast? (getLast?_report _ _)
      rw [printed_levelResponse, hinputs, hbudget]
      exact List.mem_cons_of_mem _
        (List.mem_append_right _ (List.mem_append_left _ hmem))

/-- A program without an instruction to halt runs to its end. To pop a word from the empty stack on the
third line is reported with this line, by itself and at a level, whether the steps are shown or not. -/
theorem line_of_stack_underflow :
    (finished "MOV AX, 1" 3 4 (some 5)).pc = (Program.parse "MOV AX, 1").size ∧
    (∃ before, IsToBlame "MOV AX, 1\n\nPOP AX" before .stackUnderflow 3) ∧
    (runResponse "MOV AX, 1\n\nPOP AX" 3 4 (some 5) true).printed.getLast? =
      some "error:     Stack underflow (line 3)" ∧
    "error:     Stack underflow (line 3)" ∈
      (levelResponse ⟨1, "Addition", "Add Beam", ⟨3, 4⟩, 5, []⟩ "MOV AX, 1\n\nPOP AX" false).printed := by
  obtain ⟨-, -, hend, -⟩ := pc_le_size_and_line_of_fault "MOV AX, 1" 3 4 (some 5)
  obtain ⟨-, -, -, hline⟩ := pc_le_size_and_line_of_fault "MOV AX, 1\n\nPOP AX" 3 4 (some 5)
  obtain ⟨before, number, -, -, hnumber, hblame, hrun, hlevel⟩ :=
    hline .stackUnderflow (by decide +kernel) (by decide) (by decide)
  have hthree : (Program.parse "MOV AX, 1\n\nPOP AX").sourceLine?
      (finished "MOV AX, 1\n\nPOP AX" 3 4 (some 5)).pc = some 3 := by
    decide +kernel
  have hsame : number = 3 := Option.some.inj (hnumber.symm.trans hthree)
  have htext : blameText .stackUnderflow number = "error:     Stack underflow (line 3)" := by
    rw [hsame]
    decide +kernel
  rw [← htext]
  exact ⟨hend (by decide +kernel), ⟨before, hsame ▸ hblame⟩, hrun true, hlevel _ false rfl rfl⟩

end RegisterMachine.Console
