/-
# Programs

A program is a sequence of instructions, each with the number of the source line that it stands for.

* `Program.parse` : the program of a source text, which every text has;
* `Program.ofInstructions` : a program written by hand, one instruction a line;
* `Program.listing` : a program as text, one instruction a line;
* `Program.labelIndex?` : where a label leads to, the first instruction that carries it.
-/
import RegisterMachine.Assembly.Instruction

namespace RegisterMachine

/-- An instruction and its source line, counted from one. -/
structure Entry where
  line : Nat
  instruction : Instruction
  deriving DecidableEq, Repr

/-- Instructions in the order in which they are executed. -/
structure Program where
  entries : List Entry
  deriving DecidableEq, Repr

namespace Program

/-! ## Building a program -/

/-- The instructions of numbered lines. -/
def ofNumbered (lines : List (List Char × Nat)) : Program :=
  ⟨lines.filterMap fun (line, number) => (Instruction.ofLine? line).map (Entry.mk number)⟩

/-- The program that a text says. -/
def parse (source : String) : Program :=
  ofNumbered ((Text.lines source.toList).zipIdx 1)

/-- The program of given instructions, the first of them on line one. -/
def ofInstructions (instructions : List Instruction) : Program :=
  ⟨(instructions.zipIdx 1).map fun (instruction, number) => ⟨number, instruction⟩⟩

/-! ## Looking into a program -/

/-- The instructions without their lines. -/
def instructions (program : Program) : List Instruction :=
  program.entries.map Entry.instruction

/-- The number of instructions. -/
def size (program : Program) : Nat :=
  program.entries.length

/-- Whether there is no instruction at all. -/
def isEmpty (program : Program) : Bool :=
  program.entries.isEmpty

/-- The instruction at an index, counted from zero. -/
def get? (program : Program) (index : Nat) : Option Instruction :=
  program.entries[index]?.map Entry.instruction

/-- The source line of the instruction at an index. -/
def sourceLine? (program : Program) (index : Nat) : Option Nat :=
  program.entries[index]?.map Entry.line

/-- The index of the first instruction with the given label. -/
def labelIndex? (program : Program) (label : String) : Option Nat :=
  program.entries.findIdx? fun entry => decide (entry.instruction.label = some label)

@[simp] theorem instructions_ofInstructions (instructions : List Instruction) :
    (ofInstructions instructions).instructions = instructions := by
  simp only [Program.instructions, ofInstructions, List.map_map]
  exact List.zipIdx_map_fst 1 instructions

theorem get?_eq_getElem? (program : Program) (index : Nat) :
    program.get? index = program.instructions[index]? := by
  simp [get?, instructions]

/-- Beyond the last instruction there is none. -/
theorem get?_eq_none_iff {program : Program} {index : Nat} :
    program.get? index = none ↔ program.size ≤ index := by
  simp [get?, size]

/-! ## Listing -/

/-- A program as text: each instruction on a line of its own, each line ended by a line feed. -/
def listing (program : Program) : String :=
  String.ofList (program.instructions.flatMap fun instruction => instruction.chars ++ ['\n'])

end Program

end RegisterMachine
