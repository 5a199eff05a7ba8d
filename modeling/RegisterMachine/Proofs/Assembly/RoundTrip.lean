/-
# Reading a listing

A program that was read and is listed is read back: the same instructions in the same order, each on
the line on which the listing has it.

* `Program.parse_listing_ofInstructions` : a program of well-formed instructions, one on each line, is
  read from its listing;
* `Program.parse_text` : so is a well-formed instruction from the line that lists it;
* `Program.wellFormed_of_mem_parse` : the instructions of any text are well formed.
-/
import RegisterMachine.Proofs.Assembly.SourceLines
import RegisterMachine.Proofs.Assembly.WellFormed

namespace RegisterMachine

open Text

namespace Program

/-! ## Programs of well-formed instructions -/

theorem length_instructions (program : Program) : program.instructions.length = program.size :=
  List.length_map _

/-- A listing tells nothing of source lines. -/
theorem listing_ofInstructions_instructions (program : Program) :
    (ofInstructions program.instructions).listing = program.listing := by
  unfold listing
  rw [instructions_ofInstructions]

/-- A listing has a line for each instruction, and an empty line at its end. -/
theorem lines_listing {program : Program}
    (h : ∀ instruction ∈ program.instructions, instruction.WellFormed) :
    lines program.listing.toList = program.instructions.map Instruction.chars ++ [[]] := by
  have hline : ∀ line ∈ program.instructions.map Instruction.chars, '\n' ∉ line := by
    intro line hmem
    obtain ⟨instruction, hinstruction, rfl⟩ := List.mem_map.1 hmem
    exact (h instruction hinstruction).noLineFeed
  rw [← lines_flatMap hline, List.flatMap_map, listing, String.toList_ofList]

/-- Numbered lines that list well-formed instructions hold these instructions. -/
theorem ofNumbered_chars {instructions : List Instruction}
    (h : ∀ instruction ∈ instructions, instruction.WellFormed) (first : Nat) :
    ofNumbered ((instructions.map Instruction.chars ++ [[]]).zipIdx first) =
      ⟨(instructions.zipIdx first).map fun (instruction, number) => ⟨number, instruction⟩⟩ := by
  induction instructions generalizing first with
  | nil => rfl
  | cons instruction instructions ih =>
      have hline := Instruction.ofLine?_chars (h instruction List.mem_cons_self)
      have hrest := ih (fun i hi => h i (List.mem_cons_of_mem instruction hi)) (first + 1)
      unfold ofNumbered at hrest ⊢
      rw [Program.mk.injEq] at hrest ⊢
      rw [List.map_cons, List.cons_append, List.zipIdx_cons, List.zipIdx_cons, List.map_cons,
        ← hrest, List.filterMap_cons_some]
      simp [hline]

/-- A program of well-formed instructions, one on each line, is read from its listing. -/
theorem parse_listing_ofInstructions {instructions : List Instruction}
    (h : ∀ instruction ∈ instructions, instruction.WellFormed) :
    parse (ofInstructions instructions).listing = ofInstructions instructions := by
  have hwell : ∀ i ∈ (ofInstructions instructions).instructions, i.WellFormed := by
    rwa [instructions_ofInstructions]
  rw [parse, lines_listing hwell, instructions_ofInstructions, ofNumbered_chars h]
  rfl

/-- A well-formed instruction alone on its line is the whole program. -/
theorem parse_text {instruction : Instruction} (h : instruction.WellFormed) :
    parse instruction.text = ofInstructions [instruction] :=
  parse_line h.noLineFeed (Instruction.ofLine?_chars h)

/-! ## Programs that were read -/

/-- The instructions of a text are well formed. -/
theorem wellFormed_of_mem_parse {source : String} {instruction : Instruction}
    (h : instruction ∈ (parse source).instructions) : instruction.WellFormed := by
  obtain ⟨entry, hentry, rfl⟩ := List.mem_map.1 h
  obtain ⟨-, line, hline, hholds⟩ := mem_parse_iff.1 hentry
  exact Instruction.wellFormed_of_ofLine? hholds
    (lineFeed_notMem_of_mem_lines (List.mem_of_getElem? hline))

/-- The source lines of a program made of instructions count from one on. -/
theorem sourceLine?_ofInstructions (instructions : List Instruction) (index : Nat) :
    (ofInstructions instructions).sourceLine? index =
      if index < instructions.length then some (index + 1) else none := by
  unfold sourceLine? ofInstructions
  rw [List.getElem?_map, List.getElem?_zipIdx]
  split
  · next h =>
      rw [List.getElem?_eq_getElem h]
      simp [Nat.add_comm]
  · next h =>
      rw [List.getElem?_eq_none (Nat.le_of_not_lt h)]
      rfl

/-- **The listing of a program that was read is read back.** It gives the same instructions, on lines
that count from one on, and is listed in the same way again. -/
theorem parse_listing_parse (source : String) :
    parse (parse source).listing = ofInstructions (parse source).instructions ∧
    (parse (parse source).listing).instructions = (parse source).instructions ∧
    (∀ index, (parse (parse source).listing).sourceLine? index =
      if index < (parse source).size then some (index + 1) else none) ∧
    (parse (parse source).listing).listing = (parse source).listing := by
  have hread : parse (parse source).listing = ofInstructions (parse source).instructions := by
    rw [← listing_ofInstructions_instructions]
    exact parse_listing_ofInstructions fun instruction h => wellFormed_of_mem_parse h
  refine ⟨hread, ?_, ?_, ?_⟩
  · rw [hread, instructions_ofInstructions]
  · intro index
    rw [hread, sourceLine?_ofInstructions, length_instructions]
  · rw [hread, listing_ofInstructions_instructions]

end Program

end RegisterMachine
