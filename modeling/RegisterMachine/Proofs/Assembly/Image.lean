/-
# The programs that texts say

A program can be put together by hand from any opcodes, operands and labels, also from such as no line
says. Those that some text says are the programs of well-formed instructions, and these are also the ones
that are read back from their own listing.

* `Instruction.WellFormed` is decidable, so that an instruction can be tested for it;
* `Program.wellFormed_of_parse_eq` : a program that is read, from whatever text, is well formed;
* `Program.parse_listing_eq_iff_wellFormed` : the programs that are read back are the well-formed ones.

No instruction makes up for another one: an ill-formed instruction spoils the program, whatever stands on
the lines around it, because the instructions that come out of reading are well formed one by one.
-/
import RegisterMachine.Proofs.Assembly.RoundTrip

namespace RegisterMachine

open Text

/-! ## Testing an instruction -/

-- only the characters of a text are tested: there is another way, which tries all characters there are
instance (text : List Char) : Decidable (IsWord text) :=
  decidable_of_iff (text ≠ [] ∧ text.all (fun c => !isSeparator c) = true) (by simp [IsWord])

theorem all_not_isBlank_iff {edge : Option Char} :
    edge.all (fun c => !isBlank c) = true ↔ ∀ c ∈ edge, isBlank c = false := by
  cases edge <;> simp

instance (text : List Char) : Decidable (Trimmed text) :=
  decidable_of_iff
    (text.head?.all (fun c => !isBlank c) = true ∧ text.getLast?.all (fun c => !isBlank c) = true)
    ⟨fun h => ⟨all_not_isBlank_iff.1 h.1, all_not_isBlank_iff.1 h.2⟩,
      fun h => ⟨all_not_isBlank_iff.2 h.head, all_not_isBlank_iff.2 h.last⟩⟩

namespace Instruction

instance (label : Option String) (word : List Char) : Decidable (IsWordAfter label word) :=
  decidable_of_iff (IsWord word ∧ ';' ∉ word ∧ (label = none → ':' ∉ word))
    ⟨fun h => ⟨h.1, h.2.1, h.2.2⟩, fun h => ⟨h.isWord, h.noComment, h.noLabel⟩⟩

instance (label : List Char) : Decidable (IsLabel label) :=
  decidable_of_iff (Trimmed label ∧ ':' ∉ label ∧ ';' ∉ label ∧ '\n' ∉ label)
    ⟨fun h => ⟨h.1, h.2.1, h.2.2.1, h.2.2.2⟩,
      fun h => ⟨h.trimmed, h.noColon, h.noComment, h.noLineFeed⟩⟩

instance : DecidablePred WellFormed := fun instruction =>
  decidable_of_iff
    ((instruction.opcode = none → instruction.operands = [] ∧ instruction.label.isSome) ∧
      (∀ opcode ∈ instruction.opcode, Opcode.ofMnemonic opcode.mnemonic = opcode) ∧
      (∀ word ∈ instruction.words, IsWordAfter instruction.label word) ∧
      ∀ label ∈ instruction.label, IsLabel label.toList)
    ⟨fun h => ⟨h.1, h.2.1, h.2.2.1, h.2.2.2⟩, fun h => ⟨h.bare, h.opcode, h.words, h.label⟩⟩

end Instruction

namespace Program

/-! ## What can be read -/

variable {instructions : List Instruction}

/-- A program that is read from some text has well-formed instructions only. -/
theorem wellFormed_of_parse_eq {source : String} (h : parse source = ofInstructions instructions) :
    ∀ instruction ∈ instructions, instruction.WellFormed := by
  intro instruction hmem
  apply @wellFormed_of_mem_parse source
  rw [h, instructions_ofInstructions]
  exact hmem

/-- **The programs that texts say.** A program that is put together by hand is read back from its listing
exactly when all of its instructions are well formed. No other text says it either if they are not, and
what any text says is well formed. -/
theorem parse_listing_eq_iff_wellFormed (instructions : List Instruction) :
    (parse (ofInstructions instructions).listing = ofInstructions instructions ↔
      ∀ instruction ∈ instructions, instruction.WellFormed) ∧
    ((∃ source, parse source = ofInstructions instructions) ↔
      ∀ instruction ∈ instructions, instruction.WellFormed) ∧
    ∀ source, ∀ instruction ∈ (parse source).instructions, instruction.WellFormed := by
  refine ⟨⟨wellFormed_of_parse_eq, parse_listing_ofInstructions⟩, ⟨?_, ?_⟩, ?_⟩
  · rintro ⟨source, hsource⟩
    exact wellFormed_of_parse_eq hsource
  · intro h
    exact ⟨_, parse_listing_ofInstructions h⟩
  · intro source instruction hmem
    exact wellFormed_of_mem_parse hmem

/-- An unknown opcode with the name of an operation is listed like the operation, and so it is not read
back, from no text and on no line of a longer program. A label may be empty, and operands may hold colons
after it. -/
theorem parse_listing_unknown_mov :
    (¬ ∃ source, parse source =
      ofInstructions [⟨none, [], some "a"⟩, ⟨some (.unknown "MOV"), ["AX", "1"], none⟩]) ∧
    parse (ofInstructions [⟨some (.known .jmp), ["a:b", ":"], some ""⟩]).listing =
      ofInstructions [⟨some (.known .jmp), ["a:b", ":"], some ""⟩] ∧
    Instruction.WellFormed ⟨some (.unknown "SS"), ["1"], none⟩ := by
  refine ⟨?_, ?_, ?_⟩
  · rw [(parse_listing_eq_iff_wellFormed _).2.1]
    decide +kernel
  · apply (parse_listing_eq_iff_wellFormed _).1.2
    decide +kernel
  · apply (parse_listing_eq_iff_wellFormed []).2.2 "ß,1 ; a comment"
    decide +kernel

end Program

end RegisterMachine
