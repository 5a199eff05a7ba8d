/-
# The source lines of a program

Each instruction of a program that was read stands on one line of the text, the one whose number the
program keeps. The line says this instruction by itself, whatever the lines around it say.

* `Program.mem_parse_iff` : the instructions of a text and the lines on which they stand;
* `Program.parse_eq_of_map_ofLine?` : nothing but what its lines say matters for a text;
* `Program.parse_line` : a line by itself is the program of the instruction that it says;
* `Program.exists_line_of_get?` : the line of the instruction at an index;
* `Program.entries_parse_append` : the instructions of two texts, one after the other.
-/
import RegisterMachine.Assembly.Program
import RegisterMachine.Proofs.Text.Lines

namespace RegisterMachine

open Text

namespace Program

variable {source : String}

/-- The instructions of a text are those that its lines say, each numbered by its line. -/
theorem mem_parse_iff {entry : Entry} :
    entry ∈ (parse source).entries ↔
      1 ≤ entry.line ∧ ∃ line, (lines source.toList)[entry.line - 1]? = some line ∧
        Instruction.ofLine? line = some entry.instruction := by
  rw [parse, ofNumbered, List.mem_filterMap]
  constructor
  · rintro ⟨⟨line, number⟩, hmem, hread⟩
    obtain ⟨instruction, hholds, rfl⟩ := Option.map_eq_some_iff.1 hread
    obtain ⟨hpos, hline⟩ := List.mk_mem_zipIdx_iff_le_and_getElem?_sub.1 hmem
    exact ⟨hpos, line, hline, hholds⟩
  · rintro ⟨hpos, line, hline, hholds⟩
    refine ⟨(line, entry.line), List.mk_mem_zipIdx_iff_le_and_getElem?_sub.2 ⟨hpos, hline⟩, ?_⟩
    show (Instruction.ofLine? line).map (Entry.mk entry.line) = some entry
    rw [hholds]
    rfl

/-- Texts whose lines say the same are the same program. -/
theorem parse_eq_of_map_ofLine? {source other : String}
    (h : (lines source.toList).map Instruction.ofLine? =
      (lines other.toList).map Instruction.ofLine?) : parse source = parse other := by
  have hread : ∀ text : String, parse text =
      ⟨(((lines text.toList).map Instruction.ofLine?).zipIdx 1).filterMap
        fun (instruction, number) => instruction.map (Entry.mk number)⟩ := by
    intro text
    rw [List.zipIdx_map, List.filterMap_map]
    rfl
  rw [hread, hread, h]

/-- A line by itself is the program of the instruction that it says. -/
theorem parse_line {line : List Char} {instruction : Instruction} (hfeed : '\n' ∉ line)
    (h : Instruction.ofLine? line = some instruction) :
    parse (String.ofList line) = ofInstructions [instruction] := by
  rw [parse, String.toList_ofList, lines_of_notMem hfeed, ofNumbered]
  simp [h, ofInstructions]

/-- The instruction at an index stands on the line that the program keeps for it. -/
theorem exists_line_of_get? {index : Nat} {instruction : Instruction}
    (h : (parse source).get? index = some instruction) :
    ∃ number line, (parse source).sourceLine? index = some number ∧ 1 ≤ number ∧
      (lines source.toList)[number - 1]? = some line ∧
      parse (String.ofList line) = ofInstructions [instruction] := by
  obtain ⟨entry, hentry, rfl⟩ := Option.map_eq_some_iff.1 h
  obtain ⟨hpos, line, hline, hholds⟩ := mem_parse_iff.1 (List.mem_of_getElem? hentry)
  refine ⟨entry.line, line, ?_, hpos, hline, ?_⟩
  · rw [sourceLine?, hentry]
    rfl
  · exact parse_line (lineFeed_notMem_of_mem_lines (List.mem_of_getElem? hline)) hholds

/-! ## Texts one after the other -/

/-- A text that follows another one on a new line adds its instructions, and its lines are counted on. -/
theorem entries_parse_append (first second : String) :
    (parse (first ++ "\n" ++ second)).entries =
      (parse first).entries ++ (parse second).entries.map fun entry =>
        { entry with line := entry.line + (lines first.toList).length } := by
  have htext : (first ++ "\n" ++ second).toList = first.toList ++ '\n' :: second.toList := by
    rw [String.toList_append, String.toList_append, List.append_assoc]
    rfl
  have hlines : lines (first ++ "\n" ++ second).toList =
      lines first.toList ++ lines second.toList := by
    rw [htext, lines_append_lineFeed]
  have hnumbers : (lines second.toList).zipIdx (1 + (lines first.toList).length) =
      ((lines second.toList).zipIdx 1).map (Prod.map id (· + (lines first.toList).length)) := by
    rw [List.map_snd_add_zipIdx_eq_zipIdx, Nat.add_comm]
  rw [parse, hlines, ofNumbered, List.zipIdx_append, List.filterMap_append, hnumbers,
    List.filterMap_map]
  simp [parse, ofNumbered, List.map_filterMap, Function.comp_def]

/-- Its instructions come after those of the other one. -/
theorem instructions_parse_append (first second : String) :
    (parse (first ++ "\n" ++ second)).instructions =
      (parse first).instructions ++ (parse second).instructions := by
  rw [instructions, entries_parse_append, List.map_append, List.map_map]
  rfl

end Program

end RegisterMachine
