/-
# The line map of a program

A program that was read keeps a source line for each of its instructions. These lines tell all of the
text that matters: each of them by itself is the program of its instruction, and all the others are
programs without instructions.

* `Program.LineMap` : what it is for a program to keep the lines of a text exactly;
* `Program.pairwise_line_parse` : the lines that are kept ascend;
* `Program.exists_line_of_sourceLine?` : a line that is kept says its instruction;
* `Program.parse_line_of_forall_ne` : a line that is not kept holds no instruction;
* `Program.sourceLine?_parse_append` : the lines of a text that follows another one are counted on;
* `Program.lineMap_parse` : every text is read into a program that keeps its lines exactly.
-/
import RegisterMachine.Proofs.Assembly.SourceLines

namespace RegisterMachine

open Text

namespace Program

/-- A program keeps the lines of a text exactly. -/
structure LineMap (program : Program) (texts : List (List Char)) : Prop where
  /-- A line is kept for each instruction, and none beyond the last. -/
  isSome_iff : ∀ index, (program.sourceLine? index).isSome ↔ index < program.size
  /-- The lines that are kept ascend. -/
  ascending : ∀ first second, first < second →
    ∀ above ∈ program.sourceLine? first, ∀ below ∈ program.sourceLine? second, above < below
  /-- They are lines of the text, and each by itself says the instruction for which it is kept. -/
  holds : ∀ index, ∀ number ∈ program.sourceLine? index, 1 ≤ number ∧ number ≤ texts.length ∧
    ∃ line ∈ texts[number - 1]?, ∃ instruction ∈ program.get? index,
      parse (String.ofList line) = ofInstructions [instruction]
  /-- A line that is kept for no instruction says none. -/
  rest : ∀ number, 1 ≤ number → (∀ index, number ∉ program.sourceLine? index) →
    ∀ line ∈ texts[number - 1]?, parse (String.ofList line) = ofInstructions []

/-! ## Lines that are kept -/

/-- There is a source line where there is an instruction. -/
theorem isSome_sourceLine?_iff (program : Program) (index : Nat) :
    (program.sourceLine? index).isSome ↔ index < program.size := by
  unfold sourceLine? size
  rw [Option.isSome_map, isSome_getElem?]

/-- The lines that are kept ascend. -/
theorem pairwise_line_parse (source : String) :
    (parse source).entries.Pairwise fun first second => first.line < second.line := by
  have hnumbers : ((lines source.toList).zipIdx 1).Pairwise fun first second =>
      first.2 < second.2 := by
    rw [← List.pairwise_map (f := Prod.snd), List.zipIdx_map_snd]
    exact List.pairwise_lt_range'
  refine hnumbers.filterMap _ ?_
  rintro ⟨line, number⟩ ⟨line', number'⟩ hlt entry hentry entry' hentry'
  obtain ⟨instruction, -, rfl⟩ := Option.map_eq_some_iff.1 hentry
  obtain ⟨instruction', -, rfl⟩ := Option.map_eq_some_iff.1 hentry'
  exact hlt

theorem sourceLine?_lt_sourceLine? {source : String} {first second above below : Nat}
    (hlt : first < second) (habove : (parse source).sourceLine? first = some above)
    (hbelow : (parse source).sourceLine? second = some below) : above < below := by
  obtain ⟨entry, hentry, rfl⟩ := Option.map_eq_some_iff.1 habove
  obtain ⟨entry', hentry', rfl⟩ := Option.map_eq_some_iff.1 hbelow
  obtain ⟨hfirst, rfl⟩ := List.getElem?_eq_some_iff.1 hentry
  obtain ⟨hsecond, rfl⟩ := List.getElem?_eq_some_iff.1 hentry'
  exact List.pairwise_iff_getElem.1 (pairwise_line_parse source) first second hfirst hsecond hlt

/-- A line that is kept says the instruction for which it is kept. -/
theorem exists_line_of_sourceLine? {source : String} {index number : Nat}
    (h : (parse source).sourceLine? index = some number) :
    1 ≤ number ∧ number ≤ (lines source.toList).length ∧
      ∃ line ∈ (lines source.toList)[number - 1]?, ∃ instruction ∈ (parse source).get? index,
        parse (String.ofList line) = ofInstructions [instruction] := by
  have hindex : index < (parse source).size := by
    rw [← isSome_sourceLine?_iff, h]
    rfl
  obtain ⟨instruction, hget⟩ := Option.ne_none_iff_exists'.1
    (mt get?_eq_none_iff.1 (Nat.not_le.2 hindex))
  obtain ⟨number', line, hnumber, hpos, hline, hparse⟩ := exists_line_of_get? hget
  obtain rfl : number = number' := Option.some.inj (h.symm.trans hnumber)
  obtain ⟨hlt, -⟩ := List.getElem?_eq_some_iff.1 hline
  exact ⟨hpos, by omega, line, hline, instruction, hget, hparse⟩

/-! ## Lines that are not kept -/

/-- A line that says no instruction is a program without instructions. -/
theorem parse_line_of_none {line : List Char} (hfeed : '\n' ∉ line)
    (h : Instruction.ofLine? line = none) :
    parse (String.ofList line) = ofInstructions [] := by
  rw [parse, String.toList_ofList, lines_of_notMem hfeed, ofNumbered]
  simp [h, ofInstructions]

/-- A line that is kept for no instruction holds none. -/
theorem parse_line_of_forall_ne {source : String} {number : Nat} {line : List Char}
    (hpos : 1 ≤ number) (hline : (lines source.toList)[number - 1]? = some line)
    (h : ∀ index, (parse source).sourceLine? index ≠ some number) :
    parse (String.ofList line) = ofInstructions [] := by
  apply parse_line_of_none (lineFeed_notMem_of_mem_lines (List.mem_of_getElem? hline))
  -- an instruction on this line would stand somewhere in the program
  by_contra hholds
  obtain ⟨instruction, hinstruction⟩ := Option.ne_none_iff_exists'.1 hholds
  have hmem : Entry.mk number instruction ∈ (parse source).entries :=
    mem_parse_iff.2 ⟨hpos, line, hline, hinstruction⟩
  obtain ⟨index, hindex⟩ := List.getElem?_of_mem hmem
  apply h index
  rw [sourceLine?, hindex]
  rfl

/-! ## Texts one after the other -/

/-- The lines of a text that follows another one on a new line are counted on from its lines. -/
theorem sourceLine?_parse_append (first second : String) (index : Nat) :
    (parse (first ++ "\n" ++ second)).sourceLine? index =
      if index < (parse first).size then (parse first).sourceLine? index
      else ((parse second).sourceLine? (index - (parse first).size)).map
        (· + (1 + first.toList.count '\n')) := by
  unfold sourceLine? size
  rw [entries_parse_append, length_lines, Nat.add_comm _ 1, List.getElem?_append]
  split
  · rfl
  · rw [List.getElem?_map, Option.map_map, Option.map_map]
    rfl

/-! ## All lines -/

/-- **A text is read line by line**, and its program keeps the lines exactly. The lines are those between
the line feeds of the text. Two texts one after the other are read into the instructions of the one and
those of the other, and the lines of the second are counted on by one and the line feeds of the first. -/
theorem lineMap_parse (source : String) :
    (parse source).LineMap (lines source.toList) ∧
    unlines (lines source.toList) = source.toList ∧
    (∀ line ∈ lines source.toList, '\n' ∉ line) ∧
    ∀ second : String,
      (parse (source ++ "\n" ++ second)).instructions =
        (parse source).instructions ++ (parse second).instructions ∧
      ∀ index, (parse (source ++ "\n" ++ second)).sourceLine? index =
        if index < (parse source).size then (parse source).sourceLine? index
        else ((parse second).sourceLine? (index - (parse source).size)).map
          (· + (1 + source.toList.count '\n')) := by
  refine ⟨?_, unlines_lines _, fun line hline => lineFeed_notMem_of_mem_lines hline, ?_⟩
  · constructor
    · exact isSome_sourceLine?_iff _
    · intro first second hlt above habove below hbelow
      exact sourceLine?_lt_sourceLine? hlt habove hbelow
    · intro index number hnumber
      exact exists_line_of_sourceLine? hnumber
    · intro number hpos hnone line hline
      exact parse_line_of_forall_ne hpos hline hnone
  · intro second
    exact ⟨instructions_parse_append source second, sourceLine?_parse_append source second⟩

/-- A heading, an empty line and a line with nothing but a comma are kept for no instruction; so the comma
by itself says none. The label stands on line three and the instruction after it on line five. -/
theorem lineMap_parse_comma :
    let program := parse "; heading\n\nstart:\n,\n  MOV AX, 1\r\n"
    program.size = 2 ∧ program.sourceLine? 2 = none ∧ parse "," = ofInstructions [] := by
  intro program
  have hlines : program.entries.map Entry.line = [3, 5] := by decide +kernel
  have hsource : ∀ index, program.sourceLine? index = [3, 5][index]? := by
    intro index
    rw [← hlines, List.getElem?_map]
    rfl
  have hmap := (lineMap_parse "; heading\n\nstart:\n,\n  MOV AX, 1\r\n").1
  have hsize : program.size = 2 := by
    rw [size, ← List.length_map (f := Entry.line), hlines]
    rfl
  refine ⟨hsize, ?_, ?_⟩
  · rw [← Option.not_isSome_iff_eq_none, hmap.isSome_iff]
    exact Nat.not_lt.2 (Nat.le_of_eq hsize)
  · refine hmap.rest 4 (by decide) (fun index hindex => ?_) [','] (by decide +kernel)
    have hmem : 4 ∈ [3, 5] := List.mem_of_getElem? ((hsource index).symm.trans hindex)
    exact absurd hmem (by decide)

end Program

end RegisterMachine
