/-
# What is written of a run

The records of a run tell it as it was: a record for each line that holds an instruction and one for their
number, a record for each step of the run that executes an operation, with the machine before the step, and
one for the end of the run unless it halted. Each of them is given word for word.

* `Severity.below` : what a coarser recording leaves out;
* `Record.Announces`, `Record.Closes` : what is written of a step, and of the end of a run;
* `Record.Chronicles` : what is written of a run;
* `Recorded.chronicles_runSource` : what is written of a run of a source text.
-/
import RegisterMachine.Proofs.Machine.Exclusion
import RegisterMachine.Proofs.Machine.Recording

namespace RegisterMachine

variable {m : Machine} {program : Program} {budget : Option UInt64}

/-! ## Severities -/

/-- The severities that matter less. -/
def Severity.below : Severity → List Severity
  | trace => []
  | debug => [trace]
  | info => [trace, debug]
  | warn => [trace, debug, info]

theorem Severity.rank_le_rank_iff (least severity : Severity) :
    least.rank ≤ severity.rank ↔ severity ∉ least.below := by
  cases least <;> cases severity <;> decide

namespace Record

/-- What is written of records that matter enough. -/
theorem map_line_atLeast (least : Severity) (records : List Record) :
    (atLeast least records).map line =
      (records.map line).filter fun written => written.severity ∉ least.below := by
  rw [atLeast, List.filter_map]
  congr 2
  funext record
  exact decide_eq_decide.2 (least.rank_le_rank_iff record.severity)

/-! ## Chronicles -/

/-- What is written of a step: the operation that is executed, with the machine before the step. -/
inductive Announces (program : Program) (m : Machine) : List Line → Prop
  | operation {instruction : Instruction} {operation : Operation}
      (hget : program.get? m.pc = some instruction)
      (hopcode : instruction.opcode = some (.known operation)) :
      Announces program m
        [⟨.trace, "chipduel::machine",
          Text.alignRight 4 (Text.numeral m.pc) ++ ": " ++ instruction.text
            ++ " | AX=" ++ Word.text m.registers.ax ++ " BX=" ++ Word.text m.registers.bx
            ++ " CX=" ++ Word.text m.registers.cx ++ " DX=" ++ Word.text m.registers.dx
            ++ " SP=" ++ Word.text m.registers.sp
            ++ " | cycles " ++ Text.numeral m.cycles.toNat⟩]
  | bare {instruction : Instruction} (hget : program.get? m.pc = some instruction)
      (hopcode : instruction.opcode = none) : Announces program m []
  | unknown {instruction : Instruction} {name : String}
      (hget : program.get? m.pc = some instruction)
      (hopcode : instruction.opcode = some (.unknown name)) : Announces program m []
  | ended (h : program.size ≤ m.pc) : Announces program m []

/-- What is written of the end of a run: the fault, or that the run was stopped, or nothing of a run that
halted. -/
inductive Closes (m : Machine) : List Line → Prop
  | failed {fault : Fault} (hfault : m.fault = some fault) (hhalted : m.halted = false) :
      Closes m
        [⟨.debug, "chipduel::machine",
          "machine failed at pc " ++ Text.numeral m.pc ++ ": " ++ fault.message⟩]
  | stopped (hfault : m.fault = none) (hhalted : m.halted = false) :
      Closes m
        [⟨.warn, "chipduel::runner",
          "run stopped after 10000 steps at pc " ++ Text.numeral m.pc ++ " without halting"⟩]
  | halted (hfault : m.fault = none) (hhalted : m.halted = true) : Closes m []

/-- What is written of a run: its steps, and then its end. -/
inductive Chronicles (program : Program) (m : Machine) (budget : Option UInt64) : List Line → Prop
  | run {blocks : List (List Line)} {closing : List Line}
      (htakes : m.Takes program budget blocks.length)
      (hannounces : ∀ k (h : k < blocks.length), Announces program (m.after program k) blocks[k])
      (hcloses : Closes (m.run program budget) closing) :
      Chronicles program m budget (blocks.flatten ++ closing)

/-! ## Records -/

/-- The registers of a machine are written one by one. -/
theorem line_executing (pc : Nat) (instruction : Instruction) (registers : Registers)
    (cycles : UInt64) :
    line (.executing pc instruction registers cycles) =
      ⟨.trace, "chipduel::machine",
        Text.alignRight 4 (Text.numeral pc) ++ ": " ++ instruction.text
          ++ " | AX=" ++ Word.text registers.ax ++ " BX=" ++ Word.text registers.bx
          ++ " CX=" ++ Word.text registers.cx ++ " DX=" ++ Word.text registers.dx
          ++ " SP=" ++ Word.text registers.sp
          ++ " | cycles " ++ Text.numeral cycles.toNat⟩ := by
  rw [line, Line.mk.injEq]
  refine ⟨rfl, rfl, ?_⟩
  unfold message
  apply String.toList_inj.1
  simp [Registers.text_eq]

/-- The limit on steps is written in decimals. -/
theorem line_stopped (pc : Nat) :
    line (.stopped pc) =
      ⟨.warn, "chipduel::runner",
        "run stopped after 10000 steps at pc " ++ Text.numeral pc ++ " without halting"⟩ := by
  have hlimit : Text.numeral stepLimit = "10000" := by decide +kernel
  rw [line, Line.mk.injEq]
  refine ⟨rfl, rfl, ?_⟩
  unfold message
  rw [hlimit]
  rfl

/-- What a machine tells before a step is what is written of the step. -/
theorem announces_upcoming? (program : Program) (m : Machine) :
    Announces program m ((m.upcoming? program).toList.map line) := by
  rcases hget : program.get? m.pc with _ | instruction
  · rw [Machine.upcoming?, hget]
    exact .ended (Program.get?_eq_none_iff.1 hget)
  · rcases hopcode : instruction.opcode with _ | operation | name
    · simp only [Machine.upcoming?, hget, hopcode]
      exact .bare hget hopcode
    · simp only [Machine.upcoming?, hget, hopcode]
      rw [Option.toList_some, List.map_singleton, line_executing]
      exact .operation hget hopcode
    · simp only [Machine.upcoming?, hget, hopcode]
      exact .unknown hget hopcode

/-- Nothing else is written of a step. -/
theorem Announces.eq {block : List Line} (h : Announces program m block) :
    block = (m.upcoming? program).toList.map line := by
  cases h with
  | operation hget hopcode => simp [Machine.upcoming?, hget, hopcode, line_executing]
  | bare hget hopcode => simp [Machine.upcoming?, hget, hopcode]
  | unknown hget hopcode => simp [Machine.upcoming?, hget, hopcode]
  | ended h => simp [Machine.upcoming?, Program.get?_eq_none_iff.2 h]

/-- What a machine tells at the end is what is written of the end, if it has not both halted and failed. -/
theorem closes_closing? (h : ¬ m.Conflicted) : Closes m (m.closing?.toList.map line) := by
  rcases hfault : m.fault with _ | fault
  · cases hhalted : m.halted with
    | true =>
        simp only [Machine.closing?, hfault, hhalted]
        exact .halted hfault hhalted
    | false =>
        simp only [Machine.closing?, hfault, hhalted]
        show Closes m [line (.stopped m.pc)]
        rw [line_stopped]
        exact .stopped hfault hhalted
  · have hhalted : m.halted = false := by
      by_contra hnot
      exact h ⟨Bool.eq_true_of_not_eq_false hnot, by simp [hfault]⟩
    simp only [Machine.closing?, hfault]
    exact .failed hfault hhalted

/-! ## Runs -/

/-- The journal of a run that starts within its budget tells the run. -/
theorem chronicles_journal (hm : m.isTerminal = false) (hwithin : m.exceeds budget = false) :
    Chronicles program m budget ((m.journal program budget).map line) := by
  obtain ⟨n, htakes⟩ := Machine.exists_takes m program budget
  let blocks := (List.range n).map fun k =>
    ((m.after program k).upcoming? program).toList.map line
  have hlength : blocks.length = n := by
    rw [List.length_map, List.length_range]
  have hjournal : (m.journal program budget).map line =
      blocks.flatten ++ (m.run program budget).closing?.toList.map line := by
    rw [Machine.journal, hm, if_neg Bool.false_ne_true, htakes.transitions_eq hm,
      List.filterMap_map, List.filterMap_eq_flatMap_toList, List.map_append, List.map_flatMap]
    rfl
  rw [hjournal]
  refine .run (hlength.symm ▸ htakes) ?_ (closes_closing? ?_)
  · intro k hk
    rw [List.getElem_map, List.getElem_range]
    exact announces_upcoming? program _
  · exact Machine.not_conflicted_runFor (Machine.not_conflicted_of_goes hm) hwithin _

end Record

/-! ## Source texts -/

/-- What is written of a source text: each line that holds an instruction, and then their number. -/
theorem Program.map_line_journal (source : String) :
    (parse source).journal.map Record.line =
      ((Text.lines source.toList).zipIdx 1).filterMap
          (fun (line, number) => (Instruction.ofLine? line).map fun instruction =>
            ⟨.trace, "chipasm", "line " ++ Text.numeral number ++ ": " ++ instruction.text⟩)
        ++ [⟨.debug, "chipasm",
          "parsed " ++ Text.numeral (parse source).size ++ " instructions"⟩] := by
  rw [journal, parse, ofNumbered, List.map_append, List.map_map, List.map_filterMap]
  congr 2
  funext numbered
  obtain ⟨line, number⟩ := numbered
  rw [Option.map_map]
  rfl

namespace Recorded

/-- **What is written of a run of a source text.** A recording run of a fresh machine with any registers
writes each line that holds an instruction, then their number, and then the run. This is the journal of the
run. A coarser recording writes the same but for what matters less, and no recording changes the run. -/
theorem chronicles_runSource (registers : Registers) (source : String) (budget : Option UInt64) :
    let start : Machine := { Machine.fresh with registers := registers }
    let program := Program.parse source
    let written := (runSource .trace start source budget).records.map Record.line
    (∃ told, Record.Chronicles program start budget told ∧
      written =
        ((Text.lines source.toList).zipIdx 1).filterMap
            (fun (line, number) => (Instruction.ofLine? line).map fun instruction =>
              ⟨.trace, "chipasm", "line " ++ Text.numeral number ++ ": " ++ instruction.text⟩)
          ++ ⟨.debug, "chipasm",
            "parsed " ++ Text.numeral program.size ++ " instructions"⟩ :: told) ∧
    written = (start.journalOfSource source budget).map Record.line ∧
    ∀ least,
      (runSource least start source budget).result = start.runSource source budget ∧
      (runSource least start source budget).records.map Record.line =
        written.filter fun line => line.severity ∉ least.below := by
  intro start program written
  have hwritten : written = (start.journalOfSource source budget).map Record.line := by
    show (runSource .trace start source budget).records.map Record.line = _
    rw [runSource_eq, Record.atLeast_trace]
  refine ⟨⟨(start.journal program budget).map Record.line, ?_, ?_⟩, hwritten, ?_⟩
  · apply Record.chronicles_journal rfl
    cases budget with
    | none => rfl
    | some limit => exact decide_eq_false (show ¬ limit < 0 from UInt64.not_lt_zero)
  · rw [hwritten, Machine.journalOfSource, List.map_append, Program.map_line_journal,
      List.append_assoc]
    rfl
  · intro least
    rw [hwritten, runSource_eq]
    exact ⟨rfl, Record.map_line_atLeast least _⟩

/-- A jump to itself takes cycles and changes nothing else. -/
theorem after_jump_to_itself (k : Nat) :
    Machine.fresh.after (.parse "a: JMP a") k = { Machine.fresh with cycles := .ofNat k } := by
  induction k with
  | zero => rfl
  | succ k ih =>
      rw [Machine.after_succ, ih, UInt64.ofNat_add]
      rfl

/-- It is stopped after ten thousand steps. -/
theorem takes_jump_to_itself {n : Nat} (h : Machine.fresh.Takes (.parse "a: JMP a") none n) :
    n = 10000 ∧ Machine.fresh.run (.parse "a: JMP a") none =
      { Machine.fresh with cycles := .ofNat 10000 } := by
  have hlimit : n = 10000 := by
    rcases h.limit_or_stops with hlimit | hterminal | ⟨limit, hnone, -⟩
    · exact hlimit
    · rw [after_jump_to_itself] at hterminal
      cases hterminal
    · cases hnone
  subst hlimit
  refine ⟨rfl, ?_⟩
  rcases h.run_eq rfl with hrun | ⟨⟨limit, hnone, -⟩, -⟩
  · rw [hrun, after_jump_to_itself]
  · cases hnone

/-- Each of its steps is written with the cycles that were taken before. -/
theorem announces_jump_to_itself {k : Nat} {block : List Record.Line} (hk : k < 10000)
    (h : Record.Announces (.parse "a: JMP a") (Machine.fresh.after (.parse "a: JMP a") k) block) :
    block = [⟨.trace, "chipduel::machine",
      "   0: a: JMP a | AX=0 BX=0 CX=0 DX=0 SP=16 | cycles " ++ Text.numeral k⟩] := by
  have hcycles : (UInt64.ofNat k).toNat = k :=
    UInt64.toNat_ofNat_of_lt' (Nat.lt_trans hk (by decide))
  have htext : Text.alignRight 4 (Text.numeral 0) ++ ": "
      ++ Instruction.text ⟨some (.known .jmp), ["a"], some "a"⟩
      ++ " | AX=" ++ Word.text Registers.initial.ax ++ " BX=" ++ Word.text Registers.initial.bx
      ++ " CX=" ++ Word.text Registers.initial.cx ++ " DX=" ++ Word.text Registers.initial.dx
      ++ " SP=" ++ Word.text Registers.initial.sp ++ " | cycles " =
      "   0: a: JMP a | AX=0 BX=0 CX=0 DX=0 SP=16 | cycles " := by
    decide +kernel
  rw [h.eq, after_jump_to_itself]
  show [Record.line (.executing 0 ⟨some (.known .jmp), ["a"], some "a"⟩ .initial (.ofNat k))] = _
  rw [Record.line_executing, htext, hcycles]

/-- A jump to itself writes ten thousand steps, and that it was stopped; only this last record is a warning.
A bare label is not written, and an instruction that fails is written before its fault. -/
theorem chronicles_runSource_jump :
    (runSource .trace Machine.fresh "a: JMP a" none).records.map Record.line =
      [⟨.trace, "chipasm", "line 1: a: JMP a"⟩, ⟨.debug, "chipasm", "parsed 1 instructions"⟩]
        ++ ((List.range 10000).map (fun k => ⟨.trace, "chipduel::machine",
            "   0: a: JMP a | AX=0 BX=0 CX=0 DX=0 SP=16 | cycles " ++ Text.numeral k⟩)
        ++ [⟨.warn, "chipduel::runner",
            "run stopped after 10000 steps at pc 0 without halting"⟩]) ∧
    (runSource .warn Machine.fresh "a: JMP a" none).records.map Record.line =
      [⟨.warn, "chipduel::runner", "run stopped after 10000 steps at pc 0 without halting"⟩] ∧
    (runSource .trace Machine.fresh "a:\nPOP AX" none).records.map Record.line =
      [⟨.trace, "chipasm", "line 1: a:"⟩, ⟨.trace, "chipasm", "line 2: POP AX"⟩,
        ⟨.debug, "chipasm", "parsed 2 instructions"⟩,
        ⟨.trace, "chipduel::machine",
          "   1: POP AX | AX=0 BX=0 CX=0 DX=0 SP=16 | cycles 0"⟩,
        ⟨.debug, "chipduel::machine", "machine failed at pc 1: Stack underflow"⟩] := by
  obtain ⟨⟨told, htold, hwritten⟩, -, hcoarser⟩ := chronicles_runSource .initial "a: JMP a" none
  obtain @⟨blocks, closing, htakes, hannounces, hcloses⟩ := htold
  obtain ⟨hlength, hrun⟩ := takes_jump_to_itself htakes
  have hblocks : blocks.flatten = (List.range 10000).map fun k => ⟨.trace, "chipduel::machine",
      "   0: a: JMP a | AX=0 BX=0 CX=0 DX=0 SP=16 | cycles " ++ Text.numeral k⟩ := by
    rw [List.map_eq_flatMap, List.flatMap_def]
    refine congrArg List.flatten (List.ext_getElem ?_ ?_)
    · rw [hlength, List.length_map, List.length_range]
    · intro k hk _
      rw [List.getElem_map, List.getElem_range]
      exact announces_jump_to_itself (hlength ▸ hk) (hannounces k hk)
  have hclosing : closing =
      [⟨.warn, "chipduel::runner", "run stopped after 10000 steps at pc 0 without halting"⟩] := by
    change Record.Closes (Machine.fresh.run (.parse "a: JMP a") none) closing at hcloses
    rw [hrun] at hcloses
    cases hcloses with
    | failed hfault => cases hfault
    | stopped => decide +kernel
    | halted _ hhalted => cases hhalted
  have hread : (Program.parse "a: JMP a").journal.map Record.line =
      [⟨.trace, "chipasm", "line 1: a: JMP a"⟩, ⟨.debug, "chipasm", "parsed 1 instructions"⟩] := by
    decide +kernel
  rw [Program.map_line_journal] at hread
  rw [hblocks, hclosing, List.append_cons, hread] at hwritten
  refine ⟨hwritten, ?_, ?_⟩
  · refine (hcoarser .warn).2.trans ?_
    rw [hwritten]
    simp [Severity.below, List.filter_append]
  · decide +kernel

end Recorded

end RegisterMachine
