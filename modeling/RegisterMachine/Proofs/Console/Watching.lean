/-
# Watching a run

A run that is watched is executed twice: through an execution that shows each step, and as a run of which
only the end is reported. The two loops look at the budget and at the limit on steps each for itself. They
agree, so watching a run adds a line for each of its steps and changes nothing else.

* `Console.ShowsMachine`, `Console.Shows` : the texts that show a machine, and the lines that show a step;
* `Console.Tells` : the lines that tell of a run;
* `Console.watched_eq_transitions` : the steps that are shown are those of the run;
* `Console.respond_of_trace` : a response with the steps and the one without them.
-/
import RegisterMachine.Proofs.Console.Commands
import RegisterMachine.Proofs.Machine.Transitions

namespace RegisterMachine.Console

variable {program : Program} {m : Machine} {budget : Option UInt64}

/-! ## Lines -/

/-- How a line about a machine ends: with its fault, or else that it has halted, or with nothing. -/
inductive ShowsEnd (m : Machine) : String → Prop
  | failed {fault : Fault} (hfault : m.fault = some fault) :
      ShowsEnd m (" | error: " ++ fault.message)
  | halted (hfault : m.fault = none) (hhalted : m.halted = true) : ShowsEnd m " | halted"
  | goes (hfault : m.fault = none) (hhalted : m.halted = false) : ShowsEnd m ""

/-- The texts that show a machine: its program counter, its registers, its stack from the bottom to the
top, its zero flag and its cycles, and how it ended. -/
inductive ShowsMachine (m : Machine) : String → Prop
  | state {ending : String} (h : ShowsEnd m ending) :
      ShowsMachine m
        ("pc " ++ Text.alignRight 3 (Text.numeral m.pc)
          ++ " | AX=" ++ Word.text m.registers.ax ++ " BX=" ++ Word.text m.registers.bx
          ++ " CX=" ++ Word.text m.registers.cx ++ " DX=" ++ Word.text m.registers.dx
          ++ " SP=" ++ Word.text m.registers.sp
          ++ " | stack [" ++ " ".intercalate (m.stack.toList.map Word.text) ++ "|]"
          ++ " | zero " ++ (if m.zero then "1" else "0")
          ++ " | cycles " ++ Text.numeral m.cycles.toNat ++ ending)

/-- The lines that show a step: what it executes at an index of the program, and the machine after it. -/
inductive Shows (program : Program) (index : Nat) (after : Machine) : String → Prop
  /-- An instruction is shown after the number of its source line. -/
  | instruction {number : Nat} {instruction : Instruction} {state : String}
      (hnumber : program.sourceLine? index = some number)
      (hget : program.get? index = some instruction) (hstate : ShowsMachine after state) :
      Shows program index after
        (Text.alignRight 4 (Text.numeral number) ++ " " ++ Text.alignLeft 20 instruction.text ++ " "
          ++ state)
  /-- At the end of the program there is nothing to show but a dash. -/
  | ended {state : String} (h : program.size ≤ index) (hstate : ShowsMachine after state) :
      Shows program index after
        (Text.alignRight 4 "-" ++ " " ++ Text.alignLeft 20 "" ++ " " ++ state)

/-- The lines that tell of a run. -/
structure Tells (program : Program) (m : Machine) (budget : Option UInt64) (block : List String) :
    Prop where
  /-- There is a line for each step. -/
  takes : m.Takes program budget block.length
  /-- Each line shows its step. -/
  shows : ∀ k (h : k < block.length),
    Shows program (m.after program k).pc (m.after program (k + 1)) block[k]
  /-- The run ends on the machine in the last line, or adds the fault of an exceeded budget to it. -/
  ends : m.run program budget = m.after program block.length ∨
    ((m.after program block.length).IsOver budget ∧ (m.after program block.length).fault = none ∧
      m.run program budget = { m.after program block.length with fault := some .budgetExceeded })

theorem showsEnd_endText (m : Machine) : ShowsEnd m m.endText := by
  rw [Machine.endText]
  rcases hfault : m.fault with _ | fault
  · cases hhalted : m.halted with
    | true => exact .halted hfault hhalted
    | false => exact .goes hfault hhalted
  · exact .failed hfault

/-- The text of a machine shows it. -/
theorem showsMachine_text (m : Machine) : ShowsMachine m m.text := by
  have hzero : Text.numeral m.zero.toNat = if m.zero then "1" else "0" := by
    cases m.zero <;> decide +kernel
  have htext := ShowsMachine.state (showsEnd_endText m)
  rw [← hzero] at htext
  convert htext using 1
  apply String.toList_inj.1
  simp [Machine.text, Registers.text_eq, Stack.text]

/-- A line of a trace shows its step. -/
theorem shows_traceLine (program : Program) (index : Nat) (after : Machine) :
    Shows program index after (traceLine program index after) := by
  rw [traceLine, lineText, instructionText]
  rcases hentry : program.entries[index]? with _ | entry
  · have hnumber : program.sourceLine? index = none := by rw [Program.sourceLine?, hentry]; rfl
    have hget : program.get? index = none := by rw [Program.get?, hentry]; rfl
    rw [hnumber, hget]
    exact .ended (Program.get?_eq_none_iff.1 hget) (showsMachine_text after)
  · have hnumber : program.sourceLine? index = some entry.line := by
      rw [Program.sourceLine?, hentry]; rfl
    have hget : program.get? index = some entry.instruction := by rw [Program.get?, hentry]; rfl
    rw [hnumber, hget]
    exact .instruction hnumber hget (showsMachine_text after)

/-! ## Steps that are shown -/

/-- The steps that are shown of an execution are those of a run. -/
theorem stepsFrom_take (program : Program) (m : Machine) (budget : Option UInt64) (count : Nat) :
    stepsFrom budget m ((Execution.mk program m).take count).1 =
      m.transitionsFor program budget count := by
  induction count generalizing m with
  | zero => rfl
  | succ count ih =>
      by_cases hterminal : m.isTerminal = true
      · have hnone : (Execution.mk program m).take (count + 1) = ([], ⟨program, m⟩) :=
          Execution.take_of_isTerminal hterminal (count + 1)
        rw [hnone, Machine.transitionsFor_of_isTerminal hterminal]
        rfl
      · rw [Bool.not_eq_true] at hterminal
        -- both loops stop here over the budget, and go on from the next machine otherwise
        rw [Execution.take_succ hterminal, Machine.transitionsFor_succ hterminal, stepsFrom, ih]

/-- A run that is watched shows the steps that it takes. -/
theorem watched_eq_transitions (program : Program) (m : Machine) (budget : Option UInt64) :
    watched program m budget = m.transitions program budget :=
  stepsFrom_take program m budget stepLimit

/-- The trace of a run has a line for each of its steps. -/
theorem traceLines_of_takes {n : Nat} (h : m.Takes program budget n) (hm : m.isTerminal = false) :
    traceLines program m budget true =
      (List.range n).map
        fun k => traceLine program (m.after program k).pc (m.after program (k + 1)) := by
  rw [traceLines, if_pos rfl, watched_eq_transitions, h.transitions_eq hm, List.map_map]
  rfl

/-- The trace of a run tells of it. -/
theorem tells_traceLines (program : Program) (budget : Option UInt64) (hm : m.isTerminal = false) :
    Tells program m budget (traceLines program m budget true) := by
  obtain ⟨n, htakes⟩ := Machine.exists_takes m program budget
  have hlength : (traceLines program m budget true).length = n := by
    rw [traceLines_of_takes htakes hm, List.length_map, List.length_range]
  refine ⟨hlength.symm ▸ htakes, ?_, hlength.symm ▸ htakes.run_eq hm⟩
  intro k hk
  simp only [traceLines_of_takes htakes hm, List.getElem_map, List.getElem_range]
  exact shows_traceLine _ _ _

/-- A run that is not watched shows no steps. -/
theorem traceLines_false : traceLines program m budget false = [] := rfl

/-! ## Responses -/

/-- A level is won by the command exactly when it is won by an attempt. -/
theorem exitCode_levelResponse_eq_zero_iff (level : Level) (source : String) (trace : Bool) :
    (levelResponse level source trace).exitCode = 0 ↔ (level.attempt source).isSuccess = true := by
  rw [exitCode_levelResponse]
  split <;> simp [*]

/-- **Watching a run only adds its steps.** For a file that can be read, a response with the steps has the
exit code of the response without them, and the same lines but for those that tell of the run: in front
of the report, and at a level after its header. Whether the steps are shown or not, the command for a
level succeeds exactly when the attempt at this level does, and tells the verdict of the attempt. -/
theorem respond_of_trace {files : Files} {path source : String} (h : files.source path = .ok source) :
    (∀ a b budget, ∃ block, Tells (.parse source) (loaded a b) budget block ∧
      ((Command.run path a b budget true).respond files).exitCode =
        ((Command.run path a b budget false).respond files).exitCode ∧
      ((Command.run path a b budget false).respond files).printed =
        report (.parse source) (finished source a b budget) ∧
      ((Command.run path a b budget true).respond files).printed =
        block ++ report (.parse source) (finished source a b budget)) ∧
    ∀ number level, Level.find? number = some level →
      (∃ block rest, Tells (.parse source) level.machine (some level.budget) block ∧
        ((Command.level number path true).respond files).exitCode =
          ((Command.level number path false).respond files).exitCode ∧
        rest = report (.parse source) (level.machine.run (.parse source) (some level.budget)) ++
          [outcome level (level.attempt source)] ∧
        ((Command.level number path false).respond files).printed = header level :: rest ∧
        ((Command.level number path true).respond files).printed =
          header level :: (block ++ rest)) ∧
      ∀ trace,
        (((Command.level number path trace).respond files).exitCode = 0 ↔
          (level.attempt source).isSuccess = true) ∧
        ((Command.level number path trace).respond files).printed.getLast? =
          some (outcome level (level.attempt source)) := by
  constructor
  · intro a b budget
    refine ⟨_, tells_traceLines _ budget (isTerminal_loaded a b), ?_, ?_, ?_⟩
    · rw [Command.respond_run h, Command.respond_run h, Response.exitCode_after,
        Response.exitCode_after, exitCode_runResponse, exitCode_runResponse]
    · rw [Command.respond_run h, Response.printed_after, printed_runResponse, traceLines_false,
        List.nil_append]
    · rw [Command.respond_run h, Response.printed_after, printed_runResponse]
  · intro number level hlevel
    have hprinted (trace : Bool) : ((Command.level number path trace).respond files).printed =
        header level :: (traceLines (.parse source) level.machine (some level.budget) trace ++
          (report (.parse source) (level.machine.run (.parse source) (some level.budget)) ++
            [outcome level (level.attempt source)])) := by
      rw [Command.respond_level hlevel h, Response.printed_after]
      exact printed_levelResponse
    refine ⟨⟨_, _, tells_traceLines _ (some level.budget) level.isTerminal_machine, ?_, rfl, ?_,
      hprinted true⟩, ?_⟩
    · rw [Command.respond_level hlevel h, Command.respond_level hlevel h, Response.exitCode_after,
        Response.exitCode_after, exitCode_levelResponse, exitCode_levelResponse]
    · rw [hprinted, traceLines_false, List.nil_append]
    · intro trace
      rw [hprinted, Command.respond_level hlevel h, Response.exitCode_after]
      refine ⟨exitCode_levelResponse_eq_zero_iff level source trace, ?_⟩
      rw [← List.append_assoc, ← List.cons_append]
      exact List.getLast?_concat

/-- A file that adds two words, compares the sum and halts: with a budget of two cycles the comparison is the
last step to be shown, and the report adds the fault to what it left; at the first level the program wins. -/
theorem respond_of_trace_add :
    (∃ block,
      Tells (.parse "PUSH -1\nADD AX, BX\nCMP AX, 7\nHLT AX") (loaded 3 4) (some 2) block ∧
      block =
        ["   1 PUSH -1              pc   1 | AX=3 BX=4 CX=0 DX=0 SP=16 | stack [-1|] | zero 0 | cycles 1",
         "   2 ADD AX, BX           pc   2 | AX=7 BX=4 CX=0 DX=0 SP=16 | stack [-1|] | zero 0 | cycles 2",
         "   3 CMP AX, 7            pc   3 | AX=7 BX=4 CX=0 DX=0 SP=16 | stack [-1|] | zero 1 | cycles 3"] ∧
      ((Command.run "add" 3 4 (some 2) true).respond
          fun _ => .ok "PUSH -1\nADD AX, BX\nCMP AX, 7\nHLT AX".toUTF8).printed =
        block ++
          ["registers: AX=7 BX=4 CX=0 DX=0 SP=16",
           "stack:     [-1|]",
           "output:    []",
           "cycles:    3",
           "error:     Cycle budget exceeded"]) ∧
    ((Command.level 1 "add" true).respond
        fun _ => .ok "PUSH -1\nADD AX, BX\nCMP AX, 7\nHLT AX".toUTF8).exitCode = 0 ∧
    ((Command.level 1 "add" true).respond
        fun _ => .ok "PUSH -1\nADD AX, BX\nCMP AX, 7\nHLT AX".toUTF8).printed =
      ["Level 1: Addition (Add Beam, AX = 3, BX = 4, budget 5 cycles)",
       "   1 PUSH -1              pc   1 | AX=3 BX=4 CX=0 DX=0 SP=16 | stack [-1|] | zero 0 | cycles 1",
       "   2 ADD AX, BX           pc   2 | AX=7 BX=4 CX=0 DX=0 SP=16 | stack [-1|] | zero 0 | cycles 2",
       "   3 CMP AX, 7            pc   3 | AX=7 BX=4 CX=0 DX=0 SP=16 | stack [-1|] | zero 1 | cycles 3",
       "   4 HLT AX               pc   4 | AX=7 BX=4 CX=0 DX=0 SP=16 | stack [-1|] | zero 1 | cycles 3"
         ++ " | halted",
       "registers: AX=7 BX=4 CX=0 DX=0 SP=16",
       "stack:     [-1|]",
       "output:    [7]",
       "cycles:    3",
       "halted",
       "Add Beam! Boss takes 100 damage!"] := by
  have hread : Files.source (fun _ => .ok "PUSH -1\nADD AX, BX\nCMP AX, 7\nHLT AX".toUTF8) "add" =
      .ok "PUSH -1\nADD AX, BX\nCMP AX, 7\nHLT AX" := by
    decide +kernel
  have hlevel : Level.find? 1 = Level.catalog.head? := by decide
  obtain ⟨block, htells, -, -, hprinted⟩ := (respond_of_trace hread).1 3 4 (some 2)
  have hwon := (((respond_of_trace hread).2 1 _ hlevel).2 true).1.2 (by decide +kernel)
  have hreport : report (.parse "PUSH -1\nADD AX, BX\nCMP AX, 7\nHLT AX")
      (finished "PUSH -1\nADD AX, BX\nCMP AX, 7\nHLT AX" 3 4 (some 2)) =
        ["registers: AX=7 BX=4 CX=0 DX=0 SP=16", "stack:     [-1|]", "output:    []",
         "cycles:    3", "error:     Cycle budget exceeded"] := by
    decide +kernel
  rw [hreport] at hprinted
  refine ⟨⟨block, htells, ?_, hprinted⟩, hwon, by decide +kernel⟩
  -- the report follows the block, so what is printed before it is the block
  apply List.append_cancel_right
  rw [← hprinted]
  decide +kernel

end RegisterMachine.Console
