/-
# Recording does not change a run

A recording run writes its records in several places, on different copies of the machine, and before it is
known how the run ends. It ends as the run does, and in the end its records are those of the journal.

* `Recorded.parse_eq`, `Recorded.execute_eq` : reading a text and executing an instruction while recording;
* `Recorded.step_eq` : a step, which writes what it executes and then its fault;
* `Recorded.fail_budgetExceeded` : the end of a run that goes over its budget;
* `Recorded.run_eq`, `Recorded.runSource_eq` : a run of a program and of a source text.

A run that starts over its budget may make the machine fail twice, by its first step and by the exceeded
budget. Only the first time is written, because then the machine has failed already.
-/
import RegisterMachine.Machine.Recording
import RegisterMachine.Proofs.Machine.Counter
import RegisterMachine.Proofs.Machine.Transitions

namespace RegisterMachine

variable {least : Severity} {m : Machine} {program : Program} {budget : Option UInt64}

/-! ## Journals -/

@[simp] theorem Record.atLeast_nil (least : Severity) : Record.atLeast least [] = [] := rfl

/-- What matters of two journals one after the other. -/
theorem Record.atLeast_append (least : Severity) (first second : List Record) :
    Record.atLeast least (first ++ second) =
      Record.atLeast least first ++ Record.atLeast least second :=
  List.filter_append first second

namespace Machine

theorem failure?_of_goes (h : m.isTerminal = false) : m.failure? = none := by
  rw [failure?, (isTerminal_eq_false_iff.1 h).2, Option.map_none]

/-- At the end of a run, a machine that goes on was stopped. -/
theorem closing?_of_goes (h : m.isTerminal = false) : m.closing? = some (.stopped m.pc) := by
  obtain ⟨hhalted, hfault⟩ := isTerminal_eq_false_iff.1 h
  rw [closing?, hfault, hhalted]
  rfl

/-- At the end of a run, a terminal machine tells of its fault only. -/
theorem closing?_of_isTerminal (h : m.isTerminal = true) : m.closing? = m.failure? := by
  rcases hfault : m.fault with _ | fault
  · have hhalted : m.halted = true := by
      rwa [isTerminal, hfault, Option.isSome_none, Bool.or_false] at h
    rw [closing?, failure?, hfault, hhalted]
    rfl
  · rw [closing?, failure?, hfault]
    rfl

end Machine

/-! ## Recording -/

namespace Recorded

theorem tell_eq (least : Severity) (record : Record) :
    tell least record = ⟨(), Record.atLeast least [record]⟩ := by
  by_cases h : least.rank ≤ record.severity.rank <;> simp [tell, Record.atLeast, h]

/-- Reading lines gives their program, and writes its instructions. -/
theorem readNumbered_eq (least : Severity) (lines : List (List Char × Nat)) :
    readNumbered least lines =
      ⟨(Program.ofNumbered lines).entries,
        Record.atLeast least ((Program.ofNumbered lines).entries.map
          fun entry => .read entry.line entry.instruction)⟩ := by
  induction lines with
  | nil => rfl
  | cons first lines ih =>
      obtain ⟨line, number⟩ := first
      cases hline : Instruction.ofLine? line with
      | none =>
          have hrest : Program.ofNumbered ((line, number) :: lines) = Program.ofNumbered lines := by
            simp [Program.ofNumbered, hline]
          rw [readNumbered, hline, hrest, ← ih]
      | some instruction =>
          have hrest : (Program.ofNumbered ((line, number) :: lines)).entries =
              ⟨number, instruction⟩ :: (Program.ofNumbered lines).entries := by
            simp [Program.ofNumbered, hline]
          rw [readNumbered, hline, hrest]
          simp only [bind_eq, pure_eq, tell_eq, ih, List.append_nil]
          rw [← Record.atLeast_append]
          rfl

/-- Reading a text gives its program, and writes the journal of the program. -/
theorem parse_eq (least : Severity) (source : String) :
    parse least source =
      ⟨Program.parse source, Record.atLeast least (Program.parse source).journal⟩ := by
  rw [parse, readNumbered_eq]
  simp only [bind_eq, pure_eq, tell_eq, List.append_nil]
  rw [← Record.atLeast_append]
  rfl

/-- A machine that fails for the first time is written. -/
theorem fail_of_none (fault : Fault) (h : m.fault = none) :
    fail least m fault =
      ⟨{ m with fault := some fault }, Record.atLeast least [.failed m.pc fault]⟩ := by
  rw [fail, h]
  simp [bind_eq, pure_eq, tell_eq]

/-- A machine that failed before is not written again. -/
theorem fail_of_fault {first : Fault} (fault : Fault) (h : m.fault = some first) :
    fail least m fault = ⟨m, []⟩ := by
  rw [fail, h]
  rfl

/-- Executing an instruction has the outcome of the instruction, and writes an operation. -/
theorem execute_eq (least : Severity) (m : Machine) (program : Program) :
    execute least m program =
      ⟨m.execute program, Record.atLeast least (m.upcoming? program).toList⟩ := by
  rcases hget : program.get? m.pc with _ | instruction
  · simp [execute, Machine.execute, Machine.upcoming?, hget, pure_eq]
  · rcases hopcode : instruction.opcode with _ | operation | name <;>
      simp [execute, Machine.execute, Machine.upcoming?, hget, hopcode, pure_eq, bind_eq, tell_eq]

/-- **A step** is the step of the machine. It writes the operation that it executes, and then that the
machine failed, if it did. -/
theorem step_eq (hm : m.isTerminal = false) :
    step least m program =
      ⟨m.step program, Record.atLeast least (Machine.Transition.journal ⟨m, m.step program⟩ program)⟩ := by
  have hfault : m.fault = none := (Machine.isTerminal_eq_false_iff.1 hm).2
  rw [step, hm, if_neg Bool.false_ne_true, bind_eq, execute_eq, Machine.Transition.journal,
    Record.atLeast_append]
  rcases houtcome : m.execute program with fault | next
  · rw [Machine.step_of_execute_error hm houtcome]
    simp only [fail_of_none fault hfault]
    rfl
  · have hnext : next.failure? = none := by
      rw [Machine.failure?, (Machine.executes_iff.2 houtcome).fault_eq, hfault, Option.map_none]
    rw [Machine.step_of_execute_ok hm houtcome, hnext]
    rfl

/-- A run that is over before it starts writes nothing. -/
theorem runFor_of_isTerminal (hm : m.isTerminal = true) (count : Nat) :
    runFor least m program budget count = ⟨m, []⟩ := by
  have hfinish : finish least m = ⟨m, []⟩ := by
    rw [finish, if_pos hm, pure_eq]
  cases count with
  | zero => exact hfinish
  | succ count => rw [runFor, if_pos hm, hfinish]

theorem runFor_succ (hm : m.isTerminal = false) (count : Nat) :
    runFor least m program budget (count + 1) =
      (step least m program >>= fun next =>
        if next.exceeds budget then fail least next .budgetExceeded
        else runFor least next program budget count) := by
  rw [runFor, hm]
  rfl

/-- A machine that goes over its budget has failed once, whether its last step failed or not. -/
theorem fail_budgetExceeded (least : Severity) (m : Machine) :
    (fail least m .budgetExceeded).result = m.fail .budgetExceeded ∧
      Record.atLeast least m.failure?.toList ++ (fail least m .budgetExceeded).records =
        Record.atLeast least (m.fail .budgetExceeded).closing?.toList := by
  rcases hfault : m.fault with _ | first
  · rw [fail_of_none _ hfault, Machine.fail_of_none _ hfault, Machine.failure?, hfault]
    exact ⟨rfl, rfl⟩
  · rw [fail_of_fault _ hfault, Machine.fail_of_fault _ hfault, List.append_nil,
      Machine.closing?_of_isTerminal (Machine.isTerminal_of_fault (by simp [hfault]))]
    exact ⟨rfl, rfl⟩

/-- **A run** is the run of the machine. It writes the operation of each of its steps, and then how the
run ended. -/
theorem runFor_eq (hm : m.isTerminal = false) (count : Nat) :
    runFor least m program budget count =
      ⟨m.runFor program budget count,
        Record.atLeast least
          ((m.transitionsFor program budget count).flatMap
              (fun transition => (transition.before.upcoming? program).toList)
            ++ (m.runFor program budget count).closing?.toList)⟩ := by
  induction count generalizing m with
  | zero =>
      rw [runFor, finish, hm, if_neg Bool.false_ne_true, tell_eq, Machine.runFor,
        Machine.closing?_of_goes hm]
      simp [bind_eq, pure_eq, Machine.transitionsFor]
  | succ count ih =>
      rw [runFor_succ hm, step_eq hm, bind_eq, Machine.runFor_succ hm,
        Machine.transitionsFor_succ hm, List.flatMap_cons, Machine.Transition.journal,
        Record.atLeast_append]
      by_cases hexceeds : (m.step program).exceeds budget = true
      · obtain ⟨hresult, hrecords⟩ := fail_budgetExceeded least (m.step program)
        simp only [if_pos hexceeds, List.flatMap_nil, List.append_nil]
        rw [List.append_assoc, hresult, hrecords, Record.atLeast_append]
      · simp only [if_neg hexceeds]
        cases hterminal : (m.step program).isTerminal with
        | true =>
            rw [runFor_of_isTerminal hterminal, Machine.runFor_of_isTerminal hterminal,
              Machine.transitionsFor_of_isTerminal hterminal,
              Machine.closing?_of_isTerminal hterminal]
            simp [Record.atLeast_append]
        | false =>
            rw [ih hterminal, Machine.failure?_of_goes hterminal]
            simp [Record.atLeast_append]

/-- A run of a program writes its journal. -/
theorem run_eq (least : Severity) (m : Machine) (program : Program) (budget : Option UInt64) :
    run least m program budget =
      ⟨m.run program budget, Record.atLeast least (m.journal program budget)⟩ := by
  cases hm : m.isTerminal with
  | true =>
      rw [run, runFor_of_isTerminal hm, Machine.run_of_isTerminal program budget hm,
        Machine.journal, if_pos hm, Record.atLeast_nil]
  | false =>
      rw [run, runFor_eq hm, Machine.journal, hm, if_neg Bool.false_ne_true,
        List.filterMap_eq_flatMap_toList]
      rfl

/-- A run of a source text writes its journal, of which a coarser recording leaves out what matters
less. -/
theorem runSource_eq (least : Severity) (m : Machine) (source : String) (budget : Option UInt64) :
    runSource least m source budget =
      ⟨m.runSource source budget, Record.atLeast least (m.journalOfSource source budget)⟩ := by
  rw [runSource, parse_eq, bind_eq, run_eq, Machine.journalOfSource, Record.atLeast_append]
  rfl

end Recorded

end RegisterMachine
