/-
# What the commands write

A command writes what it reads and what the run tells. If the run is watched, its steps are taken once more
before it, and whatever a step writes is written twice. That a run was stopped, or went over its budget by a
step that did not fail, is written once.

* `Console.traceJournal_eq` : the steps of a run that is watched write what they write by themselves;
* `Console.journal_respond` : the journal of a command, whether the run is watched or not;
* `Console.journal_of_parse` : what is written for a command line.
-/
import RegisterMachine.Proofs.Console.Watching
import RegisterMachine.Proofs.Machine.Chronicle

namespace RegisterMachine.Console

/-! ## Steps -/

/-- What the steps of a run write, each of them taken by itself. -/
def stepRecords (program : Program) (m : Machine) (budget : Option UInt64) : List Record :=
  (m.transitions program budget).flatMap fun step =>
    (Recorded.step .trace step.before program).records

/-- The steps of a run that is watched write what they write by themselves. -/
theorem traceJournal_eq {m : Machine} (program : Program) (budget : Option UInt64) (trace : Bool)
    (hm : m.isTerminal = false) :
    traceJournal program m budget trace = if trace then stepRecords program m budget else [] := by
  obtain ⟨n, htakes⟩ := Machine.exists_takes m program budget
  cases trace with
  | false => rfl
  | true =>
      rw [traceJournal, if_pos rfl, if_pos rfl, watched_eq_transitions, stepRecords,
        htakes.transitions_eq hm, List.flatMap_map, List.flatMap_map]
      apply List.flatMap_congr
      intro k hk
      -- no machine before a step of the run is terminal, so all of them are recorded
      have hgoes := htakes.goes hm (List.mem_range.1 hk)
      rw [Recorded.step_eq hgoes, Record.atLeast_trace, Machine.after_succ]

/-! ## Commands -/

/-- What is told of a file is what reading its source text writes, and then the file. -/
theorem loadJournal_eq (path source : String) :
    loadJournal path source =
      (Recorded.parse .trace source).records ++ [.loaded (Program.parse source).size path] := by
  rw [Recorded.parse_eq, Record.atLeast_trace]
  rfl

/-- **The journal of a command.** For a file that can be read, a command writes what reading it and running
it write, with the file in between. If the run is watched, it writes what the steps write as well, before
what the run writes. -/
theorem journal_respond {files : Files} {path source : String} (h : files.source path = .ok source) :
    (∀ a b budget trace,
      ((Command.run path a b budget trace).respond files).journal =
        (Recorded.parse .trace source).records ++ .loaded (Program.parse source).size path ::
          ((if trace then stepRecords (.parse source) (loaded a b) budget else []) ++
            (Recorded.run .trace (loaded a b) (.parse source) budget).records)) ∧
    ∀ number level trace, Level.find? number = some level →
      ((Command.level number path trace).respond files).journal =
        (Recorded.parse .trace source).records ++ .loaded (Program.parse source).size path ::
          ((if trace then stepRecords (.parse source) level.machine (some level.budget) else []) ++
            (Recorded.run .trace level.machine (.parse source) (some level.budget)).records) := by
  constructor
  · intro a b budget trace
    rw [Command.respond_run h, Response.journal_after, loadJournal_eq, List.append_assoc,
      Recorded.run_eq, Record.atLeast_trace, ← traceJournal_eq _ _ _ (isTerminal_loaded a b)]
    rfl
  · intro number level trace hlevel
    rw [Command.respond_level hlevel h, Response.journal_after, loadJournal_eq, List.append_assoc,
      Recorded.run_eq, Record.atLeast_trace, ← traceJournal_eq _ _ _ level.isTerminal_machine]
    rfl

/-- What is written for a command line is the journal of its command, but for what matters less than is asked
for. -/
theorem journal_of_parse {files : Files} {commandLine : List String} {arguments : Arguments}
    (h : Arguments.parse commandLine = .ok arguments) :
    (respond files commandLine).journal.map Record.line =
      ((arguments.command.respond files).journal.map Record.line).filter
        fun line => line.severity ∉ arguments.severity.below := by
  rw [respond, h]
  exact Record.map_line_atLeast arguments.severity _

/-- A step that fails is written twice if the run is watched. -/
example :
    (respond (fun _ => .ok "POP AX".toUTF8) ["run", "pop", "--trace", "-vvv"]).journal.map Record.line =
      [⟨.trace, "chipasm", "line 1: POP AX"⟩,
        ⟨.debug, "chipasm", "parsed 1 instructions"⟩,
        ⟨.info, "chipduel", "1 instructions in pop"⟩,
        ⟨.trace, "chipduel::machine", "   0: POP AX | AX=0 BX=0 CX=0 DX=0 SP=16 | cycles 0"⟩,
        ⟨.debug, "chipduel::machine", "machine failed at pc 0: Stack underflow"⟩,
        ⟨.trace, "chipduel::machine", "   0: POP AX | AX=0 BX=0 CX=0 DX=0 SP=16 | cycles 0"⟩,
        ⟨.debug, "chipduel::machine", "machine failed at pc 0: Stack underflow"⟩] := by
  decide +kernel

end RegisterMachine.Console
