/-
# What the commands run

A program is run from a fresh machine with two words in its registers, by itself or at a level, and its
last machine is reported. The report comes after the steps that are shown and does not depend on them.

* `Console.loaded`, `Console.finished` : the machines at the start and at the end;
* `Console.Command.respond_run`, `Console.Command.respond_level` : the responses to a source text;
* `Console.exitCode_runResponse`, `Console.exitCode_levelResponse` : how they end;
* `Console.printed_runResponse`, `Console.printed_levelResponse` : the lines in them.
-/
import RegisterMachine.Console.Response

namespace RegisterMachine.Console

/-- A fresh machine with two words in its registers. -/
def loaded (a b : Word) : Machine :=
  (Machine.fresh.withRegister .ax a).withRegister .bx b

/-- The machine at the end of the run of a source text. -/
def finished (source : String) (a b : Word) (budget : Option UInt64) : Machine :=
  (loaded a b).run (.parse source) budget

@[simp] theorem isTerminal_loaded (a b : Word) : (loaded a b).isTerminal = false := rfl

variable {files : Files} {path source : String} {a b : Word} {budget : Option UInt64} {trace : Bool}
  {level : Level}

/-- A file with a source text is read and run. -/
theorem Command.respond_run (h : files.source path = .ok source) :
    (Command.run path a b budget trace).respond files =
      (runResponse source a b budget trace).after (loadJournal path source) := by
  rw [Command.respond, h]

/-- A file with a source text is read and tried at a level that exists. -/
theorem Command.respond_level {number : Nat} (hlevel : Level.find? number = some level)
    (h : files.source path = .ok source) :
    (Command.level number path trace).respond files =
      (levelResponse level source trace).after (loadJournal path source) := by
  simp only [Command.respond, hlevel, h]

/-- A run succeeds if the program halts. -/
theorem exitCode_runResponse :
    (runResponse source a b budget trace).exitCode =
      if (finished source a b budget).halted && (finished source a b budget).fault.isNone then 0
      else 1 := rfl

/-- A run is shown, and its last machine reported. -/
theorem printed_runResponse :
    (runResponse source a b budget trace).printed =
      traceLines (.parse source) (loaded a b) budget trace ++
        report (.parse source) (finished source a b budget) := rfl

/-- An attempt at a level succeeds if it wins. -/
theorem exitCode_levelResponse :
    (levelResponse level source trace).exitCode =
      if (level.attempt source).isSuccess then 0 else 1 := rfl

/-- An attempt at a level is announced, shown and reported, and its verdict is told. -/
theorem printed_levelResponse :
    (levelResponse level source trace).printed =
      header level ::
        (traceLines (.parse source) level.machine (some level.budget) trace ++
          (report (.parse source) (finished source level.inputs.a level.inputs.b (some level.budget)) ++
            [outcome level (level.attempt source)])) := by
  rw [← List.append_assoc, ← List.cons_append, ← List.cons_append]
  rfl

end RegisterMachine.Console
