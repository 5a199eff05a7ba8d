/-
# Driving a program by turns

A driver without a budget may change its ways as often as it likes: it takes single steps, takes some
machines from an execution, or runs the program. Each turn takes a number of steps that is known before
it, and a terminal machine takes them without a change. So only the sum of these numbers matters, and
neither the order of the turns nor how the steps are split between them.

* `Turn` : the ways of driving a program, with the steps that each of them takes;
* `Machine.drive_turns` : a sequence of turns takes the sum of their steps;
* `Execution.answer?`, `Execution.asked` : what an execution hands out when it is asked again and again;
* `Execution.answer?_mk` : the answers are the machines one step apart, up to the first terminal one;
* `Machine.drive_turns_and_answers` : drivers and answers together.
-/
import Mathlib.Algebra.BigOperators.Group.List.Basic
import Mathlib.Algebra.GroupWithZero.Nat
import RegisterMachine.Proofs.Machine.Orbit

namespace RegisterMachine

/-! ## Turns -/

/-- What a driver without a budget does with a program in one go. -/
inductive Turn
  | step
  /-- Takes at most this many machines from an execution, and goes on with the last of them. -/
  | take (count : Nat)
  | run
  deriving DecidableEq, Repr

namespace Turn

/-- The action of a turn. -/
def action (program : Program) : Turn → Action
  | step => .step program
  | take count => .take program count
  | run => .run program none

/-- The steps of a turn, if the machine does not come to its end before. -/
def steps : Turn → Nat
  | step => 1
  | take count => count
  | run => stepLimit

/-- The steps of a sequence of turns. -/
def total (turns : List Turn) : Nat :=
  (turns.map steps).sum

@[simp] theorem total_cons (turn : Turn) (turns : List Turn) :
    total (turn :: turns) = turn.steps + total turns := rfl

/-- The order of turns does not matter for their steps. -/
theorem total_of_perm {turns others : List Turn} (h : turns.Perm others) :
    total turns = total others :=
  (h.map steps).sum_eq

end Turn

namespace Machine

variable {program : Program} {m : Machine}

/-- A turn takes its steps. -/
theorem act_turn (m : Machine) (program : Program) (turn : Turn) :
    m.act (turn.action program) = m.after program turn.steps := by
  cases turn with
  | step => rfl
  | take count => exact Execution.machine_take ⟨program, m⟩ count
  | run => exact runFor_none m program stepLimit

/-- A sequence of turns takes the sum of their steps. -/
theorem drive_turns (m : Machine) (program : Program) (turns : List Turn) :
    m.drive (turns.map (Turn.action program)) = m.after program (Turn.total turns) := by
  induction turns generalizing m with
  | nil => rfl
  | cons turn turns ih =>
      rw [List.map_cons, drive_cons, act_turn, ih, Turn.total_cons, after_add]

end Machine

/-! ## Asking an execution -/

namespace Execution

variable {program : Program} {m : Machine}

/-- The execution after it was asked for its next machine. It does not change when there is none. -/
def advance (execution : Execution) : Execution :=
  match execution.next? with
  | none => execution
  | some (_, rest) => rest

/-- The execution after it was asked a number of times. -/
def asked (execution : Execution) : Nat → Execution
  | 0 => execution
  | count + 1 => (execution.asked count).advance

/-- The answer of an execution that was asked a number of times before. -/
def answer? (execution : Execution) (before : Nat) : Option Machine :=
  (execution.asked before).next?.map Prod.fst

/-- The machines among the first answers. -/
def answers (execution : Execution) (count : Nat) : List Machine :=
  (List.range count).filterMap execution.answer?

/-- To ask an execution is to take a step. -/
theorem advance_mk (program : Program) (m : Machine) :
    (mk program m).advance = mk program (m.step program) := by
  cases hterminal : m.isTerminal with
  | true => rw [advance, next?, if_pos hterminal, Machine.step_of_isTerminal program hterminal]
  | false =>
      rw [advance, next?, hterminal, if_neg Bool.false_ne_true]

/-- To ask it a number of times is to take as many steps. -/
theorem asked_mk (program : Program) (m : Machine) (count : Nat) :
    (mk program m).asked count = mk program (m.after program count) := by
  induction count with
  | zero => rfl
  | succ count ih => rw [asked, ih, advance_mk, Machine.after_succ]

/-- **The answers of an execution.** The next machine is the one after a step, as long as the machine
before it is not terminal. -/
theorem answer?_mk (program : Program) (m : Machine) (before : Nat) :
    (mk program m).answer? before =
      if (m.after program before).isTerminal then none else some (m.after program (before + 1)) := by
  rw [answer?, asked_mk, next?]
  split
  · rfl
  · rw [Machine.after_succ]
    rfl

/-- There is no answer exactly when the machine is terminal. -/
theorem answer?_eq_none_iff {before : Nat} :
    (mk program m).answer? before = none ↔ (m.after program before).isTerminal = true := by
  rw [answer?_mk]
  split <;> simp [*]

/-- An execution that has no answer has none later on. -/
theorem answer?_eq_none_of_le {before later : Nat} (hle : before ≤ later)
    (h : (mk program m).answer? before = none) : (mk program m).answer? later = none := by
  rw [answer?_eq_none_iff] at h ⊢
  rwa [Machine.after_eq_of_isTerminal h hle]

theorem answers_succ (execution : Execution) (count : Nat) :
    execution.answers (count + 1) =
      execution.answers count ++ (execution.answer? count).toList := by
  rw [answers, List.range_succ, List.filterMap_append]
  cases h : execution.answer? count <;> simp [answers, h]

/-- The machine of an execution is the last one that it has handed out, or the one at its start. -/
theorem machine_asked (program : Program) (m : Machine) (count : Nat) :
    ((mk program m).asked count).machine = ((mk program m).answers count).getLast?.getD m := by
  induction count with
  | zero => rfl
  | succ count ih =>
      rw [asked_mk] at ih
      rw [asked_mk, answers_succ, answer?_mk]
      split
      · next hterminal =>
          rw [Option.toList_none, List.append_nil, ← ih]
          exact Machine.step_of_isTerminal program hterminal
      · rw [Option.toList_some, List.getLast?_concat]
        rfl

/-- The first answer comes from the machine at the start, and the others are those that the machine
after a step gives. -/
theorem answers_of_goes (h : m.isTerminal = false) (count : Nat) :
    (mk program m).answers (count + 1) =
      m.step program :: (mk program (m.step program)).answers count := by
  have hfirst : (mk program m).answer? 0 = some (m.step program) := by
    rw [answer?_mk, Machine.after_zero, h]
    rfl
  have hrest : ∀ before, (mk program m).answer? (before + 1) =
      (mk program (m.step program)).answer? before := by
    intro before
    rw [answer?_mk, answer?_mk, Machine.after_succ', Machine.after_succ']
  rw [answers, List.range_succ_eq_map, List.filterMap_cons, hfirst, List.filterMap_map, answers]
  exact congrArg _ (List.filterMap_congr fun before _ => hrest before)

/-- To take some machines from an execution is to ask it as often, and to stop at its end. -/
theorem take_eq_answers (program : Program) (m : Machine) (count : Nat) :
    (mk program m).take count = ((mk program m).answers count, (mk program m).asked count) := by
  induction count generalizing m with
  | zero => rfl
  | succ count ih =>
      cases hterminal : m.isTerminal with
      | true =>
          have hnone : ∀ before, (mk program m).answer? before = none := by
            intro before
            rw [answer?_eq_none_iff, Machine.after_of_isTerminal program hterminal]
            exact hterminal
          have hanswers : (mk program m).answers (count + 1) = [] :=
            List.filterMap_eq_nil_iff.2 fun before _ => hnone before
          rw [take_of_isTerminal hterminal, hanswers, asked_mk,
            Machine.after_of_isTerminal program hterminal]
      | false =>
          rw [take_succ hterminal, ih, answers_of_goes hterminal, asked_mk, asked_mk,
            Machine.after_succ']

end Execution

/-! ## All drivers and their answers -/

namespace Machine

/-- **All drivers without a budget follow the same machines.** A sequence of turns takes the sum of their
steps, so that two sequences with the same sum get to the same machine, in whichever order and however
split. An execution hands out the machines one step apart, up to the first terminal one; then it has no
answer any more, and it always holds the last machine that it has handed out. -/
theorem drive_turns_and_answers (program : Program) (m : Machine) :
    (∀ turns : List Turn,
      m.drive (turns.map (Turn.action program)) = m.after program (Turn.total turns)) ∧
    (∀ turns others : List Turn, Turn.total turns = Turn.total others →
      m.drive (turns.map (Turn.action program)) = m.drive (others.map (Turn.action program))) ∧
    (∀ turns others : List Turn, turns.Perm others →
      m.drive (turns.map (Turn.action program)) = m.drive (others.map (Turn.action program))) ∧
    (∀ before, (Execution.mk program m).answer? before =
      if (m.after program before).isTerminal then none
      else some (m.after program (before + 1))) ∧
    (∀ before later, before ≤ later → (Execution.mk program m).answer? before = none →
      (Execution.mk program m).answer? later = none) ∧
    ∀ count,
      ((Execution.mk program m).asked count).machine =
        ((Execution.mk program m).answers count).getLast?.getD m ∧
      (Execution.mk program m).take count =
        ((Execution.mk program m).answers count, (Execution.mk program m).asked count) := by
  have hsame : ∀ turns others : List Turn, Turn.total turns = Turn.total others →
      m.drive (turns.map (Turn.action program)) = m.drive (others.map (Turn.action program)) := by
    intro turns others htotal
    rw [drive_turns, drive_turns, htotal]
  refine ⟨drive_turns m program, hsame, ?_, Execution.answer?_mk program m, ?_, ?_⟩
  · intro turns others hperm
    exact hsame turns others (Turn.total_of_perm hperm)
  · intro before later hle hnone
    exact Execution.answer?_eq_none_of_le hle hnone
  · intro count
    exact ⟨Execution.machine_asked program m count, Execution.take_eq_answers program m count⟩

/-- Taking two machines, running and stepping get as far as running and taking three, and so does any
order of these turns. An execution that has halted has no answer to the third question, nor to any later
one. -/
theorem drive_turns_halting :
    let program := Program.parse "ADD AX, 1\nHLT AX"
    fresh.drive ([.take 2, .run, .step].map (Turn.action program)) =
        fresh.drive ([.run, .take 3].map (Turn.action program)) ∧
      fresh.drive ([.take 2, .run, .step].map (Turn.action program)) =
        fresh.drive ([.step, .take 2, .run].map (Turn.action program)) ∧
      ∀ later, 2 ≤ later → (Execution.mk program fresh).answer? later = none := by
  intro program
  have hdrivers := drive_turns_and_answers program fresh
  refine ⟨hdrivers.2.1 _ _ (by decide), hdrivers.2.2.1 _ _ (by decide), ?_⟩
  intro later hle
  exact hdrivers.2.2.2.2.1 2 later hle (by decide +kernel)

end Machine

end RegisterMachine
