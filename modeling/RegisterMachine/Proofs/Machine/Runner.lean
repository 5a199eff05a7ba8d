/-
# Where a run ends

A run is a number of single steps. It ends after the first step that leaves the machine terminal or
over the budget, or after ten thousand steps if there is no such step among them.

* `Machine.Stops` : the machines after which a run takes no further step;
* `Machine.IsFirstStop` : the number of steps after which this happens for the first time;
* `Machine.runFor_of_first`, `Machine.runFor_of_forall_not` : the two ways in which a run ends, for any
  limit on its steps;
* `Machine.exists_isFirstStop` : among the first ten thousand machines there is a first to stop at, if
  there is any.

A run looks at whether the machine is terminal before it takes a step, and at the budget after it. So
the machine at the start is never measured against the budget.
-/
import Mathlib.Data.Nat.Find
import Mathlib.Order.Bounds.Basic
import Mathlib.Order.Interval.Set.Defs
import RegisterMachine.Machine.Run

namespace RegisterMachine

namespace Machine

variable {m : Machine} {program : Program} {budget : Option UInt64}

/-! ## Stopping -/

/-- A machine is over a budget, if there is one, when it has used more cycles. -/
def IsOver (m : Machine) (budget : Option UInt64) : Prop :=
  ∃ limit, budget = some limit ∧ limit < m.cycles

/-- No further step is taken from a machine that is terminal or over the budget. -/
def Stops (m : Machine) (budget : Option UInt64) : Prop :=
  m.isTerminal = true ∨ m.IsOver budget

/-- A machine that is not terminal has neither halted nor failed. -/
theorem isTerminal_eq_false_iff : m.isTerminal = false ↔ m.halted = false ∧ m.fault = none := by
  rw [isTerminal, Bool.or_eq_false_iff, Option.isSome_eq_false_iff, Option.isNone_iff_eq_none]

/-- A machine that has failed is at its end. -/
theorem isTerminal_of_fault (h : m.fault ≠ none) : m.isTerminal = true := by
  rw [isTerminal, Option.isSome_iff_ne_none.2 h, Bool.or_true]

theorem exceeds_iff : m.exceeds budget = true ↔ m.IsOver budget := by
  cases budget <;> simp [exceeds, IsOver]

theorem isOver_some_iff {limit : UInt64} : m.IsOver (some limit) ↔ limit < m.cycles := by
  simp [IsOver]

/-- A machine that does not stop a run is neither terminal nor over the budget. -/
theorem not_stops_iff : ¬ m.Stops budget ↔ m.isTerminal = false ∧ m.exceeds budget = false := by
  rw [Stops, ← exceeds_iff, not_or, Bool.not_eq_true, Bool.not_eq_true]

/-- The least number of steps, from one to ten thousand, after which a machine stops. -/
def IsFirstStop (m : Machine) (program : Program) (budget : Option UInt64) (n : Nat) : Prop :=
  IsLeast {k | k ∈ Set.Icc 1 10000 ∧ (m.after program k).Stops budget} n

/-- There is a first machine to stop at if there is any. -/
theorem exists_isFirstStop (h : ∃ k ∈ Set.Icc 1 10000, (m.after program k).Stops budget) :
    ∃ n, m.IsFirstStop program budget n := by
  classical
  refine ⟨Nat.find h, Nat.find_spec h, ?_⟩
  intro k hk
  exact Nat.find_min' h hk

/-- No machine before the first to stop at stops. -/
theorem IsFirstStop.not_stops {n k : Nat} (h : m.IsFirstStop program budget n) (hpos : 1 ≤ k)
    (hlt : k < n) : ¬ (m.after program k).Stops budget := by
  intro hstops
  have hle : k ≤ 10000 := Nat.le_trans (Nat.le_of_lt hlt) h.1.1.2
  have hleast : n ≤ k := h.2 ⟨⟨hpos, hle⟩, hstops⟩
  omega

/-! ## Runs with any limit on their steps -/

theorem runFor_succ (hm : m.isTerminal = false) (count : Nat) :
    m.runFor program budget (count + 1) =
      if (m.step program).exceeds budget then (m.step program).fail .budgetExceeded
      else (m.step program).runFor program budget count := by
  rw [runFor, hm]
  rfl

/-- A terminal machine does not run, whatever the limit on its steps is. -/
theorem runFor_of_isTerminal (hm : m.isTerminal = true) (count : Nat) :
    m.runFor program budget count = m := by
  cases count with
  | zero => rfl
  | succ count => rw [runFor, if_pos hm]

/-- A machine that has failed does not run. -/
theorem runFor_of_fault {fault : Fault} (h : m.fault = some fault) (count : Nat) :
    m.runFor program budget count = m := by
  apply runFor_of_isTerminal
  apply isTerminal_of_fault
  rw [h]
  exact Option.some_ne_none fault

/-- A run in which no machine stops takes as many steps as it may. -/
theorem runFor_of_forall_not {count : Nat} (hm : m.isTerminal = false)
    (h : ∀ k, 1 ≤ k → k ≤ count → ¬ (m.after program k).Stops budget) :
    m.runFor program budget count = m.after program count := by
  induction count generalizing m with
  | zero => rfl
  | succ count ih =>
      -- the first step leads to a machine that does not stop, and what follows is a run from there
      obtain ⟨hterminal, hexceeds⟩ := not_stops_iff.1 (h 1 le_rfl (by omega))
      rw [after_succ', after_zero] at hterminal hexceeds
      rw [runFor_succ hm, hexceeds, after_succ']
      refine ih hterminal fun k hpos hle => ?_
      rw [← after_succ']
      exact h (k + 1) (by omega) (by omega)

/-- A run ends at the first machine that stops, with a fault if this machine is over the budget. -/
theorem runFor_of_first {n count : Nat} (hm : m.isTerminal = false) (hn : n + 1 ≤ count)
    (hbefore : ∀ k, 1 ≤ k → k ≤ n → ¬ (m.after program k).Stops budget)
    (hstops : (m.after program (n + 1)).Stops budget) :
    m.runFor program budget count =
      if (m.after program (n + 1)).exceeds budget then
        (m.after program (n + 1)).fail .budgetExceeded
      else m.after program (n + 1) := by
  induction n generalizing m count with
  | zero =>
      obtain ⟨count, rfl⟩ : ∃ c, count = c + 1 := ⟨count - 1, by omega⟩
      rw [after_succ', after_zero] at hstops ⊢
      rw [runFor_succ hm]
      by_cases hexceeds : (m.step program).exceeds budget = true
      · rw [if_pos hexceeds, if_pos hexceeds]
      · rw [if_neg hexceeds, if_neg hexceeds]
        rcases hstops with hterminal | hover
        · -- the loop is entered once more, and finds the machine terminal
          exact runFor_of_isTerminal hterminal count
        · exact absurd (exceeds_iff.2 hover) hexceeds
  | succ n ih =>
      obtain ⟨count, rfl⟩ : ∃ c, count = c + 1 := ⟨count - 1, by omega⟩
      obtain ⟨hterminal, hexceeds⟩ := not_stops_iff.1 (hbefore 1 le_rfl (by omega))
      rw [after_succ', after_zero] at hterminal hexceeds
      rw [after_succ'] at hstops ⊢
      rw [runFor_succ hm, hexceeds]
      refine ih hterminal (by omega) (fun k hpos hle => ?_) hstops
      rw [← after_succ']
      exact hbefore (k + 1) (by omega) (by omega)

/-! ## Runs -/

/-- A run ends at the first machine that stops, with a fault if this machine is over the budget. -/
theorem run_of_isFirstStop {n : Nat} (hm : m.isTerminal = false)
    (h : m.IsFirstStop program budget n) :
    m.run program budget =
      if (m.after program n).exceeds budget then (m.after program n).fail .budgetExceeded
      else m.after program n := by
  have hpos : 1 ≤ n := h.1.1.1
  obtain ⟨n, rfl⟩ : ∃ p, n = p + 1 := ⟨n - 1, by omega⟩
  exact runFor_of_first hm h.1.1.2 (fun k hk hle => h.not_stops hk (by omega)) h.1.2

/-- A run in which no machine stops takes ten thousand steps. -/
theorem run_of_forall_not (hm : m.isTerminal = false)
    (h : ¬ ∃ k ∈ Set.Icc 1 10000, (m.after program k).Stops budget) :
    m.run program budget = m.after program 10000 ∧
      (m.after program 10000).isTerminal = false := by
  have hnot : ∀ k, 1 ≤ k → k ≤ 10000 → ¬ (m.after program k).Stops budget :=
    fun k hpos hle hstops => h ⟨k, ⟨hpos, hle⟩, hstops⟩
  exact ⟨runFor_of_forall_not hm hnot, (not_stops_iff.1 (hnot 10000 (by omega) le_rfl)).1⟩

/-- Failing sets the fault of a machine without one, and nothing else. -/
theorem fail_of_none {m : Machine} (fault : Fault) (h : m.fault = none) :
    m.fail fault = { m with fault := some fault } := by
  rw [fail, h]
  rfl

/-- **Where a run ends.** A terminal machine does not run. Any other machine runs to the first machine
that is terminal or over the budget, or through ten thousand steps if there is none among them. The
machine there is the result; only a machine that is over the budget, and has no fault, gets one. -/
theorem run_eq_after (m : Machine) (program : Program) (budget : Option UInt64) :
    (m.isTerminal = true → m.run program budget = m) ∧
    (m.isTerminal = false →
      (∀ n, m.IsFirstStop program budget n →
        ((m.after program n).IsOver budget ∧ (m.after program n).fault = none →
          m.run program budget = { m.after program n with fault := some .budgetExceeded }) ∧
        (¬ ((m.after program n).IsOver budget ∧ (m.after program n).fault = none) →
          m.run program budget = m.after program n)) ∧
      ((¬ ∃ k ∈ Set.Icc 1 10000, (m.after program k).Stops budget) →
        m.run program budget = m.after program 10000 ∧
        (m.after program 10000).halted = false ∧ (m.after program 10000).fault = none)) := by
  refine ⟨run_of_isTerminal program budget, fun hm => ⟨fun n hn => ⟨?_, ?_⟩, fun hnone => ?_⟩⟩
  · rintro ⟨hover, hfault⟩
    rw [run_of_isFirstStop hm hn, if_pos (exceeds_iff.2 hover), fail_of_none _ hfault]
  · intro hnot
    rw [run_of_isFirstStop hm hn]
    split
    · next hexceeds =>
        -- the machine is over the budget, so it has a fault already
        have hsome : (m.after program n).fault ≠ none :=
          fun hfault => hnot ⟨exceeds_iff.1 hexceeds, hfault⟩
        obtain ⟨first, hfirst⟩ := Option.ne_none_iff_exists'.1 hsome
        exact fail_of_fault _ hfirst
    · rfl
  · obtain ⟨hrun, hterminal⟩ := run_of_forall_not hm hnone
    exact ⟨hrun, isTerminal_eq_false_iff.1 hterminal⟩

/-- The budget is measured after a step and not before it: a machine that starts over the budget takes
one step, here over a bare label, and fails there. -/
theorem run_of_over_at_start :
    { fresh with cycles := 5 }.run (.ofInstructions [⟨none, [], some "a"⟩]) (some 0) =
      { fresh with cycles := 5, pc := 1, fault := some .budgetExceeded } := by
  have hstops : IsFirstStop { fresh with cycles := 5 } (.ofInstructions [⟨none, [], some "a"⟩])
      (some 0) 1 := by
    refine ⟨⟨⟨le_rfl, by omega⟩, Or.inr ⟨0, rfl, by decide⟩⟩, ?_⟩
    intro k hk
    exact hk.1.1
  exact (((run_eq_after _ _ _).2 rfl).1 1 hstops).1 ⟨⟨0, rfl, by decide⟩, rfl⟩

end Machine

end RegisterMachine
