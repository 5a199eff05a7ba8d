/-
# Raising a budget

A run with a larger budget goes at least as far. It differs from the run with the smaller budget only if
this one went over its budget: a run that came to another end has not met its budget at all.

* `Raises` : a budget that allows all that another one does;
* `Machine.runFor_eq_or_parts` : where the runs with the two budgets part, if they do;
* `Machine.run_of_raises` : a run that does not exceed its budget is the run with any larger one;
* `Machine.budgetExceeded_of_raises`, `Machine.cycles_run_mono` : one that exceeds the larger budget exceeds
  the smaller one, and uses no fewer cycles.

A run may start over its budget. It takes one step then, and a fault that this step finds is kept, while
the end of the budget is reported after any other step, even after one that halts.
-/
import RegisterMachine.Proofs.Machine.Cycles

namespace RegisterMachine

/-- The second budget allows all that the first one does. No budget allows any number of cycles. -/
inductive Raises : Option UInt64 → Option UInt64 → Prop
  | limited {limit larger : UInt64} (h : limit ≤ larger) : Raises (some limit) (some larger)
  | unlimited (budget : Option UInt64) : Raises budget none

namespace Machine

variable {program : Program} {m : Machine} {budget larger : Option UInt64}

/-- A machine that is over the larger budget is over the smaller one. -/
theorem exceeds_of_raises (h : Raises budget larger) (hover : m.exceeds larger = true) :
    m.exceeds budget = true := by
  cases h with
  | limited hle =>
      rw [exceeds_iff, isOver_some_iff] at hover ⊢
      exact UInt64.lt_of_le_of_lt hle hover
  | unlimited => exact absurd hover Bool.false_ne_true

/-! ## Where two runs part -/

/-- A machine that reports the end of a budget gets this fault, unless it has failed before. Then it keeps
its fault, and no run goes on from it. -/
theorem runFor_eq_fail_or (program : Program) (budget : Option UInt64) (m : Machine) (count : Nat) :
    m.runFor program budget count = m.fail .budgetExceeded ∨
      m.fail .budgetExceeded = { m with fault := some .budgetExceeded } := by
  rcases Option.eq_none_or_eq_some m.fault with hnone | ⟨fault, hfault⟩
  · exact Or.inr (fail_of_none _ hnone)
  · left
    rw [fail_of_fault _ hfault, runFor_of_fault hfault]

/-- **The runs with two budgets are the same, or part at some machine.** One run reports the end of the
smaller budget there, and the other one goes on from there. -/
theorem runFor_eq_or_parts (h : Raises budget larger) (m : Machine) (count : Nat) :
    m.runFor program larger count = m.runFor program budget count ∨
      ∃ taken rest, taken + rest = count ∧
        m.runFor program budget count =
          { m.after program taken with fault := some .budgetExceeded } ∧
        m.runFor program larger count = (m.after program taken).runFor program larger rest := by
  induction count generalizing m with
  | zero => exact Or.inl rfl
  | succ count ih =>
      cases hterminal : m.isTerminal with
      | true =>
          left
          rw [runFor_of_isTerminal hterminal, runFor_of_isTerminal hterminal]
      | false =>
          rw [runFor_succ hterminal, runFor_succ hterminal]
          by_cases hover : (m.step program).exceeds budget = true
          · rw [if_pos hover]
            split
            · -- the step goes over the larger budget as well
              exact Or.inl rfl
            · rcases runFor_eq_fail_or program larger (m.step program) count with hsame | hfails
              · exact Or.inl hsame
              · exact Or.inr ⟨1, count, Nat.add_comm 1 count, hfails, rfl⟩
          · rw [if_neg hover, if_neg fun hlarger => hover (exceeds_of_raises h hlarger)]
            rcases ih (m.step program) with hsame | ⟨taken, rest, hsum, hbudget, hlarger⟩
            · exact Or.inl hsame
            · right
              refine ⟨taken + 1, rest, by omega, ?_, ?_⟩
              · rw [after_succ', hbudget]
              · rw [after_succ', hlarger]

/-- A run that does not exceed its budget is the run with any larger one. -/
theorem run_of_raises (h : Raises budget larger)
    (hne : (m.run program budget).fault ≠ some .budgetExceeded) :
    m.run program larger = m.run program budget := by
  rcases runFor_eq_or_parts h m stepLimit with hsame | ⟨taken, rest, -, hbudget, -⟩
  · exact hsame
  · rw [run, hbudget] at hne
    exact absurd rfl hne

/-- A run that exceeds the larger budget exceeds the smaller one. -/
theorem budgetExceeded_of_raises (h : Raises budget larger)
    (hexceeded : (m.run program larger).fault = some .budgetExceeded) :
    (m.run program budget).fault = some .budgetExceeded := by
  by_contra hne
  rw [run_of_raises h hne] at hexceeded
  exact hne hexceeded

/-! ## Cycles -/

/-- A run gives no cycles back. -/
theorem cycles_le_runFor (program : Program) (budget : Option UInt64) {count : Nat}
    (hroom : m.cycles.toNat + 3 * count < UInt64.size) :
    m.cycles ≤ (m.runFor program budget count).cycles := by
  induction count generalizing m with
  | zero => exact UInt64.le_rfl
  | succ count ih =>
      cases hterminal : m.isTerminal with
      | true =>
          rw [runFor_of_isTerminal hterminal]
          exact UInt64.le_rfl
      | false =>
          obtain ⟨hlow, hhigh⟩ := cycles_step_le (m := m) program (by omega)
          have hstep : m.cycles ≤ (m.step program).cycles := UInt64.le_iff_toNat_le.2 hlow
          rw [runFor_succ hterminal]
          split
          · exact hstep
          · exact UInt64.le_trans hstep (ih (by omega))

/-- A run with a larger budget uses no fewer cycles. -/
theorem cycles_run_mono (h : Raises budget larger)
    (hroom : m.cycles.toNat + 3 * stepLimit < UInt64.size) :
    (m.run program budget).cycles ≤ (m.run program larger).cycles := by
  rcases runFor_eq_or_parts h m stepLimit with hsame | ⟨taken, rest, hsum, hbudget, hlarger⟩
  · rw [run, run, hsame]
    exact UInt64.le_rfl
  · have htaken : (m.after program taken).cycles.toNat ≤ m.cycles.toNat + 3 * taken :=
      (cycles_after_le program (by omega)).2
    rw [run, run, hbudget, hlarger]
    exact cycles_le_runFor (m := m.after program taken) program larger (by omega)

end Machine

end RegisterMachine
