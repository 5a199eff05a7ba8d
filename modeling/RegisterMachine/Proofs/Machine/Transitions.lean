/-
# The steps of a run

A run takes its steps one after the other, to the first machine that stops or to the limit on steps. The
machine at its end is the one after the last step, but for the fault of an exceeded budget.

* `Machine.Takes` : the number of steps that a run takes;
* `Machine.Takes.transitions_eq` : the steps of a run, one by one;
* `Machine.Takes.run_eq` : the end of a run and its last step;
* `Machine.exists_takes_of_fault` : the last step of a run that fails;
* `Machine.fault_runFor_of_mem_transitionsFor` : a run ends with the fault of any of its steps;
* `Machine.transitions_of_step`, `Machine.run_of_step` : what every step keeps, a run keeps.
-/
import RegisterMachine.Proofs.Machine.Runner

namespace RegisterMachine

namespace Machine

variable {program : Program} {m : Machine} {budget : Option UInt64} {n k : Nat}

/-! ## The number of steps -/

/-- The number of steps that a run takes: to the first machine to stop at, or to the limit. -/
inductive Takes (m : Machine) (program : Program) (budget : Option UInt64) : Nat → Prop
  | stops {n : Nat} (h : m.IsFirstStop program budget n) : Takes m program budget n
  | limit (h : ¬ ∃ k ∈ Set.Icc 1 10000, (m.after program k).Stops budget) :
      Takes m program budget 10000

/-- Every run takes a number of steps. -/
theorem exists_takes (m : Machine) (program : Program) (budget : Option UInt64) :
    ∃ n, m.Takes program budget n := by
  by_cases h : ∃ k ∈ Set.Icc 1 10000, (m.after program k).Stops budget
  · obtain ⟨n, hn⟩ := exists_isFirstStop h
    exact ⟨n, .stops hn⟩
  · exact ⟨10000, .limit h⟩

/-- A run takes a step at least, and keeps to the limit. -/
theorem Takes.bounds (h : m.Takes program budget n) : 1 ≤ n ∧ n ≤ 10000 := by
  rcases h with h | _
  · exact h.1.1
  · omega

/-- A run takes a step at least. -/
theorem Takes.exists_eq_succ (h : m.Takes program budget n) : ∃ k, n = k + 1 :=
  ⟨n - 1, (Nat.sub_add_cancel h.bounds.1).symm⟩

/-- No machine stops before the last step. -/
theorem Takes.not_stops (h : m.Takes program budget n) (hpos : 1 ≤ k) (hlt : k < n) :
    ¬ (m.after program k).Stops budget := by
  rcases h with h | hnone
  · exact h.not_stops hpos hlt
  · intro hstops
    exact hnone ⟨k, ⟨hpos, by omega⟩, hstops⟩

/-- No machine is terminal before the last step. -/
theorem Takes.goes (h : m.Takes program budget n) (hm : m.isTerminal = false) (hlt : k < n) :
    (m.after program k).isTerminal = false := by
  rcases Nat.eq_zero_or_pos k with rfl | hpos
  · exact hm
  · exact (not_stops_iff.1 (h.not_stops hpos hlt)).1

/-- The last step leads to the limit, or to a machine that stops. -/
theorem Takes.limit_or_stops (h : m.Takes program budget n) :
    n = 10000 ∨ (m.after program n).Stops budget := by
  rcases h with h | _
  · exact Or.inr h.1.2
  · exact Or.inl rfl

/-! ## The steps one by one -/

theorem transitionsFor_of_isTerminal (hm : m.isTerminal = true) (count : Nat) :
    m.transitionsFor program budget count = [] := by
  cases count with
  | zero => rfl
  | succ count => rw [transitionsFor, if_pos hm]

theorem transitionsFor_succ (hm : m.isTerminal = false) (count : Nat) :
    m.transitionsFor program budget (count + 1) =
      ⟨m, m.step program⟩ ::
        if (m.step program).exceeds budget then []
        else (m.step program).transitionsFor program budget count := by
  rw [transitionsFor, hm]
  rfl

/-- As long as no machine stops, there is a further step. -/
theorem transitionsFor_of_forall_not {count : Nat} (hm : m.isTerminal = false)
    (hn : n + 1 ≤ count) (hbefore : ∀ k, 1 ≤ k → k ≤ n → ¬ (m.after program k).Stops budget)
    (hlast : n + 1 = count ∨ (m.after program (n + 1)).Stops budget) :
    m.transitionsFor program budget count =
      (List.range (n + 1)).map fun k => ⟨m.after program k, m.after program (k + 1)⟩ := by
  obtain ⟨count, rfl⟩ : ∃ c, count = c + 1 := ⟨count - 1, by omega⟩
  induction n generalizing m count with
  | zero =>
      rw [after_succ', after_zero] at hlast
      have hrest : (if (m.step program).exceeds budget then []
          else (m.step program).transitionsFor program budget count) = [] := by
        split
        · rfl
        · next hexceeds =>
            rcases hlast with hcount | hterminal | hover
            · obtain rfl : count = 0 := by omega
              rfl
            · exact transitionsFor_of_isTerminal hterminal count
            · exact absurd (exceeds_iff.2 hover) hexceeds
      rw [transitionsFor_succ hm, hrest]
      rfl
  | succ n ih =>
      obtain ⟨hterminal, hexceeds⟩ := not_stops_iff.1 (hbefore 1 le_rfl (by omega))
      rw [after_succ', after_zero] at hterminal hexceeds
      rw [after_succ'] at hlast
      obtain ⟨count, rfl⟩ : ∃ c, count = c + 1 := ⟨count - 1, by omega⟩
      have hnext : ∀ k, 1 ≤ k → k ≤ n → ¬ ((m.step program).after program k).Stops budget := by
        intro k hpos hle
        rw [← after_succ']
        exact hbefore (k + 1) (by omega) (by omega)
      -- the steps after the first are those of a run from the machine that it leads to
      have hrest := ih hterminal hnext count (by omega) (hlast.imp_left (by omega))
      rw [transitionsFor_succ hm, hexceeds, if_neg Bool.false_ne_true, hrest,
        List.range_succ_eq_map (n := n + 1), List.map_cons, List.map_map]
      simp only [Function.comp_def, after_zero, after_succ']

/-- The steps of a run. -/
theorem Takes.transitions_eq (h : m.Takes program budget n) (hm : m.isTerminal = false) :
    m.transitions program budget =
      (List.range n).map fun k => ⟨m.after program k, m.after program (k + 1)⟩ := by
  obtain ⟨n, rfl⟩ := h.exists_eq_succ
  exact transitionsFor_of_forall_not hm h.bounds.2
    (fun k hpos hle => h.not_stops hpos (by omega)) h.limit_or_stops

/-- The last step of a run. -/
theorem Takes.getLast?_transitions (h : m.Takes program budget (n + 1)) (hm : m.isTerminal = false) :
    (m.transitions program budget).getLast? = some ⟨m.after program n, m.after program (n + 1)⟩ := by
  rw [h.transitions_eq hm, List.range_succ, List.map_append]
  exact List.getLast?_concat

/-! ## The end of a run -/

/-- A run ends on the machine after its last step. If this machine is over the budget, and has no fault,
the run adds one. -/
theorem Takes.run_eq (h : m.Takes program budget n) (hm : m.isTerminal = false) :
    m.run program budget = m.after program n ∨
      ((m.after program n).IsOver budget ∧ (m.after program n).fault = none ∧
        m.run program budget = { m.after program n with fault := some .budgetExceeded }) := by
  rcases h with h | hnone
  · rw [run_of_isFirstStop hm h]
    split
    · next hexceeds =>
        rcases Option.eq_none_or_eq_some (m.after program n).fault with hfault | ⟨first, hfault⟩
        · exact Or.inr ⟨exceeds_iff.1 hexceeds, hfault, fail_of_none _ hfault⟩
        · exact Or.inl (fail_of_fault _ hfault)
    · exact Or.inl rfl
  · exact Or.inl (run_of_forall_not hm hnone).1

/-- A run that ends with the fault of a step ends on the machine after its last step. -/
theorem exists_takes_of_fault {fault : Fault} (hm : m.isTerminal = false)
    (h : (m.run program budget).fault = some fault) (hne : fault ≠ .budgetExceeded) :
    ∃ n, m.Takes program budget (n + 1) ∧ (m.after program n).isTerminal = false ∧
      m.run program budget = m.after program (n + 1) := by
  obtain ⟨n, htakes⟩ := exists_takes m program budget
  obtain ⟨n, rfl⟩ := htakes.exists_eq_succ
  refine ⟨n, htakes, htakes.goes hm (Nat.lt_succ_self n), ?_⟩
  rcases htakes.run_eq hm with hrun | ⟨-, -, hrun⟩
  · exact hrun
  · -- the fault that a run adds is not one of a step
    rw [hrun, Option.some.injEq] at h
    exact absurd h.symm hne

/-- Each step of a run leads from one machine to the next one. -/
theorem exists_of_mem_transitions {transition : Transition}
    (hmem : transition ∈ m.transitions program budget) :
    ∃ k, transition = ⟨m.after program k, m.after program (k + 1)⟩ := by
  cases hm : m.isTerminal with
  | true =>
      rw [transitions, transitionsFor_of_isTerminal hm] at hmem
      cases hmem
  | false =>
      obtain ⟨n, htakes⟩ := exists_takes m program budget
      rw [htakes.transitions_eq hm] at hmem
      obtain ⟨k, -, rfl⟩ := List.mem_map.1 hmem
      exact ⟨k, rfl⟩

/-- A step of a run is a step of the machine before it. -/
theorem step_of_mem_transitions {transition : Transition}
    (hmem : transition ∈ m.transitions program budget) :
    transition.before.step program = transition.after := by
  obtain ⟨k, rfl⟩ := exists_of_mem_transitions hmem
  rfl

/-- A run ends with the fault of any of its steps. -/
theorem fault_runFor_of_mem_transitionsFor {transition : Transition} {fault : Fault} {count : Nat}
    (hmem : transition ∈ m.transitionsFor program budget count)
    (hfault : transition.after.fault = some fault) :
    (m.runFor program budget count).fault = some fault := by
  induction count generalizing m with
  | zero => cases hmem
  | succ count ih =>
      cases hm : m.isTerminal with
      | true =>
          rw [transitionsFor_of_isTerminal hm] at hmem
          cases hmem
      | false =>
          rw [transitionsFor_succ hm] at hmem
          rw [runFor_succ hm]
          rcases List.mem_cons.1 hmem with rfl | hrest
          · -- the first step fails, and the run ends after it
            rw [fail_of_fault _ hfault, runFor_of_fault hfault, ite_self, hfault]
          · split at hrest
            · cases hrest
            · next hwithin =>
                rw [if_neg hwithin]
                exact ih hrest

/-! ## What a run keeps -/

variable {P : Machine → Prop}

/-- What every step keeps holds before and after each step of a run. -/
theorem transitions_of_step (hstep : ∀ m : Machine, P m → P (m.step program)) (h : P m)
    {transition : Transition} (hmem : transition ∈ m.transitions program budget) :
    P transition.before ∧ P transition.after := by
  obtain ⟨k, rfl⟩ := exists_of_mem_transitions hmem
  exact ⟨after_of_step hstep h k, after_of_step hstep h (k + 1)⟩

/-- It holds at the end of a run, if it does not depend on the fault of an exceeded budget. -/
theorem run_of_step (hstep : ∀ m : Machine, P m → P (m.step program))
    (hfail : ∀ m : Machine, P m → P { m with fault := some .budgetExceeded }) (h : P m) :
    P (m.run program budget) := by
  cases hm : m.isTerminal with
  | true => rwa [run_of_isTerminal program budget hm]
  | false =>
      obtain ⟨n, htakes⟩ := exists_takes m program budget
      have hlast : P (m.after program n) := after_of_step hstep h n
      rcases htakes.run_eq hm with hrun | ⟨-, -, hrun⟩
      · rwa [hrun]
      · rw [hrun]
        exact hfail _ hlast

end Machine

end RegisterMachine
