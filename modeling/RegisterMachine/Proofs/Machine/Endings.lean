/-
# The ends of a run

A run within a budget can end in three ways only, and no two of them meet: the last step fails, or it
halts, or it is the step that takes the machine over the budget. A step that fails or halts takes no
cycles, so it never leads over a budget; a step that works takes three cycles at most, so it never
leads far over one.

* `Machine.Ends` : the three ways, and how they exclude each other;
* `Machine.ends_step` : a step after which a run stops ends it in one of them;
* `Machine.IsFirstStop.ends` : so does every run that ends.
-/
import RegisterMachine.Proofs.Machine.Moves
import RegisterMachine.Proofs.Machine.Runner

namespace RegisterMachine

namespace Machine

variable {program : Program} {m : Machine} {limit : UInt64}

/-- How a run with this limit on its cycles can leave its last machine. -/
inductive Ends (limit : UInt64) (last : Machine) : Prop
  /-- The last step failed, within the limit. -/
  | failed {fault : Fault} (hhalted : last.halted = false) (hfault : last.fault = some fault)
      (hne : fault ≠ .budgetExceeded) (hwithin : last.cycles ≤ limit)
  /-- The last step halted, within the limit. -/
  | halted (hhalted : last.halted = true) (hfault : last.fault = none)
      (hwithin : last.cycles ≤ limit)
  /-- The last step worked, and led over the limit by three cycles at most. -/
  | exceeded (hhalted : last.halted = false) (hfault : last.fault = none)
      (hover : limit < last.cycles) (hclose : last.cycles.toNat ≤ limit.toNat + 3)

namespace Ends

variable {last : Machine}

/-- A run that ends over its limit has not halted or failed, and is over by three cycles at most. -/
theorem of_over (h : Ends limit last) (hover : limit < last.cycles) :
    last.cycles.toNat ≤ limit.toNat + 3 ∧ last.halted = false ∧ last.fault = none := by
  cases h with
  | failed _ _ _ hwithin => exact absurd hover (UInt64.not_lt.2 hwithin)
  | halted _ _ hwithin => exact absurd hover (UInt64.not_lt.2 hwithin)
  | exceeded hhalted hfault _ hclose => exact ⟨hclose, hhalted, hfault⟩

/-- A run that ends with a fault is within its limit, and the fault is not the end of the budget. -/
theorem of_fault (h : Ends limit last) {fault : Fault} (hfault : last.fault = some fault) :
    fault ≠ .budgetExceeded ∧ last.cycles ≤ limit := by
  cases h with
  | failed _ hother hne hwithin =>
      rw [hfault, Option.some.injEq] at hother
      exact ⟨hother ▸ hne, hwithin⟩
  | halted _ hnone _ => exact absurd (hfault.symm.trans hnone) (Option.some_ne_none fault)
  | exceeded _ hnone _ _ => exact absurd (hfault.symm.trans hnone) (Option.some_ne_none fault)

/-- A run that ends with halting is within its limit. -/
theorem of_halted (h : Ends limit last) (hhalted : last.halted = true) : last.cycles ≤ limit := by
  cases h with
  | failed hgoes _ _ _ => exact absurd hhalted (by simp [hgoes])
  | halted _ _ hwithin => exact hwithin
  | exceeded hgoes _ _ _ => exact absurd hhalted (by simp [hgoes])

/-- A run that ends without a fault and within its limit has halted. -/
theorem halted_of_none (h : Ends limit last) (hfault : last.fault = none)
    (hwithin : last.cycles ≤ limit) : last.halted = true := by
  cases h with
  | @failed fault _ hsome _ _ =>
      exact absurd (hsome.symm.trans hfault) (Option.some_ne_none fault)
  | halted hhalted _ _ => exact hhalted
  | exceeded _ _ hover _ => exact absurd hover (UInt64.not_lt.2 hwithin)

end Ends

/-! ## The last step -/

/-- A machine that does not stop a run with a limit has neither halted nor failed, and is within the
limit. -/
theorem not_stops_some_iff :
    ¬ m.Stops (some limit) ↔ m.halted = false ∧ m.fault = none ∧ m.cycles ≤ limit := by
  rw [Stops, not_or, isOver_some_iff, UInt64.not_lt, Bool.not_eq_true, isTerminal_eq_false_iff,
    and_assoc]

/-- A sum of cycles is at most the sum as natural numbers, even if it wraps around. -/
theorem toNat_cycles_add_le {cycles cost : UInt64} (hcycles : cycles ≤ limit) (hcost : cost ≤ 3) :
    (cycles + cost).toNat ≤ limit.toNat + 3 := by
  have hmod : (cycles + cost).toNat ≤ cycles.toNat + cost.toNat := by
    rw [UInt64.toNat_add]
    exact Nat.mod_le _ _
  have hlow : cycles.toNat ≤ limit.toNat := UInt64.le_iff_toNat_le.1 hcycles
  have hhigh : cost.toNat ≤ 3 := UInt64.le_iff_toNat_le.1 hcost
  omega

/-- A step after which a run stops ends it in one of the three ways. -/
theorem ends_step (hm : ¬ m.Stops (some limit)) (hnext : (m.step program).Stops (some limit)) :
    Ends limit (m.step program) := by
  obtain ⟨hhalted, hfault, hwithin⟩ := not_stops_some_iff.1 hm
  have hmoves : Moves program m (m.step program) :=
    moves_step (isTerminal_eq_false_iff.2 ⟨hhalted, hfault⟩)
  generalize m.step program = next at hnext hmoves
  cases hmoves with
  | fails hne => exact .failed hhalted rfl hne hwithin
  | skips =>
      -- a bare label changes nothing that a run looks at, so the run would have stopped before it
      have hgoes : ¬ Stops { m with pc := m.pc + 1 } (some limit) :=
        not_stops_some_iff.2 ⟨hhalted, hfault, hwithin⟩
      exact absurd hnext hgoes
  | halts => exact .halted rfl hfault hwithin
  | @works registers stack pc zero cost _ _ _ hhigh =>
      have hclose : (m.cycles + cost).toNat ≤ limit.toNat + 3 :=
        toNat_cycles_add_le hwithin hhigh
      rcases hnext with hterminal | hover
      · -- a step that works leaves the machine as little terminal as it was
        rw [isTerminal, hhalted, hfault] at hterminal
        cases hterminal
      · exact .exceeded hhalted hfault (isOver_some_iff.1 hover) hclose

/-! ## Runs that end -/

/-- The first machine to stop at comes by one step from a machine that does not stop. -/
theorem IsFirstStop.exists_pred {budget : Option UInt64} {n : Nat}
    (h : m.IsFirstStop program budget n) (hm : ¬ m.Stops budget) :
    ∃ k, n = k + 1 ∧ ¬ (m.after program k).Stops budget := by
  have hpos : 1 ≤ n := h.1.1.1
  refine ⟨n - 1, by omega, ?_⟩
  -- the machine at the start is not among those that are looked at, hence the assumption on it
  by_cases hone : n = 1
  · subst hone
    exact hm
  · exact h.not_stops (by omega) (by omega)

/-- **A run that ends does so in one of the three ways.** -/
theorem IsFirstStop.ends {n : Nat} (h : m.IsFirstStop program (some limit) n)
    (hm : ¬ m.Stops (some limit)) : Ends limit (m.after program n) := by
  obtain ⟨k, rfl, hk⟩ := h.exists_pred hm
  have hstops : (m.after program (k + 1)).Stops (some limit) := h.1.2
  rw [after_succ] at hstops ⊢
  exact ends_step hk hstops

end Machine

end RegisterMachine
