/-
# When an attempt stalls

An attempt stalls when its run takes ten thousand steps without an end. A budget bounds the steps of a
run, so this takes a budget that is large against the length of the source text.

* `Level.not_endsAt_of_stalled` : an attempt stalls only where its run does not end;
* `Level.exists_stops_le_and_lt_of_stalled` : the bound on the steps of any run, and what it says about
  stalled attempts.
-/
import RegisterMachine.Proofs.Level.Verdicts
import RegisterMachine.Proofs.Machine.Progress

namespace RegisterMachine

namespace Level

variable {level : Level} {source : String}

/-- An attempt stalls only where its run does not end. -/
theorem not_endsAt_of_stalled (h : level.attempt source = .stalled) :
    ¬ ∃ n, level.EndsAt source n := by
  obtain ⟨verdict, hearned⟩ := exists_earns level source
  have hverdict : verdict = .stalled := hearned.attempt_eq.symm.trans h
  subst hverdict
  cases hearned with
  | stalled hnone => exact hnone

/-- The machine at the start of a level is at the start of the program, and has used no cycles. -/
theorem goes_machine (level : Level) (program : Program) :
    level.machine.Goes program level.budget where
  halted := rfl
  fault := rfl
  within := UInt64.zero_le
  inside := Nat.zero_le _

/-- An attempt stalls only where the budget leaves room for ten thousand steps and more. -/
theorem lt_of_stalled (h : level.attempt source = .stalled) :
    10000 < (level.budget.toNat + 1) * ((Program.parse source).size + 1) := by
  by_contra hle
  have hsize : level.budget.toNat + 1 ≤
      (level.budget.toNat + 1) * ((Program.parse source).size + 1) :=
    Nat.le_mul_of_pos_right _ (Nat.succ_pos _)
  have hlimit : level.budget.toNat < UInt64.size - 3 := by
    rw [UInt64.size]
    omega
  obtain ⟨k, hpos, hk, hstops⟩ := Machine.exists_stops_le hlimit (goes_machine level (.parse source))
  have hcycles : level.machine.cycles.toNat = 0 := rfl
  rw [hcycles, Nat.sub_zero] at hk
  have hwithin : k ∈ Set.Icc 1 10000 := ⟨hpos, by omega⟩
  exact not_endsAt_of_stalled h (Machine.exists_isFirstStop ⟨k, hwithin, hstops⟩)

/-- **No loop is free.** From a machine in the program or at its end that is within a limit on its
cycles, a program of `n` instructions comes to an end or over the limit within `n + 1` steps for each
cycle that is left, and `n + 1` more. So an attempt stalls only where its budget leaves room for more
than ten thousand steps. -/
theorem exists_stops_le_and_lt_of_stalled :
    (∀ (program : Program) (m : Machine) (limit : UInt64), m.isTerminal = false →
      m.pc ≤ program.size → m.cycles ≤ limit → limit.toNat < UInt64.size - 3 →
        ∃ k, 1 ≤ k ∧ k ≤ (limit.toNat + 1 - m.cycles.toNat) * (program.size + 1) ∧
          ((m.after program k).isTerminal = true ∨ limit < (m.after program k).cycles)) ∧
    ∀ (level : Level) (source : String), level.attempt source = .stalled →
      10000 < (level.budget.toNat + 1) * ((Program.parse source).size + 1) := by
  refine ⟨?_, fun level source h => lt_of_stalled h⟩
  intro program m limit hgoes hinside hwithin hlimit
  obtain ⟨hhalted, hfault⟩ := Machine.isTerminal_eq_false_iff.1 hgoes
  obtain ⟨k, hpos, hk, hstops⟩ :=
    Machine.exists_stops_le hlimit ⟨hhalted, hfault, hwithin, hinside⟩
  exact ⟨k, hpos, hk, hstops.imp_right Machine.isOver_some_iff.1⟩

/-- A loop over a bare label goes over a limit of four cycles within fifteen steps, and an attempt with
this budget does not stall. -/
theorem exists_stops_le_loop :
    (∃ k, 1 ≤ k ∧ k ≤ 15 ∧
      ((Machine.fresh.after (.parse "loop:\nJMP loop") k).isTerminal = true ∨
        4 < (Machine.fresh.after (.parse "loop:\nJMP loop") k).cycles)) ∧
    (⟨1, "Addition", "Add Beam", ⟨3, 4⟩, 4, []⟩ : Level).attempt "loop:\nJMP loop" ≠ .stalled := by
  have hsize : (Program.parse "loop:\nJMP loop").size = 2 := by decide +kernel
  constructor
  · have hbound := exists_stops_le_and_lt_of_stalled.1 (.parse "loop:\nJMP loop") Machine.fresh 4 rfl
      (Nat.zero_le _) (by decide) (by decide)
    rwa [hsize] at hbound
  · intro hstalled
    have hlt := exists_stops_le_and_lt_of_stalled.2 _ _ hstalled
    rw [hsize] at hlt
    exact absurd hlt (by decide)

end Level

end RegisterMachine
