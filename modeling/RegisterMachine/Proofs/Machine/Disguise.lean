/-
# Machines in disguise

A machine may differ from another one in things that a program does not look at: in words far down on the
stack, in a register that is never named, in the names of the labels. If such a change is kept by every step
of a run, it is kept by the run.

* `Machine.Disguise` : a change of machines, with a change of their faults, that does not touch what ends
  a run;
* `Machine.Disguise.step_eq` : instructions with disguised outcomes have disguised steps;
* `Machine.Disguise.run_eq` : a run of disguised steps is disguised.

The disguised machine may run another program than the one that is disguised.
-/
import RegisterMachine.Proofs.Machine.Semantics
import RegisterMachine.Proofs.Machine.Transitions

namespace RegisterMachine

namespace Machine

/-- A change of machines that goes along with a change of faults. It neither starts nor ends a run: it keeps
whether a machine has halted, whether it has failed, and how many cycles it has used. -/
structure Disguise (change : Machine → Machine) (rename : Fault → Fault) : Prop where
  halted : ∀ m : Machine, (change m).halted = m.halted
  fault : ∀ m : Machine, (change m).fault = m.fault.map rename
  cycles : ∀ m : Machine, (change m).cycles = m.cycles
  change_with_fault : ∀ (m : Machine) (fault : Fault),
    change { m with fault := some fault } = { change m with fault := some (rename fault) }
  rename_budgetExceeded : rename .budgetExceeded = .budgetExceeded

namespace Disguise

variable {p q : Program} {m : Machine} {budget : Option UInt64} {change : Machine → Machine}
  {rename : Fault → Fault}

/-- A change that leaves faults as they are needs no change of faults. -/
theorem of_fault_eq (hhalted : ∀ m : Machine, (change m).halted = m.halted)
    (hfault : ∀ m : Machine, (change m).fault = m.fault)
    (hcycles : ∀ m : Machine, (change m).cycles = m.cycles)
    (hwith : ∀ (m : Machine) (fault : Fault),
      change { m with fault := some fault } = { change m with fault := some fault }) :
    Disguise change id where
  halted := hhalted
  fault m := by rw [hfault, Option.map_id_apply]
  cycles := hcycles
  change_with_fault := hwith
  rename_budgetExceeded := rfl

/-- No change at all. -/
theorem refl : Disguise id id :=
  .of_fault_eq (fun _ => rfl) (fun _ => rfl) (fun _ => rfl) fun _ _ => rfl

/-- A disguised machine is terminal when the machine is. -/
theorem isTerminal_eq (h : Disguise change rename) (m : Machine) :
    (change m).isTerminal = m.isTerminal := by
  rw [isTerminal, isTerminal, h.halted, h.fault, Option.isSome_map]

/-- A disguised machine is over a budget when the machine is. -/
theorem exceeds_eq (h : Disguise change rename) (m : Machine) (budget : Option UInt64) :
    (change m).exceeds budget = m.exceeds budget := by
  rw [exceeds, exceeds, h.cycles]

/-- Failing at the end of a budget is disguised. -/
theorem fail_budgetExceeded (h : Disguise change rename) (m : Machine) :
    (change m).fail .budgetExceeded = change (m.fail .budgetExceeded) := by
  have hfault := h.fault m
  cases hfirst : m.fault with
  | some first =>
      rw [hfirst, Option.map_some] at hfault
      rw [fail_of_fault _ hfirst, fail_of_fault _ hfault]
  | none =>
      rw [hfirst, Option.map_none] at hfault
      rw [fail_of_none _ hfirst, fail_of_none _ hfault, h.change_with_fault, h.rename_budgetExceeded]

/-- An instruction with a disguised outcome has a disguised step. -/
theorem step_eq (h : Disguise change rename)
    (hexecutes : ∀ outcome, Executes p m outcome →
      Executes q (change m) ((outcome.map change).mapError rename)) :
    (change m).step q = change (m.step p) := by
  have hchange := h.isTerminal_eq m
  cases hterminal : m.isTerminal with
  | true =>
      rw [hterminal] at hchange
      rw [step_of_isTerminal p hterminal, step_of_isTerminal q hchange]
  | false =>
      rw [hterminal] at hchange
      have hother := executes_iff.1 (hexecutes _ (executes_iff.2 rfl))
      cases houtcome : m.execute p with
      | error fault =>
          rw [houtcome] at hother
          rw [step_of_execute_error hterminal houtcome, step_of_execute_error hchange hother,
            h.change_with_fault]
      | ok next =>
          rw [houtcome] at hother
          rw [step_of_execute_ok hterminal houtcome]
          exact step_of_execute_ok hchange hother

/-- A run each step of which is disguised is disguised. -/
theorem runFor_eq (h : Disguise change rename) {count : Nat}
    (hstep : ∀ transition ∈ m.transitionsFor p budget count,
      (change transition.before).step q = change (transition.before.step p)) :
    (change m).runFor q budget count = change (m.runFor p budget count) := by
  induction count generalizing m with
  | zero => rfl
  | succ count ih =>
      have hchange := h.isTerminal_eq m
      cases hterminal : m.isTerminal with
      | true =>
          rw [hterminal] at hchange
          rw [runFor_of_isTerminal hterminal, runFor_of_isTerminal hchange]
      | false =>
          rw [hterminal] at hchange
          rw [transitionsFor_succ hterminal, List.forall_mem_cons] at hstep
          obtain ⟨hfirst, hrest⟩ := hstep
          rw [runFor_succ hterminal, runFor_succ hchange, hfirst, h.exceeds_eq]
          split
          · exact h.fail_budgetExceeded _
          · next hwithin =>
              apply ih
              rwa [if_neg hwithin] at hrest

/-- The same for a run to the limit on steps. -/
theorem run_eq (h : Disguise change rename)
    (hstep : ∀ transition ∈ m.transitions p budget,
      (change transition.before).step q = change (transition.before.step p)) :
    (change m).run q budget = change (m.run p budget) :=
  h.runFor_eq hstep

end Disguise

end Machine

end RegisterMachine
