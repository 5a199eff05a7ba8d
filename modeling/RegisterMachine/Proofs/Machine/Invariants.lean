/-
# What holds of every machine that is driven

Whatever is done to a fresh machine, on whichever programs and with whichever budgets, some things can be
relied on: what it has emitted, that its memory is untouched, that its counters have room, and where the
fault of an exceeded budget comes from.

* `Machine.steps`, `Machine.totalSteps` : the number of steps that actions take;
* `Machine.Leads` : all that an action can do to a machine;
* `Machine.drive_of_step` : what steps keep, a sequence of actions keeps;
* `Machine.cycles_drive_le` : the cycles that a sequence of actions takes;
* `Machine.exists_run_of_budgetExceeded` : the run that an exceeded budget comes from;
* `Machine.accounts_drive` : all of this together, for the machines that start fresh.

Only the statements on cycles depend on the number of steps, because a counter of 64 bits would wrap
around in the end.
-/
import Mathlib.Algebra.Group.Nat.Defs
import RegisterMachine.Proofs.Machine.Counter
import RegisterMachine.Proofs.Machine.Cycles
import RegisterMachine.Proofs.Machine.Driving
import RegisterMachine.Proofs.Machine.Output

namespace RegisterMachine

/-- The program that an action drives, if it drives one. -/
def Action.program? : Action → Option Program
  | .setRegister _ _ => none
  | .setStack _ => none
  | .step program => some program
  | .take program _ => some program
  | .run program _ => some program

namespace Machine

variable {program : Program} {m next : Machine} {action : Action} {actions : List Action}

/-! ## Counting steps -/

/-- The number of steps that an action takes. A terminal machine takes none. -/
def steps (m : Machine) : Action → Nat
  | .setRegister _ _ => 0
  | .setStack _ => 0
  | .step _ => if m.isTerminal then 0 else 1
  | .take program count => ((Execution.mk program m).take count).1.length
  | .run program budget => (m.transitions program budget).length

/-- The number of steps that a sequence of actions takes. -/
def totalSteps (m : Machine) : List Action → Nat
  | [] => 0
  | action :: actions => m.steps action + (m.act action).totalSteps actions

/-- Steps are counted one sequence after the other. -/
theorem totalSteps_append (m : Machine) (before after : List Action) :
    m.totalSteps (before ++ after) = m.totalSteps before + (m.drive before).totalSteps after := by
  induction before generalizing m with
  | nil => rw [List.nil_append, totalSteps, Nat.zero_add, drive_nil]
  | cons action before ih =>
      rw [List.cons_append, totalSteps, totalSteps, ih, drive_cons, Nat.add_assoc]

/-! ## All that an action can do -/

/-- What an action leads to. -/
inductive Leads (m : Machine) : Action → Machine → Prop
  | setRegister (register : Register) (word : Word) :
      Leads m (.setRegister register word) (m.withRegister register word)
  | setStack (words : List Word) : Leads m (.setStack words) (m.withStack words)
  /-- To drive a program is to take steps. -/
  | drives {action : Action} {program : Program} (hprogram : program ∈ action.program?) :
      Leads m action (m.after program (m.steps action))
  /-- A run that has got over its budget adds the fault. -/
  | exceeds {program : Program} {budget : Option UInt64}
      (hover : (m.after program (m.steps (.run program budget))).IsOver budget) :
      Leads m (.run program budget)
        { m.after program (m.steps (.run program budget)) with fault := some .budgetExceeded }

/-- The machine that is left of an execution is the one after as many steps as machines were taken. -/
theorem machine_take_eq_after (m : Machine) (program : Program) (count : Nat) :
    ((Execution.mk program m).take count).2.machine =
      m.after program ((Execution.mk program m).take count).1.length := by
  induction count generalizing m with
  | zero => rfl
  | succ count ih =>
      cases hterminal : m.isTerminal with
      | true => rw [Execution.take_of_isTerminal hterminal, List.length_nil, after_zero]
      | false => rw [Execution.take_succ hterminal, List.length_cons, after_succ', ih]

/-- A run ends after its steps, with the fault of an exceeded budget if it has got over it. -/
theorem leads_run (m : Machine) (program : Program) (budget : Option UInt64) :
    m.Leads (.run program budget) (m.run program budget) := by
  cases hterminal : m.isTerminal with
  | true =>
      have hnone : m.steps (.run program budget) = 0 := by
        rw [steps, transitions, transitionsFor_of_isTerminal hterminal, List.length_nil]
      have hsame : m.run program budget = m.after program (m.steps (.run program budget)) := by
        rw [hnone, after_zero, run_of_isTerminal program budget hterminal]
      rw [hsame]
      exact .drives rfl
  | false =>
      obtain ⟨n, htakes⟩ := exists_takes m program budget
      have hsteps : m.steps (.run program budget) = n := by
        rw [steps, htakes.transitions_eq hterminal, List.length_map, List.length_range]
      rcases htakes.run_eq hterminal with hrun | ⟨hover, -, hrun⟩
      · rw [hrun, ← hsteps]
        exact .drives rfl
      · rw [hrun]
        rw [← hsteps] at hover ⊢
        exact .exceeds hover

/-- **Every action does one of these.** -/
theorem leads_act (m : Machine) (action : Action) : m.Leads action (m.act action) := by
  rcases action with ⟨register, word⟩ | words | program | ⟨program, count⟩ | ⟨program, budget⟩
  · exact .setRegister register word
  · exact .setStack words
  · have hstep : m.act (.step program) = m.after program (m.steps (.step program)) := by
      show m.step program = m.after program (if m.isTerminal then 0 else 1)
      split
      · next hterminal => exact step_of_isTerminal program hterminal
      · rfl
    rw [hstep]
    exact .drives rfl
  · have htake : m.act (.take program count) = m.after program (m.steps (.take program count)) :=
      machine_take_eq_after m program count
    rw [htake]
    exact .drives rfl
  · exact leads_run m program budget

/-! ## Cycles -/

/-- An action takes three cycles for each step at most, and gives none back. -/
theorem Leads.cycles_le (h : m.Leads action next)
    (hroom : m.cycles.toNat + 3 * m.steps action < UInt64.size) :
    m.cycles.toNat ≤ next.cycles.toNat ∧
      next.cycles.toNat ≤ m.cycles.toNat + 3 * m.steps action := by
  rcases h with _ | _ | _ | _
  · exact ⟨le_rfl, Nat.le_add_right _ _⟩
  · exact ⟨le_rfl, Nat.le_add_right _ _⟩
  · exact cycles_after_le _ hroom
  · exact cycles_after_le _ hroom

/-- So does a sequence of actions. -/
theorem cycles_drive_le (hroom : m.cycles.toNat + 3 * m.totalSteps actions < UInt64.size) :
    m.cycles.toNat ≤ (m.drive actions).cycles.toNat ∧
      (m.drive actions).cycles.toNat ≤ m.cycles.toNat + 3 * m.totalSteps actions := by
  induction actions generalizing m with
  | nil => exact ⟨le_rfl, le_rfl⟩
  | cons action actions ih =>
      rw [totalSteps] at hroom
      have hfirst := (leads_act m action).cycles_le (by omega)
      have hrest := ih (m := m.act action) (by omega)
      rw [drive_cons, totalSteps]
      omega

/-! ## What actions keep -/

/-- What is kept by setting a machine up, by steps and by the fault of an exceeded budget, is kept by an
action. -/
theorem Leads.of_step {P : Machine → Prop} (h : m.Leads action next)
    (hregister : ∀ m register word, P m → P (m.withRegister register word))
    (hstack : ∀ m words, P m → P (m.withStack words))
    (hstep : ∀ program ∈ action.program?, ∀ m, P m → P (m.step program))
    (hfail : ∀ m, P m → P { m with fault := some .budgetExceeded }) (hm : P m) : P next := by
  rcases h with ⟨register, word⟩ | words | hprogram | _
  · exact hregister m register word hm
  · exact hstack m words hm
  · exact after_of_step (hstep _ hprogram) hm _
  · apply hfail
    exact after_of_step (hstep _ rfl) hm _

/-- It is kept by a sequence of actions. -/
theorem drive_of_step {P : Machine → Prop}
    (hregister : ∀ m register word, P m → P (m.withRegister register word))
    (hstack : ∀ m words, P m → P (m.withStack words))
    (hstep : ∀ action ∈ actions, ∀ program ∈ action.program?, ∀ m, P m → P (m.step program))
    (hfail : ∀ m, P m → P { m with fault := some .budgetExceeded }) (hm : P m) :
    P (m.drive actions) := by
  induction actions generalizing m with
  | nil => exact hm
  | cons action actions ih =>
      have hnext : P (m.act action) :=
        (leads_act m action).of_step hregister hstack (hstep action List.mem_cons_self) hfail hm
      exact ih (fun other hother => hstep other (List.mem_cons_of_mem _ hother)) hnext

/-- A step adds to the output, if it changes it. -/
theorem output_step (m : Machine) (program : Program) :
    m.output <+: (m.step program).output := by
  refine step_of_moves (P := fun next => m.output <+: next.output) (List.prefix_refl _) ?_
  intro _ next hmoves
  rcases hmoves with _ | _ | _ | _
  · exact List.prefix_refl _
  · exact List.prefix_refl _
  · exact List.prefix_append _ _
  · exact List.prefix_refl _

/-- A sequence of actions adds to the output, if it changes it. -/
theorem output_drive (m : Machine) (actions : List Action) :
    m.output <+: (m.drive actions).output := by
  apply drive_of_step (P := fun last => m.output <+: last.output)
  · exact fun _ _ _ => id
  · exact fun _ _ => id
  · exact fun _ _ program _ last h => h.trans (output_step last program)
  · exact fun _ => id
  · exact List.prefix_refl _

/-- No step reaches the memory. -/
theorem memory_step (m : Machine) (program : Program) : (m.step program).memory = m.memory := by
  refine step_of_moves (P := fun next => next.memory = m.memory) rfl ?_
  intro _ next hmoves
  rcases hmoves with _ | _ | _ | _ <;> rfl

/-- No action reaches the memory. -/
theorem memory_drive (m : Machine) (actions : List Action) :
    (m.drive actions).memory = m.memory := by
  apply drive_of_step (P := fun last => last.memory = m.memory)
  · exact fun _ _ _ => id
  · exact fun _ _ => id
  · exact fun _ _ program _ last h => (memory_step last program).trans h
  · exact fun _ => id
  · rfl

/-- The output agrees with whether the machine has halted after any sequence of actions. -/
theorem emits_drive (hm : m.Emits) (actions : List Action) : (m.drive actions).Emits := by
  apply drive_of_step (P := Emits)
  · exact fun _ _ _ => id
  · exact fun _ _ => id
  · exact fun _ _ _ _ _ => emits_step
  · exact fun _ => id
  · exact hm

/-- The program counter stays below a limit on it and on the sizes of all programs. -/
theorem pc_drive_le {limit : Nat} (hm : m.pc ≤ limit)
    (hsize : ∀ action ∈ actions, ∀ program ∈ action.program?, program.size ≤ limit) :
    (m.drive actions).pc ≤ limit := by
  apply drive_of_step (P := fun last => last.pc ≤ limit)
  · exact fun _ _ _ => id
  · exact fun _ _ => id
  · intro action haction program hprogram last h
    exact pc_step_le_of_size_le h (hsize action haction program hprogram)
  · exact fun _ => id
  · exact hm

/-! ## Exceeded budgets -/

/-- Only a run that has got over its budget reports so. -/
theorem Leads.exists_of_budgetExceeded (h : m.Leads action next)
    (hm : m.fault ≠ some .budgetExceeded) (hfault : next.fault = some .budgetExceeded) :
    ∃ program limit, action = .run program (some limit) ∧ limit < next.cycles := by
  rcases h with _ | _ | _ | ⟨limit, rfl, hlt⟩
  · exact absurd hfault hm
  · exact absurd hfault hm
  · exact absurd hfault (fault_after_ne_budgetExceeded hm _)
  · exact ⟨_, limit, rfl, hlt⟩

/-- An exceeded budget is that of a run, and the machine has used more cycles since. -/
theorem exists_run_of_budgetExceeded
    (hroom : m.cycles.toNat + 3 * m.totalSteps actions < UInt64.size)
    (hm : m.fault ≠ some .budgetExceeded)
    (hfault : (m.drive actions).fault = some .budgetExceeded) :
    ∃ program limit, Action.run program (some limit) ∈ actions ∧
      limit < (m.drive actions).cycles := by
  induction actions generalizing m with
  | nil => exact absurd hfault hm
  | cons action actions ih =>
      rw [totalSteps] at hroom
      have hfirst := (leads_act m action).cycles_le (by omega)
      by_cases hnext : (m.act action).fault = some .budgetExceeded
      · -- the action is the run, and the actions after it give no cycles back
        obtain ⟨program, limit, rfl, hlt⟩ := (leads_act m action).exists_of_budgetExceeded hm hnext
        refine ⟨program, limit, List.mem_cons_self, ?_⟩
        rw [drive_cons, UInt64.lt_iff_toNat_lt]
        rw [UInt64.lt_iff_toNat_lt] at hlt
        exact hlt.trans_le (cycles_drive_le (by omega)).1
      · obtain ⟨program, limit, hmem, hlt⟩ := ih (by omega) hnext hfault
        exact ⟨program, limit, List.mem_cons_of_mem _ hmem, hlt⟩

/-! ## Machines that start fresh -/

/-- What can be relied on in a machine that a sequence of actions has made of a fresh one. -/
structure Accounts (actions : List Action) (m : Machine) : Prop where
  /-- A machine that has halted has emitted one word. -/
  output_of_halted : m.halted = true → ∃ word, m.output = [word]
  /-- A machine that has not halted has emitted nothing. -/
  output_of_not_halted : m.halted = false → m.output = []
  /-- All memory cells are zero. -/
  memory : m.memory = Vector.replicate 16 0
  /-- Each step has taken three cycles at most. -/
  cycles_le : m.cycles.toNat ≤ 3 * fresh.totalSteps actions
  /-- The program counter is within one of the programs or at its end, or where it started. -/
  pc_le : m.pc = 0 ∨ ∃ action ∈ actions, ∃ program ∈ action.program?, m.pc ≤ program.size
  /-- A counter that can hold the sizes of the programs can hold the program counter. -/
  pc_lt : (∀ action ∈ actions, ∀ program ∈ action.program?, program.size < UInt64.size) →
    m.pc < UInt64.size
  /-- An exceeded budget is that of a run. -/
  exceeded : m.fault = some .budgetExceeded →
    ∃ program limit, Action.run program (some limit) ∈ actions ∧ limit < m.cycles
  /-- On the way, cycles were never given back, and nothing that was emitted was taken back. -/
  grows : ∀ before after, before <+: after → after <+: actions →
    (fresh.drive before).cycles ≤ (fresh.drive after).cycles ∧
      (fresh.drive before).output <+: (fresh.drive after).output

/-- A fresh machine has emitted nothing. -/
theorem emits_fresh : fresh.Emits := rfl

/-- Cycles are never given back along a sequence of actions with room for its steps. -/
theorem cycles_drive_mono {before after : List Action} (hbefore : before <+: after)
    (hafter : after <+: actions)
    (hroom : m.cycles.toNat + 3 * m.totalSteps actions < UInt64.size) :
    (m.drive before).cycles ≤ (m.drive after).cycles := by
  obtain ⟨middle, rfl⟩ := hbefore
  obtain ⟨rest, rfl⟩ := hafter
  rw [totalSteps_append, totalSteps_append] at hroom
  have hfirst : (m.drive before).cycles.toNat ≤ m.cycles.toNat + 3 * m.totalSteps before :=
    (cycles_drive_le (by omega)).2
  rw [drive_append, UInt64.le_iff_toNat_le]
  exact (cycles_drive_le (by omega)).1

/-- The program counter of a machine that starts fresh is within one of the programs or at its end. -/
theorem pc_drive_fresh (actions : List Action) :
    (fresh.drive actions).pc = 0 ∨
      ∃ action ∈ actions, ∃ program ∈ action.program?, (fresh.drive actions).pc ≤ program.size := by
  by_contra hnot
  obtain ⟨hpos, hbeyond⟩ := not_or.1 hnot
  -- otherwise one less would be a limit
  have hle : (fresh.drive actions).pc ≤ (fresh.drive actions).pc - 1 := by
    refine pc_drive_le (Nat.zero_le _) fun action haction program hprogram => ?_
    by_contra hlt
    exact hbeyond ⟨action, haction, program, hprogram, by omega⟩
  omega

/-- **What can be relied on in every machine that is driven.** A fresh machine that is set up, stepped and
run in any way, in fewer than `2 ^ 62` steps, has emitted one word if it has halted and none before; its
memory is zero; its counters have not wrapped around; a fault of an exceeded budget comes from a run with a
budget below the cycles it has used; and cycles and output have only grown on the way. -/
theorem accounts_drive (actions : List Action) (hsteps : fresh.totalSteps actions < 2 ^ 62) :
    Accounts actions (fresh.drive actions) := by
  have hsize : UInt64.size = 2 ^ 64 := rfl
  have hzero : fresh.cycles.toNat = 0 := rfl
  have hroom : fresh.cycles.toNat + 3 * fresh.totalSteps actions < UInt64.size := by omega
  have hemits : (fresh.drive actions).Emits := emits_drive emits_fresh actions
  refine ⟨hemits.exists_eq, ?_, memory_drive fresh actions, ?_, pc_drive_fresh actions, ?_, ?_, ?_⟩
  · intro hhalted
    rw [Emits, hhalted] at hemits
    exact List.length_eq_zero_iff.1 hemits
  · have hle := (cycles_drive_le hroom).2
    omega
  · intro hprograms
    rcases pc_drive_fresh actions with hpc | ⟨action, haction, program, hprogram, hpc⟩
    · omega
    · exact hpc.trans_lt (hprograms action haction program hprogram)
  · exact exists_run_of_budgetExceeded hroom (Option.some_ne_none _).symm
  · intro before after hbefore hafter
    refine ⟨cycles_drive_mono hbefore hafter hroom, ?_⟩
    obtain ⟨middle, rfl⟩ := hbefore
    rw [drive_append]
    exact output_drive _ middle

/-- A machine that is stepped by hand, and then run with a budget of two cycles, takes two steps in all and
ends over this budget. It can still be set up, which changes nothing of this. -/
theorem accounts_drive_over_budget :
    let program := Program.parse "MOV AX, 1\nMUL AX, BX\nHLT AX"
    let actions := [.setRegister .bx 3, .step program, .run program (some 2), .setStack [7]]
    fresh.totalSteps actions = 2 ∧
      (fresh.drive actions).fault = some .budgetExceeded ∧
      Accounts actions (fresh.drive actions) :=
  ⟨by decide +kernel, by decide +kernel, accounts_drive _ (by decide +kernel)⟩

end Machine

end RegisterMachine
