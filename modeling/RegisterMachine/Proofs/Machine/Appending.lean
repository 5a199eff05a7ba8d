/-
# Appending instructions

Instructions that come after a program change nothing as long as they are not needed: the instructions of
the program stay where they are, and of several with the same label the first one counts. They are needed
only where the program runs past its end, or looks for a label that it does not have.

* `Program.get?_of_isPrefix`, `Program.isLeast_carriers_of_isPrefix` : places and labels of the program;
* `Machine.Seeks.fault_step` : a step that seeks a label that is not there;
* `Machine.step_of_isPrefix` : a step that fails for neither reason;
* `Machine.run_of_isPrefix` : a run that does not;
* `Machine.runSource_append` : the same for a text that follows another one on a new line.
-/
import RegisterMachine.Proofs.Assembly.SourceLines
import RegisterMachine.Proofs.Machine.Agreement

namespace RegisterMachine

variable {p q : Program}

/-! ## Longer programs -/

namespace Program

/-- The instructions of a program stand at the same places in a longer one. -/
theorem get?_of_isPrefix (h : p.instructions <+: q.instructions) {place : Nat}
    (hplace : place < p.size) : q.get? place = p.get? place := by
  have hlength : place < p.instructions.length := by
    rwa [instructions, List.length_map]
  rw [get?_eq_getElem?, get?_eq_getElem?, List.prefix_iff_getElem?.1 h place hlength,
    List.getElem?_eq_getElem hlength]

/-- A label of a program leads to the same place in a longer one. -/
theorem isLeast_carriers_of_isPrefix (h : p.instructions <+: q.instructions) {label : String}
    {place : Nat} (hleast : IsLeast (Machine.carriers p label) place) :
    IsLeast (Machine.carriers q label) place := by
  have hplace : place < p.size := (Machine.mem_carriers_iff.1 hleast.1).1
  constructor
  · obtain ⟨instruction, hget, hcarries⟩ := hleast.1
    exact ⟨instruction, (get?_of_isPrefix h hplace).trans hget, hcarries⟩
  · rintro other ⟨instruction, hget, hcarries⟩
    by_cases hother : other < p.size
    · rw [get?_of_isPrefix h hother] at hget
      exact hleast.2 ⟨instruction, hget, hcarries⟩
    · omega

end Program

/-! ## Steps and runs of a longer program -/

namespace Machine

variable {m : Machine} {budget : Option UInt64}

/-- A step that seeks a label that no instruction carries fails. -/
theorem Seeks.fault_step {label : String} (h : m.Seeks p label) (hm : m.isTerminal = false)
    (hnone : ∀ index, index ∉ carriers p label) :
    (m.step p).fault = some (.labelNotFound label) := by
  obtain @⟨instruction, operation, hget, hopcode, hop, hlabel⟩ := h
  have hexecutes : m.execute p = .error (.labelNotFound label) :=
    executes_iff.1 (.known hget hopcode (.lost hop (.notFound hlabel hnone)))
  rw [step_of_execute_error hm hexecutes]

/-- A step that ends neither at the end of the program nor at a label that is not there is a step of any
longer program. -/
theorem step_of_isPrefix (h : p.instructions <+: q.instructions)
    (hended : (m.step p).fault ≠ some .endedWithoutHalt)
    (hlost : ∀ label, (m.step p).fault ≠ some (.labelNotFound label)) : m.step q = m.step p := by
  cases hm : m.isTerminal with
  | true => rw [step_of_isTerminal p hm, step_of_isTerminal q hm]
  | false =>
      have hinside : m.pc < p.size := by
        by_contra hbeyond
        have hexecutes : m.execute p = .error .endedWithoutHalt :=
          executes_iff.1 (.ended (Nat.not_lt.1 hbeyond))
        rw [step_of_execute_error hm hexecutes] at hended
        exact hended rfl
      apply step_eq_of_get?_eq (Program.get?_of_isPrefix h hinside)
      intro label hseeks
      rcases isLeast_carriers_or_forall_notMem p label with ⟨place, hleast⟩ | hnone
      · exact .found hleast (Program.isLeast_carriers_of_isPrefix h hleast) rfl
      · exact absurd (hseeks.fault_step hm hnone) (hlost label)

/-- A run that ends neither at the end of the program nor at a label that is not there is a run of any
longer program. -/
theorem run_of_isPrefix (h : p.instructions <+: q.instructions)
    (hended : (m.run p budget).fault ≠ some .endedWithoutHalt)
    (hlost : ∀ label, (m.run p budget).fault ≠ some (.labelNotFound label)) :
    m.run q budget = m.run p budget := by
  apply run_eq_of_forall_step_eq
  intro transition hmem
  -- a step with such a fault would have ended the run with it
  have hkept : ∀ fault, (transition.before.step p).fault = some fault →
      (m.run p budget).fault = some fault := by
    intro fault hfault
    rw [step_of_mem_transitions hmem] at hfault
    exact fault_runFor_of_mem_transitionsFor hmem hfault
  apply step_of_isPrefix h
  · exact fun hfault => hended (hkept _ hfault)
  · exact fun label hfault => hlost label (hkept _ hfault)

/-- **Appended text changes no run that does not need it.** A run of a text that does not end at the end of
the program, or at a label that is not there, is not changed by any text that follows on a new line. -/
theorem runSource_append (first second : String) (m : Machine) (budget : Option UInt64)
    (hended : (m.runSource first budget).fault ≠ some .endedWithoutHalt)
    (hlost : ∀ label, (m.runSource first budget).fault ≠ some (.labelNotFound label)) :
    m.runSource (first ++ "\n" ++ second) budget = m.runSource first budget := by
  have hprefix : (Program.parse first).instructions <+:
      (Program.parse (first ++ "\n" ++ second)).instructions := by
    rw [Program.instructions_parse_append]
    exact List.prefix_append _ _
  exact run_of_isPrefix hprefix hended hlost

/-- A loop whose text ends in a comment is not changed by a text that has its label once more, before an
unknown opcode. -/
theorem runSource_append_loop :
    (fresh.withRegister .ax 2).runSource
        ("loop: SUB AX, 1\nCMP AX, 0\nJNE loop\nHLT AX ; done" ++ "\n" ++ "loop: NOP\nodd:") none =
      (fresh.withRegister .ax 2).runSource
        "loop: SUB AX, 1\nCMP AX, 0\nJNE loop\nHLT AX ; done" none := by
  have hfault : ((fresh.withRegister .ax 2).runSource
      "loop: SUB AX, 1\nCMP AX, 0\nJNE loop\nHLT AX ; done" none).fault = none := by
    decide +kernel
  apply runSource_append
  · rw [hfault]
    exact (Option.some_ne_none _).symm
  · intro label
    rw [hfault]
    exact (Option.some_ne_none _).symm

end Machine

end RegisterMachine
