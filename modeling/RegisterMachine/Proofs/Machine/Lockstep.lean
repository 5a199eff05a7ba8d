/-
# Machines in lockstep

Two programs may differ, and still do the same to machines that differ in their program counters only:
when the instructions that are executed are the same, and the places that they lead to correspond.

* `Machine.moveTo` : a machine with another program counter;
* `Alike` : outcomes with the same fault, or with values that correspond;
* `Machine.Follows` : machines that are equal but for program counters that correspond;
* `LeadsAlike` : a label that leads to places that correspond, or nowhere in either program;
* `Machine.Seeks` : the label that the next step goes to;
* `Machine.follows_step` : a step of both machines makes them correspond again;
* `Machine.exists_after_of_step` : if some number of steps always does, a run is matched by a run.

All of this is for any correspondence of places, given as a relation of two program counters.
-/
import RegisterMachine.Proofs.Machine.Semantics

namespace RegisterMachine

variable {p q : Program} {place : Nat → Nat → Prop}

/-! ## Correspondence -/

/-- Outcomes with the same fault, or with values that correspond. -/
inductive Alike {α : Type} (related : α → α → Prop) : Except Fault α → Except Fault α → Prop
  | fails (fault : Fault) : Alike related (.error fault) (.error fault)
  | goes {value other : α} (h : related value other) : Alike related (.ok value) (.ok other)

/-- A label that leads to places that correspond, or nowhere in either program. -/
inductive LeadsAlike (place : Nat → Nat → Prop) (p q : Program) (label : String) : Prop
  | nowhere (hp : ∀ index, index ∉ Machine.carriers p label)
      (hq : ∀ index, index ∉ Machine.carriers q label) : LeadsAlike place p q label
  | found {index other : Nat} (hp : IsLeast (Machine.carriers p label) index)
      (hq : IsLeast (Machine.carriers q label) other) (hplace : place index other) :
      LeadsAlike place p q label

namespace Machine

variable {m : Machine} {pc : Nat}

/-- A machine with another program counter. -/
def moveTo (m : Machine) (pc : Nat) : Machine :=
  { m with pc := pc }

@[simp] theorem isTerminal_moveTo (m : Machine) (pc : Nat) :
    (m.moveTo pc).isTerminal = m.isTerminal := rfl

/-- A machine that is another one but for its program counter, which is at a place that corresponds. -/
inductive Follows (place : Nat → Nat → Prop) (m : Machine) : Machine → Prop
  | moved {pc : Nat} (hplace : place m.pc pc) : Follows place m (m.moveTo pc)

/-- A machine follows itself if its place corresponds to itself. -/
theorem Follows.refl (h : place m.pc m.pc) : Follows place m m := by
  show Follows place m (m.moveTo m.pc)
  exact .moved h

/-- A machine ends together with one that follows it. -/
theorem Follows.isTerminal_eq {other : Machine} (h : Follows place m other) :
    other.isTerminal = m.isTerminal := by
  rcases h with ⟨hplace⟩
  exact isTerminal_moveTo m _

/-- A machine equals one that follows it, but for the program counter. -/
theorem Follows.eq_with_pc {other : Machine} (h : Follows place m other) :
    other = { m with pc := other.pc } := by
  rcases h with ⟨hplace⟩
  rfl

/-- The label that a machine goes to in its next step. -/
inductive Seeks (program : Program) (m : Machine) (label : String) : Prop
  | jumps {instruction : Instruction} {operation : Operation}
      (hget : program.get? m.pc = some instruction)
      (hopcode : instruction.opcode = some (.known operation)) (hop : Jumps operation m.zero)
      (hlabel : instruction.operands[0]? = some label) : Seeks program m label

/-! ## Operations -/

variable {operation : Operation} {operands : List String}

/-- The search for a label that leads alike has outcomes that are alike. -/
theorem Target.alike {outcome : Except Fault Nat} (h : Target p operation operands outcome)
    (hleads : ∀ label, operands[0]? = some label → LeadsAlike place p q label) :
    ∃ other, Target q operation operands other ∧ Alike place outcome other := by
  rcases h with hmissing | ⟨hlabel, hnone⟩ | ⟨hlabel, hleast⟩
  · exact ⟨_, .missing hmissing, .fails _⟩
  · rcases hleads _ hlabel with ⟨-, hq⟩ | ⟨hp, -, -⟩
    · exact ⟨_, .notFound hlabel hq, .fails _⟩
    · exact absurd hp.1 (hnone _)
  · rcases hleads _ hlabel with ⟨hp, -⟩ | ⟨hp, hq, hplace⟩
    · exact absurd hleast.1 (hp _)
    · rw [hp.unique hleast] at hplace
      exact ⟨_, .found hlabel hq, .goes hplace⟩

/-- An operation has outcomes that are alike, if the next places correspond and its label leads alike. -/
theorem Performs.alike {outcome : Except Fault Machine} (h : Performs p m operation operands outcome)
    (hnext : place (m.pc + 1) (pc + 1))
    (hleads : Jumps operation m.zero →
      ∀ label, operands[0]? = some label → LeadsAlike place p q label) :
    ∃ other, Performs q (m.moveTo pc) operation operands other ∧
      Alike (Follows place) outcome other := by
  cases h with
  | unwritable hop htarget => exact ⟨_, .unwritable hop htarget, .fails _⟩
  | unreadable hop htarget hsource => exact ⟨_, .unreadable hop htarget hsource, .fails _⟩
  | computed hop htarget hsource hresult hset =>
      exact ⟨_, .computed hop htarget hsource hresult hset, .goes (.moved hnext)⟩
  | leftUnreadable hleft => exact ⟨_, .leftUnreadable hleft, .fails _⟩
  | rightUnreadable hleft hright => exact ⟨_, .rightUnreadable hleft hright, .fails _⟩
  | compared hleft hright => exact ⟨_, .compared hleft hright, .goes (.moved hnext)⟩
  | lost hop htarget =>
      obtain ⟨_, htarget', _ | _⟩ := htarget.alike (hleads hop)
      exact ⟨_, .lost hop htarget', .fails _⟩
  | jumped hop htarget =>
      obtain ⟨_, htarget', _ | hplace⟩ := htarget.alike (hleads hop)
      exact ⟨_, .jumped hop htarget', .goes (.moved hplace)⟩
  | passed hop => exact ⟨_, .passed hop, .goes (.moved hnext)⟩
  | unpushable hsource => exact ⟨_, .unpushable hsource, .fails _⟩
  | pushed hsource => exact ⟨_, .pushed hsource, .goes (.moved hnext)⟩
  | underflow hstack => exact ⟨_, .underflow hstack, .fails _⟩
  | unpoppable hstack htarget => exact ⟨_, .unpoppable hstack htarget, .fails _⟩
  | popped hstack htarget hset =>
      exact ⟨_, .popped hstack htarget hset, .goes (.moved hnext)⟩
  | unhaltable hsource => exact ⟨_, .unhaltable hsource, .fails _⟩
  | halted hsource => exact ⟨_, .halted hsource, .goes (.moved hnext)⟩

/-! ## Instructions and steps -/

/-- The same instruction has outcomes that are alike. -/
theorem Executes.alike {outcome : Except Fault Machine} (h : Executes p m outcome)
    (hget : q.get? pc = p.get? m.pc) (hnext : place (m.pc + 1) (pc + 1))
    (hleads : ∀ label, m.Seeks p label → LeadsAlike place p q label) :
    ∃ other, Executes q (m.moveTo pc) other ∧ Alike (Follows place) outcome other := by
  cases h with
  | ended h =>
      rw [Program.get?_eq_none_iff.2 h, Program.get?_eq_none_iff] at hget
      exact ⟨_, .ended hget, .fails _⟩
  | bare h hopcode => exact ⟨_, .bare (hget.trans h) hopcode, .goes (.moved hnext)⟩
  | unknown h hopcode => exact ⟨_, .unknown (hget.trans h) hopcode, .fails _⟩
  | known h hopcode hperforms =>
      obtain ⟨other, hother, halike⟩ := hperforms.alike hnext
        fun hop label hlabel => hleads label (.jumps h hopcode hop hlabel)
      exact ⟨other, .known (hget.trans h) hopcode hother, halike⟩

/-- **A step in lockstep.** A machine that is at a place that corresponds, with the same instruction, is
after a step the machine after the other's step but for a place that corresponds. -/
theorem follows_step (hplace : place m.pc pc) (hget : q.get? pc = p.get? m.pc)
    (hnext : place (m.pc + 1) (pc + 1))
    (hleads : ∀ label, m.Seeks p label → LeadsAlike place p q label) :
    Follows place (m.step p) ((m.moveTo pc).step q) := by
  have hmoved : (m.moveTo pc).isTerminal = m.isTerminal := isTerminal_moveTo m pc
  cases hterminal : m.isTerminal with
  | true =>
      rw [hterminal] at hmoved
      rw [step_of_isTerminal p hterminal, step_of_isTerminal q hmoved]
      exact .moved hplace
  | false =>
      rw [hterminal] at hmoved
      obtain ⟨other, hother, halike⟩ :=
        (executes_iff.2 (rfl : m.execute p = _)).alike hget hnext hleads
      rw [executes_iff] at hother
      generalize houtcome : m.execute p = outcome at halike
      rcases halike with ⟨fault⟩ | hfollows
      · rw [step_of_execute_error hterminal houtcome, step_of_execute_error hmoved hother]
        exact .moved hplace
      · rw [step_of_execute_ok hterminal houtcome, step_of_execute_ok hmoved hother]
        exact hfollows

/-! ## Runs -/

/-- A run is matched by a run of the other program, if each step is matched by some number of steps. -/
theorem exists_after_of_step {R : Machine → Machine → Prop}
    (hstep : ∀ {m other : Machine}, R m other → ∃ count, R (m.step p) (other.after q count))
    {other : Machine} (h : R m other) (n : Nat) :
    ∃ count, R (m.after p n) (other.after q count) := by
  induction n with
  | zero => exact ⟨0, h⟩
  | succ n ih =>
      obtain ⟨before, hbefore⟩ := ih
      obtain ⟨more, hmore⟩ := hstep hbefore
      refine ⟨before + more, ?_⟩
      rw [after_succ, after_add]
      exact hmore

end Machine

end RegisterMachine
