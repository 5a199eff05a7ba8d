/-
# What lies underneath the stack

A program reaches the words of the stack from the top only. Words that it does not get down to may be any
others, or more, or fewer: its runs neither read them nor change them.

* `Machine.rebase` : a machine with other words at the bottom of its stack;
* `Machine.atop` : a machine with words put underneath its stack;
* `Machine.Spares` : steps that leave the lowest words of the stack alone;
* `Machine.step_rebase` : such a step does the same over other words;
* `Machine.run_atop` : so does a run that does not run out of words.

An instruction that pops a word and then refuses its operand has reached the word, although it leaves the
stack as it was: over an empty stack it would have failed in another way.
-/
import RegisterMachine.Proofs.Machine.Disguise

namespace RegisterMachine

namespace Machine

variable {program : Program} {m : Machine} {height : Nat} {words : List Word}
  {budget : Option UInt64}

/-! ## Other words at the bottom -/

/-- A machine with other words in place of the lowest ones, as many as the height says. -/
def rebase (height : Nat) (words : List Word) (m : Machine) : Machine :=
  { m with stack := .ofList (words ++ m.stack.toList.drop height) }

/-- A machine with words put underneath its stack. -/
def atop (words : List Word) (m : Machine) : Machine :=
  { m with stack := .ofList (words ++ m.stack.toList) }

/-- To replace no word is to put words underneath. -/
theorem rebase_zero (words : List Word) (m : Machine) : m.rebase 0 words = m.atop words := rfl

/-- With its own lowest words, a machine is as it was. -/
theorem rebase_take (height : Nat) (m : Machine) :
    m.rebase height (m.stack.toList.take height) = m := by
  rw [rebase, List.take_append_drop, Stack.ofList_toList]

theorem toList_rebase (height : Nat) (words : List Word) (m : Machine) :
    (m.rebase height words).stack.toList = words ++ m.stack.toList.drop height :=
  Stack.toList_ofList _

/-- The word on top stays there, if it is none of the lowest ones. -/
theorem toList_rebase_append {below : List Word} {word : Word} (words : List Word)
    (hstack : m.stack.toList = below ++ [word]) (hheight : height < m.stack.size) :
    (m.rebase height words).stack.toList = (words ++ below.drop height) ++ [word] := by
  rw [← Stack.length_toList, hstack, List.length_append, List.length_singleton] at hheight
  rw [toList_rebase, hstack, List.drop_append_of_le_length (Nat.le_of_lt_succ hheight),
    List.append_assoc]

/-- Other words at the bottom are a disguise. -/
theorem disguise_rebase (height : Nat) (words : List Word) : Disguise (rebase height words) id :=
  .of_fault_eq (fun _ => rfl) (fun _ => rfl) (fun _ => rfl) fun _ _ => rfl

/-! ## Steps that leave the bottom alone -/

/-- The next instruction of a machine is to pop a word. -/
def Pops (program : Program) (m : Machine) : Prop :=
  (program.get? m.pc).bind Instruction.opcode = some (.known .pop)

instance : Decidable (m.Pops program) :=
  inferInstanceAs (Decidable (_ = _))

/-- The next step leaves the lowest words alone: there are as many as the height says, and a further one if
the step pops a word. -/
structure Spares (program : Program) (height : Nat) (m : Machine) : Prop where
  le_size : height ≤ m.stack.size
  lt_size : m.Pops program → height < m.stack.size

instance : Decidable (m.Spares program height) :=
  decidable_of_iff (height ≤ m.stack.size ∧ (m.Pops program → height < m.stack.size))
    ⟨fun h => ⟨h.1, h.2⟩, fun h => ⟨h.le_size, h.lt_size⟩⟩

theorem pops_of_get? {instruction : Instruction} (hget : program.get? m.pc = some instruction)
    (hopcode : instruction.opcode = some (.known .pop)) : m.Pops program := by
  rw [Pops, hget, Option.bind_some, hopcode]

/-- A machine that is to pop a word and has none fails. -/
theorem Pops.fault_step (h : m.Pops program) (hm : m.isTerminal = false)
    (hempty : m.stack.toList = []) : (m.step program).fault = some .stackUnderflow := by
  obtain ⟨instruction, hget, hopcode⟩ := Option.bind_eq_some_iff.1 h
  have hexecutes : m.execute program = .error .stackUnderflow :=
    executes_iff.1 (.known hget hopcode (.underflow hempty))
  rw [step_of_execute_error hm hexecutes]

/-- A step that does not fail for lack of words needs nothing underneath the stack. -/
theorem spares_zero (hm : m.isTerminal = false)
    (h : (m.step program).fault ≠ some .stackUnderflow) : m.Spares program 0 where
  le_size := Nat.zero_le _
  lt_size := by
    intro hpops
    rw [Nat.pos_iff_ne_zero, ← Stack.length_toList, ne_eq, List.length_eq_zero_iff]
    exact fun hempty => h (hpops.fault_step hm hempty)

/-- An operation that leaves the lowest words alone does the same over other ones. -/
theorem Performs.rebase {operation : Operation} {operands : List String}
    {outcome : Except Fault Machine} (h : Performs program m operation operands outcome)
    (hsize : height ≤ m.stack.size) (hpop : operation = .pop → height < m.stack.size) :
    Performs program (m.rebase height words) operation operands
      ((outcome.map (Machine.rebase height words)).mapError id) := by
  cases h with
  | unwritable hop htarget => exact .unwritable hop htarget
  | unreadable hop htarget hsource => exact .unreadable hop htarget hsource
  | computed hop htarget hsource hresult hset =>
      exact .computed hop htarget hsource hresult hset
  | leftUnreadable hleft => exact .leftUnreadable hleft
  | rightUnreadable hleft hright => exact .rightUnreadable hleft hright
  | compared hleft hright => exact .compared hleft hright
  | lost hop htarget => exact .lost hop htarget
  | jumped hop htarget => exact .jumped hop htarget
  | passed hop => exact .passed hop
  | unpushable hsource => exact .unpushable hsource
  | @pushed _ word hsource =>
      have hpushed : Performs program (m.rebase height words) .push operands _ := .pushed hsource
      -- the pushed word comes on top of those that stay
      have hstay : (m.stack.toList ++ [word]).drop height = m.stack.toList.drop height ++ [word] :=
        List.drop_append_of_le_length (by rwa [Stack.length_toList])
      rw [toList_rebase, List.append_assoc, ← hstay,
        ← Stack.toList_ofList (m.stack.toList ++ [word])] at hpushed
      exact hpushed
  | underflow hstack =>
      have hlt := hpop rfl
      rw [← Stack.length_toList, hstack] at hlt
      cases hlt
  | unpoppable hstack htarget =>
      exact .unpoppable (toList_rebase_append words hstack (hpop rfl)) htarget
  | @popped _ below _ _ _ hstack htarget hset =>
      have hpopped : Performs program (m.rebase height words) .pop operands _ :=
        .popped (toList_rebase_append words hstack (hpop rfl)) htarget hset
      rw [← Stack.toList_ofList below] at hpopped
      exact hpopped
  | unhaltable hsource => exact .unhaltable hsource
  | halted hsource => exact .halted hsource

/-- So does an instruction. -/
theorem Executes.rebase {outcome : Except Fault Machine} (h : Executes program m outcome)
    (hspares : m.Spares program height) :
    Executes program (m.rebase height words)
      ((outcome.map (Machine.rebase height words)).mapError id) := by
  cases h with
  | ended h => exact .ended h
  | bare h hopcode => exact .bare h hopcode
  | unknown h hopcode => exact .unknown h hopcode
  | known h hopcode hperforms =>
      refine .known h hopcode (hperforms.rebase hspares.le_size ?_)
      rintro rfl
      exact hspares.lt_size (pops_of_get? h hopcode)

/-- So does a step. -/
theorem step_rebase (words : List Word) (h : m.Spares program height) :
    (m.rebase height words).step program = (m.step program).rebase height words :=
  (disguise_rebase height words).step_eq fun _ hexecutes => hexecutes.rebase h

/-- A step that does not fail for lack of words does the same with words underneath. -/
theorem step_atop (words : List Word) (h : (m.step program).fault ≠ some .stackUnderflow) :
    (m.atop words).step program = (m.step program).atop words := by
  cases hm : m.isTerminal with
  | true =>
      have hatop : (m.atop words).isTerminal = true := hm
      rw [step_of_isTerminal program hm, step_of_isTerminal program hatop]
  | false =>
      rw [← rebase_zero, ← rebase_zero]
      exact step_rebase words (spares_zero hm h)

/-! ## Runs -/

/-- A run that leaves the lowest words alone ends with them. -/
theorem take_toList_run
    (h : ∀ transition ∈ m.transitions program budget, transition.before.Spares program height) :
    (m.run program budget).stack.toList.take height = m.stack.toList.take height := by
  cases hm : m.isTerminal with
  | true => rw [run_of_isTerminal program budget hm]
  | false =>
      have hrun := (disguise_rebase height (m.stack.toList.take height)).run_eq
        fun transition hmem => step_rebase _ (h transition hmem)
      have hmem : ⟨m, m.step program⟩ ∈ m.transitions program budget := by
        rw [transitions, stepLimit, transitionsFor_succ hm]
        exact List.mem_cons_self
      have hsize : height ≤ m.stack.toList.length := by
        rw [Stack.length_toList]
        exact (h _ hmem).le_size
      have hlength : (m.stack.toList.take height).length = height := List.length_take_of_le hsize
      rw [rebase_take] at hrun
      rw [hrun, toList_rebase, List.take_left' hlength]

/-- **What lies underneath the stack does not matter.** A run that does not fail for lack of words goes as
before with any words put underneath the stack, which stay there. So a run neither reads nor changes the
words that it does not get down to: with any others in their place, it goes as before. -/
theorem run_atop (program : Program) (m : Machine) (budget : Option UInt64) :
    ((m.run program budget).fault ≠ some .stackUnderflow →
      ∀ words, (m.atop words).run program budget = (m.run program budget).atop words) ∧
    ∀ height,
      (∀ transition ∈ m.transitions program budget, transition.before.Spares program height) →
        (m.run program budget).stack.toList.take height = m.stack.toList.take height ∧
          ∀ words, (m.rebase height words).run program budget =
            (m.run program budget).rebase height words := by
  refine ⟨?_, ?_⟩
  · intro hfault words
    refine (disguise_rebase 0 words).run_eq fun transition hmem => step_atop words ?_
    -- a step with this fault would have ended the run with it
    intro hunderflow
    rw [step_of_mem_transitions hmem] at hunderflow
    exact hfault (fault_runFor_of_mem_transitionsFor hmem hunderflow)
  · intro height h
    exact ⟨take_toList_run h, fun words =>
      (disguise_rebase height words).run_eq fun transition hmem =>
        step_rebase words (h transition hmem)⟩

/-- A run pops a word, pushes one, and fails as it pops the next one into a literal. It does the same over
two words more, and whatever the lowest word is. -/
theorem run_atop_pop_into_literal :
    let program := Program.parse "POP AX
PUSH 3
POP 5"
    let m := fresh.withStack [7, 8]
    ((m.run program none).fault ≠ some .stackUnderflow ∧
      (m.atop [1, 2]).run program none = (m.run program none).atop [1, 2]) ∧
    (∀ transition ∈ m.transitions program none, transition.before.Spares program 1) ∧
      (m.run program none).stack.toList.take 1 = [7] ∧
      (m.rebase 1 [9]).run program none = (m.run program none).rebase 1 [9] := by
  intro program m
  have hfault : (m.run program none).fault ≠ some .stackUnderflow := by decide +kernel
  have hspares : ∀ transition ∈ m.transitions program none, transition.before.Spares program 1 := by
    decide +kernel
  obtain ⟨hatop, hrebase⟩ := run_atop program m none
  obtain ⟨htake, hothers⟩ := hrebase 1 hspares
  exact ⟨⟨hfault, hatop hfault [1, 2]⟩, hspares, htake, hothers [9]⟩

end Machine

end RegisterMachine
