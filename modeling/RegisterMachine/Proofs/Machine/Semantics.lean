/-
# The machine follows the rules of execution

Each check, each operation and each step has exactly the outcomes that the rules give. Every part is
shown twice: an outcome by the rules is the outcome that is computed, and the rules give an outcome.
Together these leave one outcome each.

* `Machine.performs_iff` : operations;
* `Machine.executes_iff` : instructions.
-/
import Mathlib.Data.List.Basic
import Mathlib.Order.Nat
import RegisterMachine.Proofs.Machine.Rules

namespace RegisterMachine

namespace Machine

/-! ## Tokens -/

/-- A token other than every register's name names no register. -/
theorem ofName?_of_forall_ne {token : String} (h : ∀ register : Register, register.name ≠ token) :
    Register.ofName? token = none := by
  rw [Option.eq_none_iff_forall_ne_some]
  exact fun register hsome => h register (Register.ofName?_eq_some_iff.1 hsome)

/-- A token that denotes a word is read as this word. -/
theorem Denotes.read_eq {registers : Registers} {token : String} {word : Word}
    (h : Denotes registers token word) : registers.read token = .ok word := by
  cases h with
  | register register => exact Registers.read_name registers register
  | literal hname hvalue =>
      have hnone := ofName?_of_forall_ne hname
      have hword : Word.ofNumeral? token = some word := by
        rw [Word.ofNumeral?, hvalue, Option.bind_some, Word.ofInt?_toInt]
      rw [Registers.read, Operand.ofToken?, hnone, hword]
      rfl

/-- A token is read as the word that it denotes. -/
theorem denotes_of_read_eq {registers : Registers} {token : String} {word : Word}
    (h : registers.read token = .ok word) : Denotes registers token word := by
  unfold Registers.read Operand.ofToken? at h
  cases hregister : Register.ofName? token with
  | some register =>
      rw [hregister] at h
      cases h
      rw [← Register.ofName?_eq_some_iff.1 hregister]
      exact .register register
  | none =>
      -- no register has this name, so the token is read as a numeral
      rw [hregister] at h
      have hname : ∀ register : Register, register.name ≠ token := by
        rintro register rfl
        simp at hregister
      cases hvalue : Text.signed? token.toList with
      | none =>
          rw [Word.ofNumeral?, hvalue] at h
          cases h
      | some n =>
          rw [Word.ofNumeral?, hvalue, Option.bind_some] at h
          cases hword : Word.ofInt? n with
          | none =>
              rw [hword] at h
              cases h
          | some literal =>
              rw [hword] at h
              cases h
              refine .literal hname ?_
              rw [hvalue, ← Word.ofInt?_eq_some_iff.1 hword]
              rfl

/-- A token that denotes no word is refused. -/
theorem read_eq_error {registers : Registers} {token : String}
    (h : ∀ word, ¬ Denotes registers token word) :
    registers.read token = .error (.invalidOperand token) := by
  cases hread : registers.read token with
  | ok word => exact absurd (denotes_of_read_eq hread) (h word)
  | error fault =>
      unfold Registers.read at hread
      split at hread
      · cases hread
      · exact hread.symm

/-- A token that names no register is no destination. -/
theorem destination_eq_error {token : String} (h : ∀ register : Register, register.name ≠ token) :
    Register.destination token = .error (.notARegister token) := by
  rw [Register.destination, ofName?_of_forall_ne h]

/-! ## Checks of operands -/

section Checks

variable {program : Program} {registers : Registers} {operation : Operation}
  {operands : List String} {place : Nat}

theorem operand_of_none (h : operands[place]? = none) :
    operand operation operands place = .error (.missingOperand operation (place + 1)) := by
  rw [operand, h]

theorem operand_of_some {token : String} (h : operands[place]? = some token) :
    operand operation operands place = .ok token := by
  rw [operand, h]

/-- The check of a destination has the outcome that the rules give. -/
theorem Writable.check_eq {outcome : Except Fault Register}
    (h : Writable operation operands place outcome) :
    (operand operation operands place >>= Register.destination) = outcome := by
  cases h with
  | missing h =>
      rw [operand_of_none h]
      rfl
  | refused h hname =>
      rw [operand_of_some h]
      exact destination_eq_error hname
  | found h =>
      rw [operand_of_some h]
      exact Register.destination_name _

/-- The rules give the check of a destination an outcome. -/
theorem exists_writable (operation : Operation) (operands : List String) (place : Nat) :
    ∃ outcome, Writable operation operands place outcome := by
  cases htoken : operands[place]? with
  | none => exact ⟨_, .missing htoken⟩
  | some token =>
      by_cases hname : ∃ register : Register, register.name = token
      · obtain ⟨register, rfl⟩ := hname
        exact ⟨_, .found htoken⟩
      · exact ⟨_, .refused htoken fun register heq => hname ⟨register, heq⟩⟩

/-- The check of a source has the outcome that the rules give. -/
theorem Readable.check_eq {outcome : Except Fault Word}
    (h : Readable registers operation operands place outcome) :
    (operand operation operands place >>= registers.read) = outcome := by
  cases h with
  | missing h =>
      rw [operand_of_none h]
      rfl
  | refused h hword =>
      rw [operand_of_some h]
      exact read_eq_error hword
  | found h hword =>
      rw [operand_of_some h]
      exact hword.read_eq

/-- The rules give the check of a source an outcome. -/
theorem exists_readable (registers : Registers) (operation : Operation) (operands : List String)
    (place : Nat) : ∃ outcome, Readable registers operation operands place outcome := by
  cases htoken : operands[place]? with
  | none => exact ⟨_, .missing htoken⟩
  | some token =>
      by_cases hword : ∃ word, Denotes registers token word
      · obtain ⟨word, hword⟩ := hword
        exact ⟨_, .found htoken hword⟩
      · exact ⟨_, .refused htoken fun word hdenotes => hword ⟨word, hdenotes⟩⟩

/-- An index carries a label when the entry there does. -/
theorem mem_carriers_iff {label : String} {index : Nat} :
    index ∈ carriers program label ↔
      ∃ h : index < program.entries.length,
        program.entries[index].instruction.label = some label := by
  constructor
  · rintro ⟨instruction, hget, hlabel⟩
    obtain ⟨entry, hentry, rfl⟩ := Option.map_eq_some_iff.1 hget
    obtain ⟨hlt, rfl⟩ := List.getElem?_eq_some_iff.1 hentry
    exact ⟨hlt, hlabel⟩
  · rintro ⟨hlt, hlabel⟩
    refine ⟨_, ?_, hlabel⟩
    rw [Program.get?, List.getElem?_eq_getElem hlt]
    rfl

/-- There is a least index that carries a label, unless no index carries it. -/
theorem isLeast_carriers_or_forall_notMem (program : Program) (label : String) :
    (∃ index, IsLeast (carriers program label) index) ∨
      ∀ index, index ∉ carriers program label := by
  classical
  by_cases hsome : ∃ index, index ∈ carriers program label
  · exact Or.inl ⟨_, Nat.isLeast_find hsome⟩
  · exact Or.inr (not_exists.1 hsome)

/-- A label leads to the least index that carries it. -/
theorem labelIndex?_of_isLeast {label : String} {index : Nat}
    (h : IsLeast (carriers program label) index) : program.labelIndex? label = some index := by
  obtain ⟨hlt, hlabel⟩ := mem_carriers_iff.1 h.1
  refine List.findIdx?_eq_some_iff_getElem.2 ⟨hlt, by simpa using hlabel, fun j hj hcarries => ?_⟩
  have hmem : j ∈ carriers program label :=
    mem_carriers_iff.2 ⟨Nat.lt_trans hj hlt, by simpa using hcarries⟩
  exact absurd (h.2 hmem) (by omega)

/-- A label that no index carries leads nowhere. -/
theorem labelIndex?_of_forall_notMem {label : String}
    (h : ∀ index, index ∉ carriers program label) : program.labelIndex? label = none := by
  cases hindex : program.labelIndex? label with
  | none => rfl
  | some index =>
      obtain ⟨hlt, hcarries, -⟩ := List.findIdx?_eq_some_iff_getElem.1 hindex
      exact absurd (mem_carriers_iff.2 ⟨hlt, by simpa using hcarries⟩) (h index)

/-- The rules give the search for a label an outcome. -/
theorem exists_target (program : Program) (operation : Operation) (operands : List String) :
    ∃ outcome, Target program operation operands outcome := by
  cases hlabel : operands[0]? with
  | none => exact ⟨_, .missing hlabel⟩
  | some label =>
      rcases isLeast_carriers_or_forall_notMem program label with ⟨index, hleast⟩ | hnone
      · exact ⟨_, .found hlabel hleast⟩
      · exact ⟨_, .notFound hlabel hnone⟩

end Checks

/-! ## Operations -/

section Operations

variable {program : Program} {m : Machine} {operation : Operation} {operands : List String}

/-- A computation combines the words of its operands as its rule says. -/
theorem Computes.exists_result {f : Int → Int → Int} {cost : UInt64}
    (h : Computes operation f cost) :
    ∃ result : Word → Word → Word,
      (∀ m program operands,
        effect m program operation operands = combine m operation operands result) ∧
      (∀ target source,
        (result target source).toInt = (f target.toInt source.toInt).bmod Int64.size) ∧
      operation.cost = cost := by
  cases h with
  | mov =>
      refine ⟨fun _ source => source, fun _ _ _ => rfl, fun _ source => ?_, rfl⟩
      exact (Int64.toInt_bmod source).symm
  | add => exact ⟨fun target source => target + source, fun _ _ _ => rfl, Int64.toInt_add, rfl⟩
  | sub => exact ⟨fun target source => target - source, fun _ _ _ => rfl, Int64.toInt_sub, rfl⟩
  | mul => exact ⟨fun target source => target * source, fun _ _ _ => rfl, Int64.toInt_mul, rfl⟩

@[simp] theorem advance_registers (m : Machine) (cost : UInt64) :
    (m.advance cost).registers = m.registers := rfl

@[simp] theorem advance_stack (m : Machine) (cost : UInt64) :
    (m.advance cost).stack = m.stack := rfl

/-- A combination checks its destination, and then its source. -/
theorem combine_eq (m : Machine) (operation : Operation) (operands : List String)
    (result : Word → Word → Word) :
    m.combine operation operands result = (do
      let register ← operand operation operands 0 >>= Register.destination
      let word ← operand operation operands 1 >>= m.registers.read
      return m.withRegister register (result (m.registers.get register) word)) := by
  unfold combine
  simp only [bind_assoc]

/-- A comparison checks its left operand, and then its right one. -/
theorem effect_cmp_eq (m : Machine) (program : Program) (operands : List String) :
    m.effect program .cmp operands = (do
      let left ← operand .cmp operands 0 >>= m.registers.read
      let right ← operand .cmp operands 1 >>= m.registers.read
      return { m with zero := decide (left = right) }) := by
  simp only [effect, bind_assoc]

theorem effect_push_eq (m : Machine) (program : Program) (operands : List String) :
    m.effect program .push operands = (do
      let word ← operand .push operands 0 >>= m.registers.read
      return { m with stack := m.stack.push word }) := by
  simp only [effect, bind_assoc]

theorem effect_hlt_eq (m : Machine) (program : Program) (operands : List String) :
    m.effect program .hlt operands = (do
      let word ← operand .hlt operands 0 >>= m.registers.read
      return { m with output := m.output ++ [word], halted := true }) := by
  simp only [effect, bind_assoc]

/-- Pushing adds a word at the upper end. -/
theorem push_eq_ofList (stack : Stack) (word : Word) :
    stack.push word = .ofList (stack.toList ++ [word]) := by
  rw [← Stack.toList_inj, Stack.toList_push, Stack.toList_ofList]

/-- A stack without words is not popped. -/
theorem pop?_of_toList_nil {stack : Stack} (h : stack.toList = []) : stack.pop? = none := by
  rw [← Stack.ofList_toList stack, h]
  rfl

/-- A word at the upper end is popped. -/
theorem pop?_of_toList_append {stack : Stack} {below : List Word} {word : Word}
    (h : stack.toList = below ++ [word]) : stack.pop? = some (word, .ofList below) := by
  rw [Stack.pop?_eq_some_iff, ← Stack.toList_inj, Stack.toList_push, Stack.toList_ofList, h]

/-- With a word on the stack, `pop` checks its destination. -/
theorem effect_pop_eq {m : Machine} {below : List Word} {word : Word}
    (h : m.stack.toList = below ++ [word]) (program : Program) (operands : List String) :
    m.effect program .pop operands = (do
      let register ← operand .pop operands 0 >>= Register.destination
      return { m.withRegister register word with stack := .ofList below }) := by
  simp only [effect, pop?_of_toList_append h, bind_assoc]

/-- A register file with one register replaced is what writing this register gives. -/
theorem Replaces.set_eq {before after : Registers} {register : Register} {word : Word}
    (h : Replaces before register word after) : before.set register word = after := by
  apply Registers.ext_get
  intro other
  by_cases hother : other = register
  · subst hother
    rw [Registers.get_set_self, h.get_self]
  · rw [Registers.get_set_of_ne before word hother, h.get_other other hother]

/-- Writing a register replaces it. -/
theorem replaces_set (before : Registers) (register : Register) (word : Word) :
    Replaces before register word (before.set register word) where
  get_self := Registers.get_set_self before register word
  get_other := fun _ hother => Registers.get_set_of_ne before word hother

/-- The operations that jump search for their label, and take one cycle. -/
theorem Jumps.effect_eq (h : Jumps operation m.zero) :
    effect m program operation operands = jump m program operation operands ∧
      operation.cost = 1 := by
  generalize hzero : m.zero = zero at h
  cases h with
  | jmp => exact ⟨rfl, rfl⟩
  | je => exact ⟨if_pos hzero, rfl⟩
  | jne => exact ⟨if_neg (by simp [hzero]), rfl⟩

/-- The operations that pass on do nothing, and take one cycle. -/
theorem Passes.effect_eq (h : Passes operation m.zero) :
    effect m program operation operands = .ok m ∧ operation.cost = 1 := by
  generalize hzero : m.zero = zero at h
  cases h with
  | je => exact ⟨if_neg (by simp [hzero]), rfl⟩
  | jne => exact ⟨if_pos hzero, rfl⟩

/-- A jump has the outcome that the rules give to the search for its label. -/
theorem Target.jump_eq {outcome : Except Fault Nat} (h : Target program operation operands outcome) :
    m.jump program operation operands = outcome.map fun index => { m with pc := index } := by
  cases h with
  | missing h =>
      rw [jump, operand_of_none h]
      rfl
  | notFound h hnone =>
      simp only [jump, operand_of_some h, bind, Except.bind, labelIndex?_of_forall_notMem hnone]
      rfl
  | found h hleast =>
      simp only [jump, operand_of_some h, bind, Except.bind, labelIndex?_of_isLeast hleast]
      rfl

/-- An operation has the outcome that the rules give. -/
theorem Performs.perform_eq {outcome : Except Fault Machine}
    (h : Performs program m operation operands outcome) :
    m.perform program operation operands = outcome := by
  -- the machine counts the step before it performs the operation, which the checks do not notice
  unfold perform
  cases h with
  | unwritable hop htarget =>
      obtain ⟨result, heffect, -, -⟩ := hop.exists_result
      rw [heffect, combine_eq, htarget.check_eq]
      rfl
  | unreadable hop htarget hsource =>
      obtain ⟨result, heffect, -, -⟩ := hop.exists_result
      rw [heffect, combine_eq, htarget.check_eq]
      simp only [advance_registers, hsource.check_eq]
      rfl
  | computed hop htarget hsource hresult hset =>
      obtain ⟨result, heffect, hword, hcost⟩ := hop.exists_result
      have hresult := Int64.toInt_inj.1 ((hword _ _).trans hresult.symm)
      rw [heffect, combine_eq, htarget.check_eq, ← hset.set_eq, ← hresult, hcost]
      simp only [advance_registers, hsource.check_eq]
      rfl
  | leftUnreadable hleft =>
      rw [effect_cmp_eq, advance_registers, hleft.check_eq]
      rfl
  | rightUnreadable hleft hright =>
      rw [effect_cmp_eq, advance_registers, hleft.check_eq]
      simp only [hright.check_eq]
      rfl
  | compared hleft hright =>
      rw [effect_cmp_eq, advance_registers, hleft.check_eq]
      simp only [hright.check_eq]
      rfl
  | lost hop htarget =>
      rw [(Jumps.effect_eq (m := m.advance operation.cost) hop).1, htarget.jump_eq]
      rfl
  | jumped hop htarget =>
      obtain ⟨heffect, hcost⟩ := Jumps.effect_eq (m := m.advance operation.cost) hop
      rw [heffect, htarget.jump_eq, hcost]
      rfl
  | passed hop =>
      obtain ⟨heffect, hcost⟩ := Passes.effect_eq (m := m.advance operation.cost) hop
      rw [heffect, hcost]
      rfl
  | unpushable hsource =>
      rw [effect_push_eq, advance_registers, hsource.check_eq]
      rfl
  | pushed hsource =>
      rw [effect_push_eq, advance_registers, hsource.check_eq, ← push_eq_ofList]
      rfl
  | underflow hstack =>
      rw [effect, advance_stack, pop?_of_toList_nil hstack]
  | unpoppable hstack htarget =>
      rw [effect_pop_eq (m := m.advance Operation.pop.cost) hstack, htarget.check_eq]
      rfl
  | popped hstack htarget hset =>
      rw [effect_pop_eq (m := m.advance Operation.pop.cost) hstack, htarget.check_eq,
        ← hset.set_eq]
      rfl
  | unhaltable hsource =>
      rw [effect_hlt_eq, advance_registers, hsource.check_eq]
      rfl
  | halted hsource =>
      -- to halt is free
      have hcycles : m.cycles + Operation.hlt.cost = m.cycles := UInt64.add_zero m.cycles
      rw [effect_hlt_eq, advance_registers, hsource.check_eq, advance, hcycles]
      rfl

/-- The rules give a computation an outcome. -/
theorem exists_performs_of_computes {f : Int → Int → Int} {cost : UInt64} (program : Program)
    (m : Machine) (operands : List String) (hop : Computes operation f cost) :
    ∃ outcome, Performs program m operation operands outcome := by
  -- the checks are made one after the other, and the first that fails is the outcome
  obtain ⟨result, -, hresult, -⟩ := hop.exists_result
  obtain ⟨target, htarget⟩ := exists_writable operation operands 0
  cases target with
  | error fault => exact ⟨_, .unwritable hop htarget⟩
  | ok register =>
      obtain ⟨source, hsource⟩ := exists_readable m.registers operation operands 1
      cases source with
      | error fault => exact ⟨_, .unreadable hop htarget hsource⟩
      | ok word =>
          exact ⟨_, .computed hop htarget hsource (hresult _ word) (replaces_set _ _ _)⟩

/-- The rules give a jump that is taken an outcome. -/
theorem exists_performs_of_jumps (program : Program) (operands : List String)
    (hop : Jumps operation m.zero) :
    ∃ outcome, Performs program m operation operands outcome := by
  obtain ⟨target, htarget⟩ := exists_target program operation operands
  cases target with
  | error fault => exact ⟨_, .lost hop htarget⟩
  | ok index => exact ⟨_, .jumped hop htarget⟩

/-- The rules give every operation an outcome. -/
theorem exists_performs (program : Program) (m : Machine) (operation : Operation)
    (operands : List String) : ∃ outcome, Performs program m operation operands outcome := by
  cases operation with
  | mov => exact exists_performs_of_computes program m operands .mov
  | add => exact exists_performs_of_computes program m operands .add
  | sub => exact exists_performs_of_computes program m operands .sub
  | mul => exact exists_performs_of_computes program m operands .mul
  | cmp =>
      obtain ⟨left, hleft⟩ := exists_readable m.registers .cmp operands 0
      obtain ⟨right, hright⟩ := exists_readable m.registers .cmp operands 1
      cases left with
      | error fault => exact ⟨_, .leftUnreadable hleft⟩
      | ok left =>
          cases right with
          | error fault => exact ⟨_, .rightUnreadable hleft hright⟩
          | ok right => exact ⟨_, .compared hleft hright⟩
  | jmp => exact exists_performs_of_jumps program operands (.jmp m.zero)
  | je =>
      cases hzero : m.zero with
      | true => exact exists_performs_of_jumps program operands (hzero ▸ .je)
      | false => exact ⟨_, .passed (hzero ▸ .je)⟩
  | jne =>
      cases hzero : m.zero with
      | false => exact exists_performs_of_jumps program operands (hzero ▸ .jne)
      | true => exact ⟨_, .passed (hzero ▸ .jne)⟩
  | push =>
      obtain ⟨source, hsource⟩ := exists_readable m.registers .push operands 0
      cases source with
      | error fault => exact ⟨_, .unpushable hsource⟩
      | ok word => exact ⟨_, .pushed hsource⟩
  | pop =>
      rcases List.eq_nil_or_concat' m.stack.toList with hnil | ⟨below, word, hstack⟩
      · exact ⟨_, .underflow hnil⟩
      · obtain ⟨target, htarget⟩ := exists_writable .pop operands 0
        cases target with
        | error fault => exact ⟨_, .unpoppable hstack htarget⟩
        | ok register => exact ⟨_, .popped hstack htarget (replaces_set _ _ _)⟩
  | hlt =>
      obtain ⟨source, hsource⟩ := exists_readable m.registers .hlt operands 0
      cases source with
      | error fault => exact ⟨_, .unhaltable hsource⟩
      | ok word => exact ⟨_, .halted hsource⟩

/-- An operation has exactly the outcome that the rules give. -/
theorem performs_iff {outcome : Except Fault Machine} :
    Performs program m operation operands outcome ↔
      m.perform program operation operands = outcome := by
  constructor
  · exact Performs.perform_eq
  · rintro rfl
    obtain ⟨outcome, h⟩ := exists_performs program m operation operands
    rwa [h.perform_eq]

end Operations

/-! ## Instructions and steps -/

variable {program : Program} {m : Machine}

/-- An instruction has exactly the outcome that the rules give. -/
theorem executes_iff {outcome : Except Fault Machine} :
    Executes program m outcome ↔ m.execute program = outcome := by
  constructor
  · intro h
    unfold execute
    cases h with
    | ended h => rw [Program.get?_eq_none_iff.2 h]
    | bare h hopcode =>
        have hcycles : m.cycles + 0 = m.cycles := UInt64.add_zero m.cycles
        simp only [h, hopcode, advance, hcycles]
    | unknown h hopcode => simp only [h, hopcode]
    | known h hopcode hperforms => simp only [h, hopcode, hperforms.perform_eq]
  · rintro rfl
    unfold execute
    cases hget : program.get? m.pc with
    | none => exact .ended (Program.get?_eq_none_iff.1 hget)
    | some instruction =>
        cases hopcode : instruction.opcode with
        | none =>
            have hcycles : m.cycles + 0 = m.cycles := UInt64.add_zero m.cycles
            simp only [hopcode, advance, hcycles]
            exact .bare hget hopcode
        | some opcode =>
            cases opcode with
            | unknown name =>
                simp only [hopcode]
                exact .unknown hget hopcode
            | known operation =>
                simp only [hopcode]
                exact .known hget hopcode (performs_iff.2 rfl)

/-- **A step follows the rules.** The machine after a step is the one machine that the rules give. -/
theorem step_eq_iff_steps (hm : m.isTerminal = false) (next : Machine) :
    m.step program = next ↔ Steps program m next := by
  constructor
  · rintro rfl
    cases houtcome : m.execute program with
    | ok next =>
        rw [step_of_execute_ok hm houtcome]
        exact .done (executes_iff.2 houtcome)
    | error fault =>
        rw [step_of_execute_error hm houtcome]
        exact .failed (executes_iff.2 houtcome)
  · intro h
    cases h with
    | done h => exact step_of_execute_ok hm (executes_iff.1 h)
    | failed h => exact step_of_execute_error hm (executes_iff.1 h)

/-- With a word on the stack, `pop` refuses a destination that is no register, and leaves the word. -/
theorem steps_pop_refused :
    (fresh.withStack [1]).isTerminal = false ∧
      Steps (.ofInstructions [⟨some (.known .pop), ["5"], none⟩]) (fresh.withStack [1])
        { fresh.withStack [1] with fault := some (.notARegister "5") } :=
  ⟨rfl, (step_eq_iff_steps rfl _).1 (by decide)⟩

end Machine

end RegisterMachine
