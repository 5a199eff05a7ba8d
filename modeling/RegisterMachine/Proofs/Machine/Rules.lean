/-
# The rules of execution

What each instruction does and in which order it looks at its operands, as rules that do not say how
this is computed.

* `Denotes`, `Replaces`, `Computes`, `Jumps`, `Passes` : what tokens and operations mean;
* `Writable`, `Readable`, `Target` : the outcomes of a check of one operand;
* `Performs` : the outcomes of an operation, in which a check stands before those that come after it;
* `Executes`, `Steps` : the outcomes of the instruction at the program counter, and of a step.

Outcomes are machines or faults. `Performs.perform_eq` and `exists_performs` say that the machine
follows the rules: no rule gives another outcome, and some rule gives one.
-/
import Mathlib.Order.Bounds.Basic
import RegisterMachine.Machine.Step

namespace RegisterMachine

namespace Machine

/-! ## Tokens and operations -/

/-- The word that a token denotes: what the register with this name holds, or the value of a decimal
numeral. -/
inductive Denotes (registers : Registers) : String → Word → Prop
  | register (register : Register) : Denotes registers register.name (registers.get register)
  | literal {token : String} {word : Word} (hname : ∀ register : Register, register.name ≠ token)
      (hvalue : Text.signed? token.toList = some word.toInt) : Denotes registers token word

/-- One register holds a given word, and the others hold what they held before. -/
structure Replaces (before : Registers) (register : Register) (word : Word) (after : Registers) :
    Prop where
  get_self : after.get register = word
  get_other : ∀ other, other ≠ register → after.get other = before.get other

/-- The operations that compute: what becomes of the word in the destination and the source word, as
whole numbers, and the cycles that this takes. -/
inductive Computes : Operation → (Int → Int → Int) → UInt64 → Prop
  | mov : Computes .mov (fun _ source => source) 1
  | add : Computes .add (fun target source => target + source) 1
  | sub : Computes .sub (fun target source => target - source) 1
  | mul : Computes .mul (fun target source => target * source) 3

/-- The operations that jump when the zero flag is as given. -/
inductive Jumps : Operation → Bool → Prop
  | jmp (zero : Bool) : Jumps .jmp zero
  | je : Jumps .je true
  | jne : Jumps .jne false

/-- The operations that pass on to the next instruction when the zero flag is as given. -/
inductive Passes : Operation → Bool → Prop
  | je : Passes .je false
  | jne : Passes .jne true

/-! ## Checks of operands -/

/-- The outcomes of a check of an operand that is written to. Places count from zero, and the report of
a missing operand counts from one. -/
inductive Writable (operation : Operation) (operands : List String) (place : Nat) :
    Except Fault Register → Prop
  | missing (h : operands[place]? = none) :
      Writable operation operands place (.error (.missingOperand operation (place + 1)))
  | refused {token : String} (h : operands[place]? = some token)
      (hname : ∀ register : Register, register.name ≠ token) :
      Writable operation operands place (.error (.notARegister token))
  | found {register : Register} (h : operands[place]? = some register.name) :
      Writable operation operands place (.ok register)

/-- The outcomes of a check of an operand that is read. -/
inductive Readable (registers : Registers) (operation : Operation) (operands : List String)
    (place : Nat) : Except Fault Word → Prop
  | missing (h : operands[place]? = none) :
      Readable registers operation operands place (.error (.missingOperand operation (place + 1)))
  | refused {token : String} (h : operands[place]? = some token)
      (hword : ∀ word, ¬ Denotes registers token word) :
      Readable registers operation operands place (.error (.invalidOperand token))
  | found {token : String} {word : Word} (h : operands[place]? = some token)
      (hword : Denotes registers token word) :
      Readable registers operation operands place (.ok word)

/-- The indices of the instructions that carry a label. -/
def carriers (program : Program) (label : String) : Set Nat :=
  {index | ∃ instruction, program.get? index = some instruction ∧ instruction.label = some label}

/-- The outcomes of the search for the label that the first operand names. -/
inductive Target (program : Program) (operation : Operation) (operands : List String) :
    Except Fault Nat → Prop
  | missing (h : operands[0]? = none) :
      Target program operation operands (.error (.missingOperand operation 1))
  | notFound {label : String} (h : operands[0]? = some label)
      (hnone : ∀ index, index ∉ carriers program label) :
      Target program operation operands (.error (.labelNotFound label))
  | found {label : String} {index : Nat} (h : operands[0]? = some label)
      (hleast : IsLeast (carriers program label) index) :
      Target program operation operands (.ok index)

/-! ## Instructions -/

/-- The outcomes of an operation with its operands. -/
inductive Performs (program : Program) (m : Machine) :
    Operation → List String → Except Fault Machine → Prop
  /-- A computation looks for its destination first. -/
  | unwritable {operation : Operation} {operands : List String} {f : Int → Int → Int}
      {cost : UInt64} {fault : Fault} (hop : Computes operation f cost)
      (htarget : Writable operation operands 0 (.error fault)) :
      Performs program m operation operands (.error fault)
  /-- With a destination it looks for its source. -/
  | unreadable {operation : Operation} {operands : List String} {f : Int → Int → Int}
      {cost : UInt64} {register : Register} {fault : Fault} (hop : Computes operation f cost)
      (htarget : Writable operation operands 0 (.ok register))
      (hsource : Readable m.registers operation operands 1 (.error fault)) :
      Performs program m operation operands (.error fault)
  /-- With both it computes modulo `2^64`, from the words before the step. -/
  | computed {operation : Operation} {operands : List String} {f : Int → Int → Int}
      {cost : UInt64} {register : Register} {source result : Word} {registers : Registers}
      (hop : Computes operation f cost)
      (htarget : Writable operation operands 0 (.ok register))
      (hsource : Readable m.registers operation operands 1 (.ok source))
      (hresult : result.toInt = (f (m.registers.get register).toInt source.toInt).bmod Int64.size)
      (hset : Replaces m.registers register result registers) :
      Performs program m operation operands
        (.ok { m with registers := registers, pc := m.pc + 1, cycles := m.cycles + cost })
  /-- A comparison reads from left to right. -/
  | leftUnreadable {operands : List String} {fault : Fault}
      (hleft : Readable m.registers .cmp operands 0 (.error fault)) :
      Performs program m .cmp operands (.error fault)
  | rightUnreadable {operands : List String} {left : Word} {fault : Fault}
      (hleft : Readable m.registers .cmp operands 0 (.ok left))
      (hright : Readable m.registers .cmp operands 1 (.error fault)) :
      Performs program m .cmp operands (.error fault)
  | compared {operands : List String} {left right : Word}
      (hleft : Readable m.registers .cmp operands 0 (.ok left))
      (hright : Readable m.registers .cmp operands 1 (.ok right)) :
      Performs program m .cmp operands
        (.ok { m with zero := decide (left = right), pc := m.pc + 1, cycles := m.cycles + 1 })
  /-- A jump that is taken looks for its label; one that is not taken looks at nothing. -/
  | lost {operation : Operation} {operands : List String} {fault : Fault}
      (hop : Jumps operation m.zero) (htarget : Target program operation operands (.error fault)) :
      Performs program m operation operands (.error fault)
  | jumped {operation : Operation} {operands : List String} {index : Nat}
      (hop : Jumps operation m.zero) (htarget : Target program operation operands (.ok index)) :
      Performs program m operation operands
        (.ok { m with pc := index, cycles := m.cycles + 1 })
  | passed {operation : Operation} {operands : List String} (hop : Passes operation m.zero) :
      Performs program m operation operands
        (.ok { m with pc := m.pc + 1, cycles := m.cycles + 1 })
  | unpushable {operands : List String} {fault : Fault}
      (hsource : Readable m.registers .push operands 0 (.error fault)) :
      Performs program m .push operands (.error fault)
  | pushed {operands : List String} {word : Word}
      (hsource : Readable m.registers .push operands 0 (.ok word)) :
      Performs program m .push operands
        (.ok
          { m with
            stack := .ofList (m.stack.toList ++ [word]), pc := m.pc + 1, cycles := m.cycles + 1 })
  /-- The stack is looked at before the destination. -/
  | underflow {operands : List String} (hstack : m.stack.toList = []) :
      Performs program m .pop operands (.error .stackUnderflow)
  | unpoppable {operands : List String} {below : List Word} {word : Word} {fault : Fault}
      (hstack : m.stack.toList = below ++ [word])
      (htarget : Writable .pop operands 0 (.error fault)) :
      Performs program m .pop operands (.error fault)
  | popped {operands : List String} {below : List Word} {word : Word} {register : Register}
      {registers : Registers} (hstack : m.stack.toList = below ++ [word])
      (htarget : Writable .pop operands 0 (.ok register))
      (hset : Replaces m.registers register word registers) :
      Performs program m .pop operands
        (.ok
          { m with
            registers := registers, stack := .ofList below, pc := m.pc + 1,
            cycles := m.cycles + 2 })
  | unhaltable {operands : List String} {fault : Fault}
      (hsource : Readable m.registers .hlt operands 0 (.error fault)) :
      Performs program m .hlt operands (.error fault)
  | halted {operands : List String} {word : Word}
      (hsource : Readable m.registers .hlt operands 0 (.ok word)) :
      Performs program m .hlt operands
        (.ok { m with output := m.output ++ [word], halted := true, pc := m.pc + 1 })

/-- The outcomes of the instruction at the program counter. -/
inductive Executes (program : Program) (m : Machine) : Except Fault Machine → Prop
  | ended (h : program.size ≤ m.pc) : Executes program m (.error .endedWithoutHalt)
  | bare {instruction : Instruction} (h : program.get? m.pc = some instruction)
      (hopcode : instruction.opcode = none) : Executes program m (.ok { m with pc := m.pc + 1 })
  | unknown {instruction : Instruction} {name : String}
      (h : program.get? m.pc = some instruction)
      (hopcode : instruction.opcode = some (.unknown name)) :
      Executes program m (.error (.unknownInstruction name))
  | known {instruction : Instruction} {operation : Operation} {outcome : Except Fault Machine}
      (h : program.get? m.pc = some instruction)
      (hopcode : instruction.opcode = some (.known operation))
      (hperforms : Performs program m operation instruction.operands outcome) :
      Executes program m outcome

/-- The machines after a step. One that fails is the machine before it but for the fault. -/
inductive Steps (program : Program) (m : Machine) : Machine → Prop
  | done {next : Machine} (h : Executes program m (.ok next)) : Steps program m next
  | failed {fault : Fault} (h : Executes program m (.error fault)) :
      Steps program m { m with fault := some fault }

end Machine

end RegisterMachine
