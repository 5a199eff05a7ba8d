/-
# One step

What the machine does with the instruction at its program counter.

* `Machine.perform` : the effect of an operation on its operands;
* `Machine.execute` : the machine after the next instruction, or the fault of that instruction;
* `Machine.step` : the machine after a step. A failing instruction leaves everything as it was and
  only sets the fault, and a terminal machine stays as it is.

An instruction looks at its operands only as far as it needs them, from left to right, and the first
that is absent or unfit decides the fault.
-/
import RegisterMachine.Assembly.Program
import RegisterMachine.Machine.State

namespace RegisterMachine

namespace Machine

/-! ## Effects of operations -/

/-- The operand at an index, counted from zero, of an operation that needs it. -/
def operand (operation : Operation) (operands : List String) (index : Nat) : Except Fault String :=
  match operands[index]? with
  | some token => .ok token
  | none => .error (.missingOperand operation (index + 1))

/-- Replaces the word in the register of the first operand by a function of it and of the word of
the second operand. -/
def combine (m : Machine) (operation : Operation) (operands : List String)
    (result : Word → Word → Word) : Except Fault Machine := do
  let register ← Register.destination (← operand operation operands 0)
  let word ← m.registers.read (← operand operation operands 1)
  return m.withRegister register (result (m.registers.get register) word)

/-- Goes to the first instruction with the label that the first operand names. -/
def jump (m : Machine) (program : Program) (operation : Operation) (operands : List String) :
    Except Fault Machine := do
  let label ← operand operation operands 0
  match program.labelIndex? label with
  | some index => return { m with pc := index }
  | none => .error (.labelNotFound label)

/-- Counts an instruction as done: goes to the next one and adds the cycles. -/
def advance (m : Machine) (cost : UInt64) : Machine :=
  { m with pc := m.pc + 1, cycles := m.cycles + cost }

/-- The effect of an operation on its operands. -/
def effect (m : Machine) (program : Program) (operation : Operation) (operands : List String) :
    Except Fault Machine :=
  match operation with
  | .mov => m.combine operation operands fun _ word => word
  | .add => m.combine operation operands fun old word => old + word
  | .sub => m.combine operation operands fun old word => old - word
  | .mul => m.combine operation operands fun old word => old * word
  | .cmp => do
      let left ← m.registers.read (← operand operation operands 0)
      let right ← m.registers.read (← operand operation operands 1)
      return { m with zero := decide (left = right) }
  | .jmp => m.jump program operation operands
  | .je => if m.zero then m.jump program operation operands else return m
  | .jne => if m.zero then return m else m.jump program operation operands
  | .push => do
      let word ← m.registers.read (← operand operation operands 0)
      return { m with stack := m.stack.push word }
  | .pop =>
      match m.stack.pop? with
      | none => .error .stackUnderflow
      | some (word, below) => do
          let register ← Register.destination (← operand operation operands 0)
          return { m.withRegister register word with stack := below }
  | .hlt => do
      let word ← m.registers.read (← operand operation operands 0)
      return { m with output := m.output ++ [word], halted := true }

/-- The machine after an operation. A jump overrides where the machine goes next. -/
def perform (m : Machine) (program : Program) (operation : Operation) (operands : List String) :
    Except Fault Machine :=
  (m.advance operation.cost).effect program operation operands

/-! ## Steps -/

/-- The machine after the next instruction. A bare label takes no cycles. -/
def execute (m : Machine) (program : Program) : Except Fault Machine :=
  match program.get? m.pc with
  | none => .error .endedWithoutHalt
  | some instruction =>
      match instruction.opcode with
      | none => .ok (m.advance 0)
      | some (.unknown name) => .error (.unknownInstruction name)
      | some (.known operation) => m.perform program operation instruction.operands

/-- The machine after one step. -/
def step (m : Machine) (program : Program) : Machine :=
  if m.isTerminal then m
  else
    match m.execute program with
    | .ok next => next
    | .error fault => { m with fault := some fault }

/-- A terminal machine takes no step. -/
theorem step_of_isTerminal {m : Machine} (program : Program) (h : m.isTerminal = true) :
    m.step program = m := by
  simp [step, h]

/-- An instruction that succeeds gives the next machine. -/
theorem step_of_execute_ok {m next : Machine} {program : Program} (h : m.isTerminal = false)
    (hok : m.execute program = .ok next) : m.step program = next := by
  simp [step, h, hok]

/-- An instruction that fails sets the fault and nothing else. -/
theorem step_of_execute_error {m : Machine} {program : Program} {fault : Fault}
    (h : m.isTerminal = false) (herror : m.execute program = .error fault) :
    m.step program = { m with fault := some fault } := by
  simp [step, h, herror]

/-! ## Many steps -/

/-- The machine after a number of steps. -/
def after (m : Machine) (program : Program) : Nat → Machine
  | 0 => m
  | count + 1 => (m.after program count).step program

@[simp] theorem after_zero (m : Machine) (program : Program) : m.after program 0 = m := rfl

theorem after_succ (m : Machine) (program : Program) (count : Nat) :
    m.after program (count + 1) = (m.after program count).step program := rfl

/-- The first step may be taken ahead. -/
theorem after_succ' (m : Machine) (program : Program) (count : Nat) :
    m.after program (count + 1) = (m.step program).after program count := by
  induction count with
  | zero => rfl
  | succ count ih => rw [after_succ, ih, after_succ]

/-- Steps are taken one number after the other. -/
theorem after_add (m : Machine) (program : Program) (first second : Nat) :
    m.after program (first + second) = (m.after program first).after program second := by
  induction second with
  | zero => rfl
  | succ second ih => rw [← Nat.add_assoc, after_succ, after_succ, ih]

/-- What every step keeps, any number of steps keeps. -/
theorem after_of_step {P : Machine → Prop} {program : Program}
    (hstep : ∀ m : Machine, P m → P (m.step program)) {m : Machine} (h : P m) (count : Nat) :
    P (m.after program count) := by
  induction count with
  | zero => exact h
  | succ count ih => exact hstep _ ih

/-- A terminal machine stays as it is. -/
theorem after_of_isTerminal {m : Machine} (program : Program) (h : m.isTerminal = true)
    (count : Nat) : m.after program count = m := by
  induction count with
  | zero => rfl
  | succ count ih => rw [after_succ, ih, step_of_isTerminal program h]

end Machine

end RegisterMachine
