/-
# The state of the machine

All that the machine holds between two instructions:

* the registers, sixteen memory cells, the stack and the zero flag;
* `pc`, the index of the next instruction;
* whether it has halted, or by which fault it failed;
* the words it has emitted and the cycles it has used.

A machine that has halted or failed is terminal. `Machine.fresh` is the machine before any run, and
`Machine.text` shows a machine on one line.
-/
import RegisterMachine.Machine.Operand
import RegisterMachine.Machine.Stack
import RegisterMachine.Text.Column

namespace RegisterMachine

/-- The machine between two instructions. No operation reaches the memory cells. -/
structure Machine where
  registers : Registers
  memory : Vector Word 16
  stack : Stack
  pc : Nat
  zero : Bool
  halted : Bool
  fault : Option Fault
  output : List Word
  cycles : UInt64
  deriving DecidableEq, Repr

namespace Machine

/-! ## Setting a machine up -/

/-- The machine before any run. -/
def fresh : Machine where
  registers := .initial
  memory := Vector.replicate 16 0
  stack := .empty
  pc := 0
  zero := false
  halted := false
  fault := none
  output := []
  cycles := 0

/-- Puts a word into a register. -/
def withRegister (m : Machine) (register : Register) (word : Word) : Machine :=
  { m with registers := m.registers.set register word }

/-- Replaces the stack by words listed from the bottom to the top. -/
def withStack (m : Machine) (words : List Word) : Machine :=
  { m with stack := .ofList words }

/-! ## Ends of a run -/

/-- A machine that has halted or failed takes no further step. -/
def isTerminal (m : Machine) : Bool :=
  m.halted || m.fault.isSome

@[simp] theorem isTerminal_fresh : fresh.isTerminal = false := rfl

/-- Records a fault. A machine that failed before keeps its first fault. -/
def fail (m : Machine) (fault : Fault) : Machine :=
  { m with fault := m.fault.or (some fault) }

/-- A machine with a fault stays as it is. -/
theorem fail_of_fault {m : Machine} {first : Fault} (fault : Fault) (h : m.fault = some first) :
    m.fail fault = m := by
  cases m
  simp_all [fail]

/-! ## Text -/

/-- How a run ended, for the end of the line: a fault comes before halting. -/
def endText (m : Machine) : String :=
  match m.fault with
  | some fault => " | error: " ++ fault.message
  | none => if m.halted then " | halted" else ""

/-- The machine on one line. -/
def text (m : Machine) : String :=
  "pc " ++ Text.alignRight 3 (Text.numeral m.pc) ++ " | " ++ m.registers.text
    ++ " | stack " ++ m.stack.text ++ " | zero " ++ Text.numeral m.zero.toNat
    ++ " | cycles " ++ Text.numeral m.cycles.toNat ++ m.endText

end Machine

end RegisterMachine
