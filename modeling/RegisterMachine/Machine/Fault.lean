/-
# Faults

The ways in which a run can fail. A machine with a fault does not go on.

* `Fault` : the causes;
* `Fault.message` : the sentence that reports a cause.
-/
import RegisterMachine.Assembly.Operation
import RegisterMachine.Text.Numeral

namespace RegisterMachine

/-- Why a run failed. -/
inductive Fault
  /-- The machine does not know this opcode. -/
  | unknownInstruction (name : String)
  /-- No instruction carries this label. -/
  | labelNotFound (label : String)
  /-- A word was to be popped from the empty stack. -/
  | stackUnderflow
  /-- There is no instruction left, and the machine has not halted. -/
  | endedWithoutHalt
  /-- The run took more cycles than it was given. -/
  | budgetExceeded
  /-- The token is neither a register nor a word. -/
  | invalidOperand (token : String)
  /-- The operation has no operand in this place, counted from one. -/
  | missingOperand (operation : Operation) (position : Nat)
  /-- The token is to be written to and is no register. -/
  | notARegister (token : String)
  deriving DecidableEq, Repr

namespace Fault

/-- The sentence that reports a fault. -/
def message : Fault → String
  | unknownInstruction name => "Unknown instruction: " ++ name
  | labelNotFound label => "Label not found: " ++ label
  | stackUnderflow => "Stack underflow"
  | endedWithoutHalt => "Program ended without HLT"
  | budgetExceeded => "Cycle budget exceeded"
  | invalidOperand token => "Invalid operand: " ++ token
  | missingOperand operation position =>
      "Missing operand " ++ Text.numeral position ++ " for " ++ operation.mnemonic
  | notARegister token => "Not a register: " ++ token

end Fault

end RegisterMachine
