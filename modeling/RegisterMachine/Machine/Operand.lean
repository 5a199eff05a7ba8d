/-
# Operands

What a token of an instruction stands for when the machine executes it: a register, or a literal
word. A token that names a register is that register; any other has to be a decimal numeral.

* `Operand.ofToken?` : the operand of a token;
* `Registers.read` : the word that a token stands for;
* `Register.destination` : the register that a token names, for an operation that writes to it.
-/
import RegisterMachine.Machine.Fault
import RegisterMachine.Machine.Register

namespace RegisterMachine

/-- A register or a literal. -/
inductive Operand
  | register (register : Register)
  | literal (word : Word)
  deriving DecidableEq, Repr

namespace Operand

/-- The operand that a token stands for. -/
def ofToken? (token : String) : Option Operand :=
  match Register.ofName? token with
  | some named => some (register named)
  | none => (Word.ofNumeral? token).map literal

/-- The word of an operand. -/
def word (registers : Registers) : Operand → Word
  | register named => registers.get named
  | literal word => word

@[simp] theorem ofToken?_name (named : Register) :
    ofToken? named.name = some (register named) := by
  simp [ofToken?]

end Operand

/-- The word that a token stands for. -/
def Registers.read (registers : Registers) (token : String) : Except Fault Word :=
  match Operand.ofToken? token with
  | some operand => .ok (operand.word registers)
  | none => .error (.invalidOperand token)

/-- The register that a token names. -/
def Register.destination (token : String) : Except Fault Register :=
  match Register.ofName? token with
  | some register => .ok register
  | none => .error (.notARegister token)

/-- Reading a register gives what it holds. -/
@[simp] theorem Registers.read_name (registers : Registers) (register : Register) :
    registers.read register.name = .ok (registers.get register) := by
  simp [Registers.read, Operand.word]

@[simp] theorem Register.destination_name (register : Register) :
    Register.destination register.name = .ok register := by
  simp [Register.destination]

end RegisterMachine
