/-
# Opcodes

What stands in the first place of an instruction: an operation of the machine, or a name that the
machine does not know.

* `Opcode.ofMnemonic` : the opcode of a word of the program text, in whatever case it is written;
* `Opcode.mnemonic` : how an opcode is written.
-/
import RegisterMachine.Assembly.Operation
import RegisterMachine.Text.UpperCase

namespace RegisterMachine

/-- An operation, or the name of an unknown one. -/
inductive Opcode
  | known (operation : Operation)
  | unknown (name : String)
  deriving DecidableEq, Repr

namespace Opcode

/-- Reads an opcode. Case does not matter; a name that is no mnemonic is kept in upper case. -/
def ofMnemonic (name : String) : Opcode :=
  let name := String.ofList (Text.upper name.toList)
  match Operation.ofMnemonic? name with
  | some operation => known operation
  | none => unknown name

/-- The text of an opcode. -/
def mnemonic : Opcode → String
  | known operation => operation.mnemonic
  | unknown name => name

/-- The cycles that an opcode takes; an unknown one has no cost. -/
def cost? : Opcode → Option UInt64
  | known operation => some operation.cost
  | unknown _ => none

/-- The text of an opcode that was read is the upper case of what was written. -/
theorem mnemonic_ofMnemonic (name : String) :
    (ofMnemonic name).mnemonic = String.ofList (Text.upper name.toList) := by
  unfold ofMnemonic
  cases h : Operation.ofMnemonic? (String.ofList (Text.upper name.toList)) with
  | none => simp [h, mnemonic]
  | some operation => simp [h, mnemonic, Operation.ofMnemonic?_eq_some_iff.1 h]

end Opcode

end RegisterMachine
